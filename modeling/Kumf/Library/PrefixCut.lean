import Kumf.Library.Totals
import Mathlib.Data.List.Sort

/-! Cutting a list of weighted items where the running total of the weights first reaches a
goal, and what the cut says of the items in a list that is sorted by a key.
-/

namespace Kumf.Library

/-- The number of items up to the one at which the running total reaches the goal. -/
def cutAfter (reached : Nat → Bool) : Nat → List Nat → Option Nat
  | _, [] => none
  | total, weight :: rest =>
      if reached (total + weight) then
        some 1
      else
        (cutAfter reached (total + weight) rest).map (· + 1)

/-- The items up to the cut reach the goal, and those before the last of them do not. -/
theorem cutAfter_some {reached : Nat → Bool} {total : Nat} {weights : List Nat} {cut : Nat}
    (found : cutAfter reached total weights = some cut)
    : 0 < cut ∧ cut ≤ weights.length
      ∧ reached (total + (weights.take cut).sum) = true
      ∧ (1 < cut → reached (total + (weights.take (cut - 1)).sum) = false) := by
  induction weights generalizing total cut with
  | nil => cases found
  | cons weight rest ih =>
      rw [cutAfter] at found
      split at found
      case isTrue enough =>
        cases found
        exact ⟨by omega, by simp, by simpa using enough, by omega⟩
      case isFalse short =>
        obtain ⟨previous, cutRest, rfl⟩ := Option.map_eq_some_iff.mp found
        obtain ⟨positive, bound, enough, before⟩ := ih cutRest
        obtain ⟨earlier, rfl⟩ := Nat.exists_eq_succ_of_ne_zero positive.ne'
        refine ⟨by omega, by simpa using bound, ?_, fun _ => ?_⟩
        · simpa [Nat.add_assoc] using enough
        · rcases Nat.eq_zero_or_pos earlier with rfl | later
          · simpa using short
          · simpa [Nat.add_assoc] using before (by omega)

/-- A list whose total reaches the goal has a cut. -/
theorem cutAfter_isSome {reached : Nat → Bool} {total : Nat} {weights : List Nat}
    (nonempty : weights ≠ []) (all : reached (total + weights.sum) = true)
    : ∃ cut, cutAfter reached total weights = some cut := by
  induction weights generalizing total with
  | nil => exact absurd rfl nonempty
  | cons weight rest ih =>
      rw [cutAfter]
      split
      case isTrue => exact ⟨1, rfl⟩
      case isFalse short =>
        have more : rest ≠ [] := by
          rintro rfl
          exact short (by simpa using all)
        have rest : reached (total + weight + rest.sum) = true := by
          simpa [Nat.add_assoc] using all
        obtain ⟨cut, found⟩ := ih more rest
        exact ⟨cut + 1, by rw [found]; rfl⟩

/-- A goal that is harder to reach is reached later. -/
theorem cutAfter_le {easy hard : Nat → Bool} {total : Nat} {weights : List Nat}
    (harder : ∀ n, hard n = true → easy n = true) {first second : Nat}
    (early : cutAfter easy total weights = some first)
    (late : cutAfter hard total weights = some second)
    : first ≤ second := by
  induction weights generalizing total first second with
  | nil => cases early
  | cons weight rest ih =>
      rw [cutAfter] at early late
      split at late
      case isTrue enough =>
        rw [if_pos (harder _ enough)] at early
        cases early
        cases late
        exact le_rfl
      case isFalse =>
        obtain ⟨later, cutRest, rfl⟩ := Option.map_eq_some_iff.mp late
        split at early
        · cases early
          omega
        · obtain ⟨earlier, cutEarly, rfl⟩ := Option.map_eq_some_iff.mp early
          exact Nat.succ_le_succ (ih cutEarly cutRest)

section
variable {α κ : Type} [LinearOrder κ] {key : α → κ} (weight : α → Nat) {items : List α}

/-- In a list that falls in its key, the items from the key at a position on weigh at least
what the items up to that position weigh.
-/
theorem weight_take_le (falling : items.Pairwise (fun a b => key b ≤ key a))
    {position : Nat} (inside : position < items.length) {pivot : κ}
    (here : key items[position] = pivot)
    : ((items.take (position + 1)).map weight).sum
      ≤ weightWhere weight (fun item => decide (pivot ≤ key item)) items := by
  have kept : (items.take (position + 1)).filter (fun item => decide (pivot ≤ key item))
      = items.take (position + 1) := by
    refine List.filter_eq_self.mpr (fun item member => decide_eq_true ?_)
    obtain ⟨index, bound, rfl⟩ := List.mem_take_iff_getElem.mp member
    rw [← here]
    rcases Nat.lt_or_ge index position with before | after
    · exact List.pairwise_iff_getElem.mp falling index position (by omega) inside before
    · have same : index = position := by omega
      subst same
      exact le_rfl
  calc ((items.take (position + 1)).map weight).sum
      = weightWhere weight (fun item => decide (pivot ≤ key item))
          (items.take (position + 1)) := by rw [weightWhere, kept]
    _ ≤ weightWhere weight (fun item => decide (pivot ≤ key item))
          (items.take (position + 1) ++ items.drop (position + 1)) := by
        rw [weightWhere_append]
        omega
    _ = weightWhere weight (fun item => decide (pivot ≤ key item)) items := by
        rw [List.take_append_drop]

/-- Those strictly above the key at a position lie before it. -/
theorem weightWhere_lt_le (falling : items.Pairwise (fun a b => key b ≤ key a))
    {position : Nat} (inside : position < items.length) {pivot : κ}
    (here : key items[position] = pivot)
    : weightWhere weight (fun item => decide (pivot < key item)) items
      ≤ ((items.take position).map weight).sum := by
  have dropped : (items.drop position).filter (fun item => decide (pivot < key item)) = [] := by
    refine List.filter_eq_nil_iff.mpr (fun item member => ?_)
    obtain ⟨index, bound, rfl⟩ := List.mem_drop_iff_getElem.mp member
    simp only [decide_eq_true_eq, not_lt, ← here]
    rcases Nat.eq_zero_or_pos index with rfl | after
    · simp
    · exact List.pairwise_iff_getElem.mp falling position (position + index) inside (by omega)
        (by omega)
  calc weightWhere weight (fun item => decide (pivot < key item)) items
      = weightWhere weight (fun item => decide (pivot < key item))
          (items.take position ++ items.drop position) := by rw [List.take_append_drop]
    _ = weightWhere weight (fun item => decide (pivot < key item)) (items.take position) := by
        rw [weightWhere_append]
        simp [weightWhere, dropped]
    _ ≤ ((items.take position).map weight).sum :=
        (List.filter_sublist.map weight).sum_le_sum (fun _ _ => Nat.zero_le _)

/-- The items from a key on reach the goal exactly if the key is at most that of the item at the
cut.
-/
theorem reached_from_iff {reached : Nat → Bool}
    (monotone : ∀ {m n}, m ≤ n → reached m = true → reached n = true)
    (start : reached 0 = false) (falling : items.Pairwise (fun a b => key b ≤ key a)) {cut : Nat}
    (found : cutAfter reached 0 (items.map weight) = some cut)
    (inside : cut - 1 < items.length) {pivot : κ} (here : key items[cut - 1] = pivot)
    (bound : κ)
    : reached (weightWhere weight (fun item => decide (bound ≤ key item)) items) = true
      ↔ bound ≤ pivot := by
  obtain ⟨positive, _, enough, short⟩ := cutAfter_some found
  rw [Nat.zero_add, ← List.map_take] at enough short
  constructor
  · intro reaches
    by_contra higher
    -- The items beyond the cut's key lie before the cut.
    have fewer : weightWhere weight (fun item => decide (bound ≤ key item)) items
        ≤ weightWhere weight (fun item => decide (pivot < key item)) items := by
      refine weightWhere_mono weight (fun item member => ?_) items
      rw [decide_eq_true_eq] at member ⊢
      exact (not_le.mp higher).trans_le member
    have before := monotone (fewer.trans (weightWhere_lt_le weight falling inside here)) reaches
    rcases Nat.lt_or_ge 1 cut with later | first
    · rw [short later] at before
      cases before
    · have none : cut - 1 = 0 := by omega
      rw [none] at before
      exact absurd before (by simp [start])
  · intro low
    have more : weightWhere weight (fun item => decide (pivot ≤ key item)) items
        ≤ weightWhere weight (fun item => decide (bound ≤ key item)) items := by
      refine weightWhere_mono weight (fun item member => ?_) items
      rw [decide_eq_true_eq] at member ⊢
      exact low.trans member
    have taken := weight_take_le weight falling inside here
    rw [Nat.sub_add_cancel positive] at taken
    exact monotone (taken.trans more) enough

end

end Kumf.Library
