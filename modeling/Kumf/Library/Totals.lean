import Mathlib.Algebra.BigOperators.Group.List.Basic
import Mathlib.Algebra.GroupWithZero.Nat
import Mathlib.Algebra.Order.BigOperators.Group.List
import Mathlib.Algebra.Order.Group.Nat
import Mathlib.Data.List.Basic

/-! Sums and maxima of lists of numbers: when a sum is no more than its largest or its last
number, when two sums with ordered terms agree, and the weight of the items of a kind.
-/

namespace Kumf.Library

/-- The largest is no more than the sum. -/
theorem foldl_max_le_sum (numbers : List Nat) : numbers.foldl max 0 ≤ numbers.sum := by
  have general (numbers : List Nat)
      : ∀ start, numbers.foldl max start ≤ start + numbers.sum := by
    induction numbers with
    | nil => simp
    | cons n numbers ih =>
        intro start
        have rest := ih (max start n)
        rw [List.foldl_cons, List.sum_cons]
        omega
  simpa using general numbers 0

/-- The largest is the first or one of the others. -/
theorem foldl_max_cons (n : Nat) (numbers : List Nat)
    : (n :: numbers).foldl max 0 = max n (numbers.foldl max 0) := by
  have start : (numbers.foldl max (max n 0)) = max n (numbers.foldl max 0) := List.foldl_assoc
  rwa [Nat.max_zero] at start

/-- The sum is no more than the largest times their number. -/
theorem sum_le_length_mul_foldl_max (numbers : List Nat)
    : numbers.sum ≤ numbers.length * numbers.foldl max 0 := by
  induction numbers with
  | nil => exact Nat.le_refl 0
  | cons n numbers ih =>
      rw [List.sum_cons, List.length_cons, foldl_max_cons, Nat.succ_mul, Nat.add_comm]
      refine Nat.add_le_add (Nat.le_trans ih ?_) (Nat.le_max_left ..)
      exact Nat.mul_le_mul_left _ (Nat.le_max_right ..)

/-- The largest is zero exactly when all are. -/
theorem foldl_max_eq_zero_iff {numbers : List Nat}
    : numbers.foldl max 0 = 0 ↔ ∀ n ∈ numbers, n = 0 := by
  induction numbers with
  | nil => simp
  | cons n numbers ih =>
      rw [foldl_max_cons, Nat.max_eq_zero_iff, ih]
      simp

/-- A maximum is the sum exactly when at most one number is not isZero. -/
theorem foldl_max_eq_sum_iff {numbers : List Nat}
    : numbers.foldl max 0 = numbers.sum ↔ numbers.Pairwise (fun a b => a = 0 ∨ b = 0) := by
  induction numbers with
  | nil => simp
  | cons n numbers ih =>
      have bound := foldl_max_le_sum numbers
      rw [foldl_max_cons, List.sum_cons, List.pairwise_cons, ← ih]
      constructor
      · intro same
        by_cases isZero : n = 0
        · exact ⟨fun _ _ => .inl isZero, by omega⟩
        · have rest : numbers.sum = 0 := by omega
          have all : ∀ m ∈ numbers, m = 0 := List.sum_eq_zero_iff_forall_eq_nat.mp rest
          exact ⟨fun m member => .inr (all m member), by omega⟩
      · rintro ⟨apart, same⟩
        by_cases isZero : n = 0
        · omega
        · have all : ∀ m ∈ numbers, m = 0 :=
            fun m member => (apart m member).resolve_left isZero
          have rest : numbers.sum = 0 := List.sum_eq_zero_iff_forall_eq_nat.mpr all
          omega

/-- The last number is the sum exactly when all before it are isZero. -/
theorem getLast?_eq_sum_iff {numbers : List Nat}
    : numbers.getLast?.getD 0 = numbers.sum ↔ ∀ n ∈ numbers.dropLast, n = 0 := by
  rcases List.eq_nil_or_concat numbers with rfl | ⟨front, last, rfl⟩
  · simp
  · simp [List.sum_eq_zero_iff_forall_eq_nat]

/-- The last is no more than the sum. -/
theorem getLast?_le_sum (numbers : List Nat) : numbers.getLast?.getD 0 ≤ numbers.sum := by
  rcases List.eq_nil_or_concat numbers with rfl | ⟨front, last, rfl⟩ <;> simp

/-- Sums of ordered terms agree exactly when all terms do. -/
theorem sum_map_eq_iff {ι : Type} {items : List ι} {low high : ι → Nat}
    (ordered : ∀ item ∈ items, low item ≤ high item)
    : (items.map low).sum = (items.map high).sum ↔ ∀ item ∈ items, low item = high item := by
  induction items with
  | nil => simp
  | cons item items ih =>
      have rest := fun other member => ordered other (List.mem_cons_of_mem item member)
      have first := ordered item List.mem_cons_self
      have bound : (items.map low).sum ≤ (items.map high).sum := List.sum_le_sum rest
      rw [List.map_cons, List.map_cons, List.sum_cons, List.sum_cons, List.forall_mem_cons,
        ← ih rest]
      omega

section
variable {α : Type} (weight : α → Nat)

/-- The weight of the items that satisfy a condition. -/
def weightWhere (keep : α → Bool) (items : List α) : Nat := ((items.filter keep).map weight).sum

/-- The order of items does not matter to their weight. -/
theorem weightWhere_perm {keep : α → Bool} {items others : List α} (same : items.Perm others)
    : weightWhere weight keep items = weightWhere weight keep others :=
  ((same.filter keep).map weight).sum_eq

/-- Weights add up, front and back. -/
theorem weightWhere_append (keep : α → Bool) (front back : List α)
    : weightWhere weight keep (front ++ back)
      = weightWhere weight keep front + weightWhere weight keep back := by
  simp [weightWhere]

theorem weightWhere_cons (keep : α → Bool) (item : α) (items : List α)
    : weightWhere weight keep (item :: items)
      = (if keep item then weight item else 0) + weightWhere weight keep items := by
  by_cases kept : keep item <;> simp [weightWhere, kept]

/-- Only the items that are there are asked. -/
theorem weightWhere_congr {keep other : α → Bool} {items : List α}
    (same : ∀ item ∈ items, keep item = other item)
    : weightWhere weight keep items = weightWhere weight other items := by
  rw [weightWhere, weightWhere, List.filter_congr same]

/-- More items weigh no less. -/
theorem weightWhere_mono {keep other : α → Bool}
    (wider : ∀ item, keep item = true → other item = true) (items : List α)
    : weightWhere weight keep items ≤ weightWhere weight other items :=
  ((List.monotone_filter_right items wider).map weight).sum_le_sum
    (fun _ _ => Nat.zero_le _)

end

/-- Kinds without a common item weigh together at most as much as all items. -/
theorem sum_filters_le {α β : Type} (weight : α → Nat) {kind : β → α → Bool}
    {kinds : List β}
    (apart : kinds.Pairwise (fun a b => ∀ item, ¬ (kind a item = true ∧ kind b item = true)))
    (items : List α)
    : (kinds.map (fun a => ((items.filter (kind a)).map weight).sum)).sum
      ≤ (items.map weight).sum := by
  induction apart generalizing items with
  | nil => exact Nat.zero_le _
  | @cons a kinds first _ ih =>
      -- The other kinds only have items that the first one leaves over.
      have left : ∀ b ∈ kinds,
          (items.filter (fun item => !kind a item)).filter (kind b) = items.filter (kind b) := by
        intro b member
        rw [List.filter_filter]
        refine List.filter_congr (fun item _ => ?_)
        cases ofB : kind b item with
        | false => rfl
        | true =>
            cases ofA : kind a item with
            | false => rfl
            | true => exact absurd ⟨ofA, ofB⟩ (first b member item)
      have rest := ih (items.filter (fun item => !kind a item))
      have same : kinds.map (fun b =>
            (((items.filter (fun item => !kind a item)).filter (kind b)).map weight).sum)
          = kinds.map (fun b => ((items.filter (kind b)).map weight).sum) :=
        List.map_congr_left (fun b member => by rw [left b member])
      have whole := ((List.filter_append_perm (kind a) items).map weight).sum_eq
      rw [List.map_append, List.sum_append] at whole
      rw [same] at rest
      rw [List.map_cons, List.sum_cons]
      omega

end Kumf.Library
