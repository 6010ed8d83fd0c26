import Mathlib.Algebra.BigOperators.Group.List.Basic
import Mathlib.Data.List.SplitBy

/-! Items of one width on a line, cut into stretches without gaps: what a stretch covers, and the
gap between any two stretches.
-/

namespace Kumf.Library

variable {α : Type}

section
variable (place : α → Int) (width : Int)

/-- The second item lies right behind the first one. -/
def follows (a b : α) : Bool := place b = place a + width

/-- The stretches of a list, in its order. -/
def stretches (items : List α) : List (List α) := items.splitBy (follows place width)

/-- A point lies on one of the items. -/
def Covered (items : List α) (point : Int) : Prop :=
  ∃ item ∈ items, place item ≤ point ∧ point < place item + width

/-- Items in ascending order that do not overlap. -/
def Apart (items : List α) : Prop := items.Pairwise (fun a b => place a + width ≤ place b)

end

section
variable {place : α → Int} {width : Int} {stretch items rest : List α} {last item : α}

theorem stretches_chain (nonempty : stretch ≠ [])
    (chain : stretch.IsChain (fun a b => follows place width a b))
    : stretches place width stretch = [stretch] :=
  List.splitBy_of_isChain nonempty chain

/-- A stretch ends where the next item does not follow. -/
theorem stretches_gap (chain : stretch.IsChain (fun a b => follows place width a b))
    (ends : stretch.getLast? = some last) (gap : follows place width last item = false)
    : stretches place width (stretch ++ item :: rest)
      = stretch :: stretches place width (item :: rest) := by
  have nonempty : stretch ≠ [] := by
    rintro rfl
    cases ends
  have cut : ∀ other ∈ stretch.getLast?, follows place width other item = false := by
    intro other found
    rw [ends] at found
    rwa [← Option.some.inj found]
  have split := List.splitBy_append_cons rest cut
  rwa [List.splitBy_of_isChain nonempty chain] at split

theorem chain_concat (chain : stretch.IsChain (fun a b => follows place width a b))
    (ends : stretch.getLast? = some last) (next : follows place width last item = true)
    : (stretch ++ [item]).IsChain (fun a b => follows place width a b) := by
  refine List.IsChain.append chain (.singleton item) ?_
  intro a found b first
  rw [ends] at found
  rw [List.head?_cons] at first
  rwa [← Option.some.inj found, ← Option.some.inj first]

theorem flatten_stretches (place : α → Int) (width : Int) (items : List α)
    : (stretches place width items).flatten = items :=
  List.flatten_splitBy _ _

theorem mem_of_stretches (member : stretch ∈ stretches place width items)
    (inside : item ∈ stretch)
    : item ∈ items := by
  rw [← flatten_stretches place width items]
  exact List.mem_flatten_of_mem member inside

theorem exists_stretch (place : α → Int) (width : Int) (inside : item ∈ items)
    : ∃ stretch ∈ stretches place width items, item ∈ stretch := by
  rw [← flatten_stretches place width items] at inside
  exact List.mem_flatten.mp inside

/-- A sum over the items is one over the stretches. -/
theorem sum_stretches {M : Type} [AddMonoid M] (place : α → Int) (width : Int)
    (weight : α → M)
    (items : List α)
    : ((stretches place width items).map (fun stretch => (stretch.map weight).sum)).sum
      = (items.map weight).sum := by
  conv_rhs => rw [← flatten_stretches place width items]
  rw [List.map_flatten, List.sum_flatten, List.map_map]
  rfl

/-- A stretch covers all from its first item on, by induction on its items. -/
theorem covered_chain {first : α} {rest : List α} (wide : 0 < width)
    (chain : (first :: rest).IsChain (fun a b => follows place width a b)) (point : Int)
    : Covered place width (first :: rest) point
      ↔ place first ≤ point ∧ point < place first + width * (rest.length + 1 : Nat) := by
  induction rest generalizing first with
  | nil => simp [Covered]
  | cons second rest ih =>
      obtain ⟨next, chain⟩ := List.isChain_cons_cons.mp chain
      have behind : place second = place first + width := of_decide_eq_true next
      have longer : width * ((second :: rest).length + 1 : Nat)
          = width + width * (rest.length + 1 : Nat) := by
        rw [Int.natCast_succ, Int.mul_add, Int.mul_one, Int.add_comm, List.length_cons]
      have positive : 0 ≤ width * (rest.length + 1 : Nat) :=
        Int.mul_nonneg (Int.le_of_lt wide) (Int.natCast_nonneg _)
      have split : Covered place width (first :: second :: rest) point
          ↔ (place first ≤ point ∧ point < place first + width)
            ∨ Covered place width (second :: rest) point :=
        List.exists_mem_cons_iff _ _ _
      rw [split, ih chain, longer, behind]
      constructor
      · rintro (here | later) <;> omega
      · intro inside
        by_cases here : point < place first + width
        · exact .inl ⟨inside.1, here⟩
        · exact .inr ⟨by omega, by omega⟩

/-- Ordered parts whose neighbours do not follow on one another have gaps between them: one
between neighbours lies behind the last item of the first and in front of the first of the other.
-/
theorem parts_apart {parts : List (List α)} (wide : 0 < width)
    (cuts : parts.IsChain
      (fun part next => ∃ some nextSome,
        follows place width (part.getLast some) (next.head nextSome) = false))
    (inside : ∀ part ∈ parts, Apart place width part)
    (ordered : parts.Pairwise
      (fun part later => ∀ a ∈ part, ∀ b ∈ later, place a + width ≤ place b))
    : parts.Pairwise
      (fun part later => ∀ a ∈ part, ∀ b ∈ later, place a + width < place b) := by
  induction parts with
  | nil => exact .nil
  | cons part parts ih =>
      obtain ⟨before, others⟩ := List.pairwise_cons.mp ordered
      have later := ih cuts.tail
        (fun other member => inside other (List.mem_cons_of_mem part member)) others
      refine List.pairwise_cons.mpr ⟨?_, later⟩
      cases parts with
      | nil => exact fun _ member => absurd member List.not_mem_nil
      | cons next parts =>
          obtain ⟨⟨some, nextSome, cut⟩, _⟩ := List.isChain_cons_cons.mp cuts
          have gap : place (next.head nextSome) ≠ place (part.getLast some) + width :=
            of_decide_eq_false cut
          have close := before next List.mem_cons_self _ (List.getLast_mem some) _
            (List.head_mem nextSome)
          have ascending {other : List α} (member : other ∈ part :: next :: parts)
              : other.Pairwise (fun a b => place a ≤ place b) :=
            (inside other member).imp (fun apart => by omega)
          intro other member a aIn b bIn
          have upTo := (ascending List.mem_cons_self).rel_getLast_of_rel_getLast_getLast aIn
            (Int.le_refl _)
          rcases List.mem_cons.mp member with rfl | behind
          · have onward := (ascending (List.mem_cons_of_mem part List.mem_cons_self))
              |>.rel_head_of_rel_head_head bIn (Int.le_refl _)
            omega
          · have onward := (List.pairwise_cons.mp others).1 other behind _
              (List.head_mem nextSome) b bIn
            omega

/-- Between two stretches of spaced items there is a gap. -/
theorem stretches_apart (wide : 0 < width) (spaced : Apart place width items)
    : (stretches place width items).Pairwise
        (fun stretch later => ∀ a ∈ stretch, ∀ b ∈ later, place a + width < place b) := by
  rw [← flatten_stretches place width items, Apart,
    List.pairwise_flatten] at spaced
  exact parts_apart wide (List.isChain_getLast_head_splitBy _ items) spaced.1 spaced.2

end

end Kumf.Library
