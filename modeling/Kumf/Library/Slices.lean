import Mathlib.Data.List.Basic

/-! Slices of a list between positions: the steps between ascending positions cut it without a gap
and without an overlap.
-/

namespace Kumf.Library

variable {α : Type}

/-- The items from one position up to another one. -/
def slice (items : List α) (start stop : Nat) : List α := (items.drop start).take (stop - start)

/-- The steps from each position to the next one. -/
def steps : List Nat → List (Nat × Nat)
  | start :: stop :: rest => (start, stop) :: steps (stop :: rest)
  | _ => []

theorem length_steps (positions : List Nat)
    : (steps positions).length = positions.length - 1 := by
  induction positions with
  | nil => rfl
  | cons start rest ih =>
      cases rest with
      | nil => rfl
      | cons stop rest =>
          rw [steps, List.length_cons, ih]
          rfl

/-- A position lies in a step. -/
def inStep (position : Nat) (step : Nat × Nat) : Bool :=
  step.1 ≤ position && position < step.2

theorem inStep_iff {position : Nat} {step : Nat × Nat}
    : inStep position step = true ↔ step.1 ≤ position ∧ position < step.2 := by
  simp [inStep]

theorem slice_beyond (items : List α) {start : Nat} (beyond : items.length ≤ start) (stop : Nat)
    : slice items start stop = [] := by
  rw [slice, List.drop_eq_nil_of_le beyond, List.take_nil]

section
variable {start : Nat} {rest : List Nat}

/-- Between ascending positions every step goes forward. -/
theorem steps_forward {positions : List Nat} (ascending : positions.Pairwise (· < ·))
    : ∀ step ∈ steps positions, step.1 < step.2 := by
  induction positions with
  | nil => exact nofun
  | cons start rest ih =>
      cases rest with
      | nil => exact nofun
      | cons stop rest =>
          obtain ⟨before, later⟩ := List.pairwise_cons.mp ascending
          refine List.forall_mem_cons.mpr ⟨?_, ih later⟩
          exact before stop List.mem_cons_self

/-- In front of the first position there is no step. -/
theorem countP_steps_before {position : Nat} (before : position < start)
    (ascending : (start :: rest).Pairwise (· < ·))
    : (steps (start :: rest)).countP (inStep position) = 0 := by
  induction rest generalizing start with
  | nil => rfl
  | cons stop rest ih =>
      obtain ⟨less, later⟩ := List.pairwise_cons.mp ascending
      have next : position < stop := Nat.lt_trans before (less stop List.mem_cons_self)
      have outside : ¬ inStep position (start, stop) = true := by
        rw [inStep_iff]
        dsimp only
        omega
      rw [steps, List.countP_cons_of_neg outside, ih next later]

/-- A position between the first one and some other one lies in exactly one step. -/
theorem countP_steps {position : Nat} (ascending : (start :: rest).Pairwise (· < ·))
    (first : start ≤ position) (last : ∃ stop ∈ rest, position < stop)
    : (steps (start :: rest)).countP (inStep position) = 1 := by
  induction rest generalizing start with
  | nil =>
      obtain ⟨stop, member, _⟩ := last
      cases member
  | cons stop rest ih =>
      obtain ⟨_, later⟩ := List.pairwise_cons.mp ascending
      rw [steps]
      by_cases here : position < stop
      · rw [List.countP_cons_of_pos (inStep_iff.mpr ⟨first, here⟩),
          countP_steps_before here later]
      · have outside : ¬ inStep position (start, stop) = true := by
          rw [inStep_iff]
          dsimp only
          omega
        have others : ∃ other ∈ rest, position < other := by
          obtain ⟨other, member, beyond⟩ := last
          rcases List.mem_cons.mp member with rfl | inRest
          · exact absurd beyond here
          · exact ⟨other, inRest, beyond⟩
        rw [List.countP_cons_of_neg outside]
        exact ih later (Nat.not_lt.mp here) others

/-- The slices of the steps give the list from the first position on, if one of the positions is
not in front of its end.
-/
theorem flatMap_steps (items : List α) (ascending : (start :: rest).Pairwise (· < ·))
    (reaches : ∃ stop ∈ start :: rest, items.length ≤ stop)
    : (steps (start :: rest)).flatMap (fun step => slice items step.1 step.2)
      = items.drop start := by
  induction rest generalizing start with
  | nil =>
      obtain ⟨stop, member, beyond⟩ := reaches
      rw [List.mem_singleton.mp member] at beyond
      exact (List.drop_eq_nil_of_le beyond).symm
  | cons stop rest ih =>
      obtain ⟨less, later⟩ := List.pairwise_cons.mp ascending
      have forward : start ≤ stop := Nat.le_of_lt (less stop List.mem_cons_self)
      have rest : ∃ other ∈ stop :: rest, items.length ≤ other := by
        obtain ⟨other, member, beyond⟩ := reaches
        rcases List.mem_cons.mp member with rfl | inRest
        · exact ⟨stop, List.mem_cons_self, Nat.le_trans beyond forward⟩
        · exact ⟨other, inRest, beyond⟩
      have parts : items.drop start = slice items start stop ++ items.drop stop := by
        have behind : start + (stop - start) = stop := by omega
        have split := List.take_append_drop (stop - start) (items.drop start)
        rw [List.drop_drop, behind] at split
        exact split.symm
      rw [steps, List.flatMap_cons, ih later rest, parts]

end

end Kumf.Library
