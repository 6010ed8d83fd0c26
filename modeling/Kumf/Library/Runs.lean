import Mathlib.Data.List.Induction
import Mathlib.Logic.Basic

/-! Runs of a deterministic machine: conditions that hold along a run, invariants carried
over it, and the outputs it emits.
-/

namespace Kumf.Library

section
variable {σ ι : Type} (step : σ → ι → σ)

/-- Every input of a run meets the condition in the state that it finds. -/
def Along (holds : σ → ι → Prop) : σ → List ι → Prop
  | _, [] => True
  | state, input :: rest => holds state input ∧ Along holds (step state input) rest

instance Along.decidable (holds : σ → ι → Prop)
    [∀ state input, Decidable (holds state input)]
    : ∀ (state : σ) (inputs : List ι), Decidable (Along step holds state inputs)
  | _, [] => isTrue trivial
  | state, input :: rest =>
      have := Along.decidable holds (step state input) rest
      inferInstanceAs (Decidable (holds state input ∧ Along step holds (step state input) rest))

theorem along_append {holds : σ → ι → Prop} {state : σ} {front back : List ι}
    : Along step holds state (front ++ back)
      ↔ Along step holds state front
        ∧ Along step holds (front.foldl step state) back := by
  induction front generalizing state with
  | nil => simp [Along]
  | cons input front ih => simp [Along, ih, and_assoc]

/-- A property kept by every admitted step holds at the end of a run. -/
theorem Along.invariant {holds : σ → ι → Prop} {invariant : σ → Prop}
    (kept : ∀ state input, invariant state → holds state input → invariant (step state input))
    {state : σ} {inputs : List ι} (start : invariant state)
    (run : Along step holds state inputs)
    : invariant (inputs.foldl step state) := by
  induction inputs generalizing state with
  | nil => exact start
  | cons input rest ih => exact ih (kept state input start run.1) run.2

/-- A property of the inputs so far and of the state that they lead to, when every admitted step
keeps it.
-/
theorem Along.history {holds : σ → ι → Prop} {start : σ} {property : List ι → σ → Prop}
    (kept : ∀ past input, property past (past.foldl step start)
      → holds (past.foldl step start) input
      → property (past ++ [input]) (step (past.foldl step start) input))
    {inputs : List ι} (first : property [] start) (run : Along step holds start inputs)
    : property inputs (inputs.foldl step start) := by
  induction inputs using List.reverseRecOn with
  | nil => exact first
  | append_singleton past input ih =>
      obtain ⟨before, last⟩ := (along_append step).mp run
      rw [List.foldl_append]
      exact kept past input (ih before) last.1

theorem along_and {holds also : σ → ι → Prop} {state : σ} {inputs : List ι}
    : Along step (fun state input => holds state input ∧ also state input) state inputs
      ↔ Along step holds state inputs ∧ Along step also state inputs := by
  induction inputs generalizing state with
  | nil => simp [Along]
  | cons input rest ih => simp [Along, ih, and_and_and_comm]

/-- A condition on the inputs alone holds along a run when all inputs meet it. -/
theorem along_inputs {holds : ι → Prop} {state : σ} {inputs : List ι}
    : Along step (fun _ input => holds input) state inputs
      ↔ ∀ input ∈ inputs, holds input := by
  induction inputs generalizing state with
  | nil => simp [Along]
  | cons input rest ih => simp [Along, ih]

/-- A condition along a run may be weakened. -/
theorem Along.imp {holds implied : σ → ι → Prop}
    (gives : ∀ state input, holds state input → implied state input) {state : σ}
    {inputs : List ι} (run : Along step holds state inputs)
    : Along step implied state inputs := by
  induction inputs generalizing state with
  | nil => trivial
  | cons input rest ih => exact ⟨gives state input run.1, ih run.2⟩

/-- Under an invariant, a condition along a run gives another one along it. -/
theorem Along.imp_of_invariant {holds implied : σ → ι → Prop} {invariant : σ → Prop}
    (kept : ∀ state input, invariant state → holds state input → invariant (step state input))
    (gives : ∀ state input, invariant state → holds state input → implied state input)
    {state : σ} {inputs : List ι} (start : invariant state)
    (run : Along step holds state inputs)
    : Along step implied state inputs := by
  induction inputs generalizing state with
  | nil => trivial
  | cons input rest ih =>
      exact ⟨gives state input start run.1, ih (kept state input start run.1) run.2⟩

/-- Conditions that agree under an invariant hold along the same runs. -/
theorem along_congr {holds also : σ → ι → Prop} {invariant : σ → Prop}
    (kept : ∀ state input, invariant state → also state input → invariant (step state input))
    (same : ∀ state input, invariant state → (holds state input ↔ also state input))
    {state : σ} {inputs : List ι} (start : invariant state)
    : Along step holds state inputs ↔ Along step also state inputs := by
  constructor
  · refine Along.imp_of_invariant step (fun state input here now => ?_)
      (fun state input here => ?_)
      start
    · exact kept state input here ((same state input here).mp now)
    · exact (same state input here).mp
  · exact Along.imp_of_invariant step kept (fun state input here => (same state input here).mpr)
      start

end

section
variable {σ ι ω τ : Type} (step : σ → ι → σ) (emit : σ → ι → List ω)

/-- The outputs of a run, in order. -/
def outputs : σ → List ι → List ω
  | _, [] => []
  | state, input :: rest => emit state input ++ outputs (step state input) rest

variable (record : τ → ω → τ) (view : σ → τ)

/-- A machine whose view is kept up to date by its outputs: what holds of each step's
outputs, read from the view it finds, holds of all outputs of the run in sequence.
-/
theorem along_outputs {holds : τ → ω → Prop} {state : σ} {inputs : List ι}
    (follows : ∀ state input, view (step state input)
      = (emit state input).foldl record (view state))
    (run : Along step (fun state input => Along record holds (view state) (emit state input))
      state inputs)
    : Along record holds (view state) (outputs step emit state inputs) := by
  induction inputs generalizing state with
  | nil => trivial
  | cons input rest ih =>
      refine (along_append record).mpr ⟨run.1, ?_⟩
      rw [← follows]
      exact ih run.2

end

section
variable {σ ι ω τ : Type}

/-- A relation from state to state along some outputs. -/
def StepsTo (relates : τ → ω → τ → Prop) : τ → List ω → τ → Prop
  | state, [], last => last = state
  | state, output :: rest, last =>
      ∃ next, relates state output next ∧ StepsTo relates next rest last

/-- A machine follows a relation when each of its admitted steps does, under an invariant. -/
theorem Along.stepsTo {step : σ → ι → σ} {holds : σ → ι → Prop}
    {invariant : σ → Prop}
    {emit : σ → ι → ω} {view : σ → τ} {relates : τ → ω → τ → Prop}
    (kept : ∀ state input, invariant state → holds state input → invariant (step state input))
    (follows : ∀ state input, invariant state → holds state input →
      relates (view state) (emit state input) (view (step state input)))
    {state : σ} {inputs : List ι} (start : invariant state)
    (run : Along step holds state inputs)
    : StepsTo relates (view state) (outputs step (fun state input => [emit state input]) state
        inputs) (view (inputs.foldl step state)) := by
  induction inputs generalizing state with
  | nil => rfl
  | cons input rest ih =>
      exact ⟨_, follows state input start run.1, ih (kept state input start run.1) run.2⟩

end

end Kumf.Library
