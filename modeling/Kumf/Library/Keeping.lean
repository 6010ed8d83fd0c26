import Mathlib.Data.List.Basic

/-! Code with a state and exceptions: what it keeps of the state, whether it returns or raises,
and what holds when it returns.
-/

namespace Kumf.Library

variable {ε σ π α β : Type}

/-- The state behind a run. -/
def stateLeft : EStateM.Result ε σ α → σ
  | .ok _ left => left
  | .error _ left => left

/-- Every run of the code leaves the part as it was. -/
def Keeps (part : σ → π) (code : EStateM ε σ α) : Prop :=
  ∀ state, part (stateLeft (code.run state)) = part state

variable {part : σ → π}

theorem keeps_pure (value : α) : Keeps part (pure value : EStateM ε σ α) := fun _ => rfl

theorem keeps_throw (raised : ε) : Keeps part (throw raised : EStateM ε σ α) := fun _ => rfl

/-- A change that leaves the part alone. -/
theorem keeps_modify {change : σ → σ} (kept : ∀ state, part (change state) = part state)
    : Keeps part (modify change : EStateM ε σ PUnit) :=
  kept

theorem keeps_get : Keeps part (get : EStateM ε σ σ) := fun _ => rfl

/-- One code behind another. -/
theorem Keeps.bind {code : EStateM ε σ α} {rest : α → EStateM ε σ β}
    (first : Keeps part code)
    (later : ∀ value, Keeps part (rest value))
    : Keeps part (code >>= rest) := by
  intro state
  have kept := first state
  rw [EStateM.run_bind]
  cases ran : code.run state with
  | ok value left =>
      rw [ran] at kept
      exact (later value left).trans kept
  | error raised left =>
      rw [ran] at kept
      exact kept

/-- What is raised is handled in the state that the raising code left. -/
theorem run_tryCatch (code : EStateM ε σ α) (handler : ε → EStateM ε σ α) (state : σ)
    : (tryCatch code handler).run state
      = match code.run state with
        | .ok value left => .ok value left
        | .error raised left => (handler raised).run left := by
  change EStateM.tryCatch code handler state = _
  unfold EStateM.tryCatch
  cases ran : code.run state with
  | ok value left => rw [show code state = .ok value left from ran]
  | error raised left =>
      rw [show code state = .error raised left from ran]
      rfl

/-- A code with its handler. -/
theorem Keeps.tryCatch {code : EStateM ε σ α} {handler : ε → EStateM ε σ α}
    (first : Keeps part code) (caught : ∀ raised, Keeps part (handler raised))
    : Keeps part (tryCatch code handler) := by
  intro state
  have kept := first state
  rw [run_tryCatch]
  cases ran : code.run state with
  | ok value left =>
      rw [ran] at kept
      exact kept
  | error raised left =>
      rw [ran] at kept
      exact (caught raised left).trans kept

/-- A loop keeps what each turn keeps, by induction on the items. -/
theorem keeps_forM {code : α → EStateM ε σ PUnit} (each : ∀ item, Keeps part (code item))
    (items : List α)
    : Keeps part (items.forM code) := by
  induction items with
  | nil => exact keeps_pure _
  | cons item items ih => exact (each item).bind fun _ => ih

/-- A code for each item of a list. -/
theorem keeps_mapM {code : α → EStateM ε σ β} (each : ∀ item, Keeps part (code item))
    (items : List α)
    : Keeps part (items.mapM code) := by
  induction items with
  | nil => exact keeps_pure _
  | cons item items ih =>
      rw [List.mapM_cons]
      exact (each item).bind fun _ => ih.bind fun _ => keeps_pure _

-----------------------------------------------------------------------------------------
-- What holds when code returns
-----------------------------------------------------------------------------------------

/-- Where the code returns from a state with `before`, `after` holds of what it leaves. -/
def Returns (before : σ → Prop) (code : EStateM ε σ α) (after : α → σ → Prop) : Prop :=
  ∀ state value left, before state → code.run state = .ok value left → after value left

variable {before : σ → Prop} {after : α → σ → Prop}

theorem returns_pure (value : α) (holds : ∀ state, before state → after value state)
    : Returns before (pure value : EStateM ε σ α) after := by
  rintro state _ _ here ⟨⟩
  exact holds state here

theorem returns_throw (raised : ε) : Returns before (throw raised : EStateM ε σ α) after := by
  rintro state value left _ ⟨⟩

/-- A change that leads to what shall hold. -/
theorem returns_modify {change : σ → σ} {after : PUnit → σ → Prop}
    (holds : ∀ state, before state → after ⟨⟩ (change state))
    : Returns before (modify change : EStateM ε σ PUnit) after := by
  rintro state _ _ here ⟨⟩
  exact holds state here

theorem returns_get : Returns before (get : EStateM ε σ σ) (fun seen left =>
    before left ∧ seen = left) := by
  rintro state _ _ here ⟨⟩
  exact ⟨here, rfl⟩

/-- What holds behind the first code is assumed of the second. -/
theorem Returns.bind {code : EStateM ε σ α} {rest : α → EStateM ε σ β}
    {final : β → σ → Prop}
    (first : Returns before code after)
    (later : ∀ value, Returns (after value) (rest value) final)
    : Returns before (code >>= rest) final := by
  intro state value left here run
  rw [EStateM.run_bind] at run
  cases ran : code.run state with
  | ok between middle =>
      rw [ran] at run
      exact later between middle value left (first state between middle here ran) run
  | error raised middle =>
      rw [ran] at run
      cases run

/-- Code in front that only has to return. -/
theorem Returns.behind {code : EStateM ε σ α} {rest : α → EStateM ε σ β}
    {final : β → σ → Prop}
    (later : ∀ value, Returns (fun _ => True) (rest value) final)
    : Returns before (code >>= rest) final :=
  Returns.bind (fun _ _ _ _ _ => trivial) later

/-- What holds of a part that is kept. -/
theorem Keeps.returns {code : EStateM ε σ α} (keeps : Keeps part code) (holds : π → Prop)
    : Returns (fun state => holds (part state)) code (fun _ left => holds (part left)) := by
  intro state value left here run
  have kept := keeps state
  rw [run] at kept
  rw [show part left = part state from kept]
  exact here

end Kumf.Library
