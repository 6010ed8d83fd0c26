import Kumf.SelfProfile.SessionSteps

/-! Who owns which descriptor of `perf_event_open`. The thread closes those that it has, apart from
those whose buffer could not be mapped, which nobody closes.
-/

namespace Kumf.SelfProfile

open Kumf.Library

namespace Profiler

-----------------------------------------------------------------------------------------
-- Descriptors
-----------------------------------------------------------------------------------------

/-- The descriptors that the thread has for a CPU. -/
def Owns (cpus : Nat) (profiler : Profiler) (cpu fd : Nat) : Prop :=
  ∃ place, profiler.place = some place ∧ place.Holds cpus cpu ∧ profiler.perfFds cpu = some fd

/-- Every open descriptor is the thread's for the CPU of its event, or is one that could not be
mapped; and the events of a thread have one attribute.
-/
structure Ledger (cpus : Nat) (profiler : Profiler) : Prop where
  owned
    : ∀ cpu fd,
        profiler.Owns cpus cpu fd
        → fd ∉ profiler.lost
          ∧ ∃ event,
            profiler.events fd = some event ∧ event.cpu = cpu ∧ event.attr = profiler.attr
  owner
    : ∀ fd event,
        profiler.events fd = some event
        → fd ∈ profiler.lost ∨ profiler.Owns cpus event.cpu fd
  lost : ∀ fd ∈ profiler.lost, (profiler.events fd).isSome = true

section
variable {cpus : Nat} {profiler : Profiler}

/-- Nothing happens to the descriptors. -/
theorem Ledger.move (ledger : profiler.Ledger cpus) {after : Profiler}
    (owns : ∀ cpu fd, after.Owns cpus cpu fd ↔ profiler.Owns cpus cpu fd)
    (attr : after.attr = profiler.attr ∨ ∀ cpu fd, ¬ profiler.Owns cpus cpu fd)
    (events : after.events = profiler.events) (lost : after.lost = profiler.lost)
    : after.Ledger cpus := by
  constructor
  · intro cpu fd has
    have before := (owns cpu fd).mp has
    rw [events, lost]
    rcases attr with same | nothing
    · rw [same]
      exact ledger.owned cpu fd before
    · exact absurd before (nothing cpu fd)
  · intro fd event
    rw [events, lost, owns]
    exact ledger.owner fd event
  · rw [events, lost]
    exact ledger.lost

/-- A descriptor that is given belongs to nobody else. -/
theorem Ledger.notMem_of_closed (ledger : profiler.Ledger cpus) {fd : Nat}
    (closed : profiler.events fd = none)
    : fd ∉ profiler.lost ∧ ∀ cpu, ¬ profiler.Owns cpus cpu fd := by
  constructor
  · intro member
    have isOpen := ledger.lost fd member
    rw [closed] at isOpen
    cases isOpen
  · intro cpu has
    obtain ⟨-, event, isOpen, -⟩ := ledger.owned cpu fd has
    rw [closed] at isOpen
    cases isOpen

/-- Two CPUs do not share a descriptor. -/
theorem Ledger.owns_injective (ledger : profiler.Ledger cpus) {cpu other fd : Nat}
    (has : profiler.Owns cpus cpu fd) (also : profiler.Owns cpus other fd)
    : cpu = other := by
  obtain ⟨-, event, isOpen, itsCpu, -⟩ := ledger.owned cpu fd has
  obtain ⟨-, same, alsoOpen, otherCpu, -⟩ := ledger.owned other fd also
  rw [isOpen] at alsoOpen
  cases alsoOpen
  exact itsCpu.symm.trans otherCpu

/-- A new descriptor for a CPU that had none. -/
theorem Ledger.opened (ledger : profiler.Ledger cpus) {place next : Place} {cpu fd : Nat}
    (here : profiler.place = some place)
    (grows : ∀ i, next.Holds cpus i ↔ place.Holds cpus i ∨ i = cpu)
    (outside : ¬ place.Holds cpus cpu) (closed : profiler.events fd = none)
    : ((profiler.opened cpu fd).go next).Ledger cpus := by
  obtain ⟨unlost, unowned⟩ := ledger.notMem_of_closed closed
  have owns (i other : Nat)
      : ((profiler.opened cpu fd).go next).Owns cpus i other
        ↔ (i = cpu ∧ other = fd) ∨ profiler.Owns cpus i other := by
    constructor
    · intro ⟨_, same, holds, has⟩
      cases same
      by_cases its : i = cpu
      · rw [its, go_perfFds, opened_perfFds, Function.update_self] at has
        exact .inl ⟨its, (Option.some.inj has).symm⟩
      · rw [go_perfFds, opened_perfFds, Function.update_of_ne its] at has
        exact .inr ⟨place, here, ((grows i).mp holds).resolve_right its, has⟩
    · intro either
      rcases either with ⟨rfl, rfl⟩ | ⟨_, same, holds, has⟩
      · exact ⟨next, rfl, (grows i).mpr (.inr rfl), Function.update_self ..⟩
      · rw [here] at same
        cases same
        have other : i ≠ cpu := fun its => outside (its ▸ holds)
        exact ⟨next, rfl, (grows i).mpr (.inl holds),
          (Function.update_of_ne other ..).trans has⟩
  constructor
  · intro i other has
    rcases (owns i other).mp has with ⟨rfl, rfl⟩ | before
    · exact ⟨unlost, _, Function.update_self .., rfl, rfl⟩
    · have apart : other ≠ fd := fun same => unowned i (same ▸ before)
      obtain ⟨kept, event, isOpen, rest⟩ := ledger.owned i other before
      exact ⟨kept, event, (Function.update_of_ne apart ..).trans isOpen, rest⟩
  · intro other event isOpen
    by_cases same : other = fd
    · subst same
      rw [go_events, opened_events, Function.update_self] at isOpen
      cases isOpen
      exact .inr ((owns cpu other).mpr (.inl ⟨rfl, rfl⟩))
    · rw [go_events, opened_events, Function.update_of_ne same] at isOpen
      rcases ledger.owner other event isOpen with gone | has
      · exact .inl gone
      · exact .inr ((owns event.cpu other).mpr (.inr has))
  · intro other gone
    have apart : other ≠ fd := fun same => unlost (same ▸ gone)
    rw [go_events, opened_events, Function.update_of_ne apart]
    exact ledger.lost other gone

/-- The entry of a CPU without a descriptor of this session becomes negative. -/
theorem Ledger.unset (ledger : profiler.Ledger cpus) {place next : Place} {cpu : Nat}
    (here : profiler.place = some place)
    (grows : ∀ i, next.Holds cpus i → place.Holds cpus i ∨ i = cpu)
    (keeps : ∀ i, place.Holds cpus i → next.Holds cpus i ∧ i ≠ cpu)
    {attr : PerfAttr} (same : attr = profiler.attr ∨ ∀ i, ¬ place.Holds cpus i)
    : ({ (profiler.unset cpu).go next with attr } : Profiler).Ledger cpus := by
  apply ledger.move
  · intro i fd
    constructor
    · intro ⟨_, there, holds, has⟩
      cases there
      have kept : Function.update profiler.perfFds cpu none i = some fd := has
      by_cases its : i = cpu
      · rw [its, Function.update_self] at kept
        cases kept
      · rw [Function.update_of_ne its] at kept
        exact ⟨place, here, (grows i holds).resolve_right its, kept⟩
    · intro ⟨_, there, holds, has⟩
      rw [here] at there
      cases there
      obtain ⟨later, other⟩ := keeps i holds
      exact ⟨next, rfl, later, (Function.update_of_ne other ..).trans has⟩
  · apply same.imp_right
    intro nothing i fd ⟨_, there, holds, _⟩
    rw [here] at there
    cases there
    exact nothing i holds
  · rfl
  · rfl

/-- The thread moves on, and what it holds does not change. -/
theorem Ledger.go (ledger : profiler.Ledger cpus) {place next : Place}
    (here : profiler.place = some place)
    (same : ∀ i fd, profiler.perfFds i = some fd → (next.Holds cpus i ↔ place.Holds cpus i))
    : (profiler.go next).Ledger cpus := by
  apply ledger.move
  · intro i fd
    constructor
    · intro ⟨_, there, holds, has⟩
      cases there
      exact ⟨place, here, (same i fd has).mp holds, has⟩
    · intro ⟨_, there, holds, has⟩
      rw [here] at there
      cases there
      exact ⟨next, rfl, (same i fd has).mpr holds, has⟩
  · exact .inl rfl
  · rfl
  · rfl

/-- An event keeps its CPU and its attribute when it is enabled. -/
theorem Ledger.enable (ledger : profiler.Ledger cpus) (fd : Nat)
    : (profiler.enable fd).Ledger cpus := by
  have kept {other : Nat} {event : PerfEvent}
      (isOpen : (profiler.enable fd).events other = some event)
      : ∃ before, profiler.events other = some before
        ∧ before.cpu = event.cpu ∧ before.attr = event.attr := by
    by_cases same : other = fd
    · rw [same, enable_events, Function.update_self] at isOpen
      obtain ⟨before, was, rfl⟩ := Option.map_eq_some_iff.mp isOpen
      exact ⟨before, same ▸ was, rfl, rfl⟩
    · rw [enable_events, Function.update_of_ne same] at isOpen
      exact ⟨event, isOpen, rfl, rfl⟩
  have stays {other : Nat} (isOpen : (profiler.events other).isSome = true)
      : ((profiler.enable fd).events other).isSome = true := by
    by_cases same : other = fd
    · rw [same, enable_events, Function.update_self, Option.isSome_map]
      exact same ▸ isOpen
    · rw [enable_events, Function.update_of_ne same]
      exact isOpen
  constructor
  · intro cpu other has
    obtain ⟨unlost, event, was, its, attr⟩ := ledger.owned cpu other has
    obtain ⟨after, isOpen⟩ := Option.isSome_iff_exists.mp
      (stays (Option.isSome_iff_exists.mpr ⟨event, was⟩))
    obtain ⟨before, also, sameCpu, sameAttr⟩ := kept isOpen
    rw [was] at also
    cases also
    exact ⟨unlost, after, isOpen, sameCpu.symm.trans its, sameAttr.symm.trans attr⟩
  · intro other event isOpen
    obtain ⟨before, was, sameCpu, -⟩ := kept isOpen
    rw [← sameCpu]
    exact ledger.owner other before was
  · intro other gone
    exact stays (ledger.lost other gone)

/-- A descriptor that cannot be mapped is given up, and stays open. -/
theorem Ledger.giveUp (ledger : profiler.Ledger cpus) {place next : Place} {cpu fd : Nat}
    (here : profiler.place = some place) (same : ∀ i, next.Holds cpus i ↔ place.Holds cpus i)
    (holds : place.Holds cpus cpu) (has : profiler.perfFds cpu = some fd)
    : ((profiler.map cpu fd none).go next).Ledger cpus := by
  have its : profiler.Owns cpus cpu fd := ⟨place, here, holds, has⟩
  have owns (i other : Nat)
      : ((profiler.map cpu fd none).go next).Owns cpus i other
        ↔ profiler.Owns cpus i other ∧ i ≠ cpu := by
    constructor
    · intro ⟨_, there, later, kept⟩
      cases there
      have apart : i ≠ cpu := by
        intro equal
        rw [equal, go_perfFds, map_none_perfFds, Function.update_self] at kept
        cases kept
      rw [go_perfFds, map_none_perfFds, Function.update_of_ne apart] at kept
      exact ⟨⟨place, here, (same i).mp later, kept⟩, apart⟩
    · intro ⟨⟨_, there, before, kept⟩, apart⟩
      rw [here] at there
      cases there
      exact ⟨next, rfl, (same i).mpr before, (Function.update_of_ne apart ..).trans kept⟩
  constructor
  · intro i other after
    obtain ⟨before, apart⟩ := (owns i other).mp after
    obtain ⟨unlost, event, isOpen, rest⟩ := ledger.owned i other before
    refine ⟨fun gone => ?_, event, isOpen, rest⟩
    rcases List.mem_cons.mp gone with rfl | older
    · exact apart (ledger.owns_injective before its)
    · exact unlost older
  · intro other event isOpen
    rcases ledger.owner other event isOpen with gone | before
    · exact .inl (List.mem_cons_of_mem _ gone)
    · by_cases equal : event.cpu = cpu
      · obtain ⟨_, _, _, kept⟩ := before
        rw [equal, has] at kept
        cases kept
        exact .inl List.mem_cons_self
      · exact .inr ((owns event.cpu other).mpr ⟨before, equal⟩)
  · intro other gone
    rcases List.mem_cons.mp gone with rfl | older
    · obtain ⟨-, event, isOpen, -⟩ := ledger.owned cpu other its
      exact Option.isSome_iff_exists.mpr ⟨event, isOpen⟩
    · exact ledger.lost other older

/-- A descriptor is closed. -/
theorem Ledger.close (ledger : profiler.Ledger cpus) {place next : Place} {cpu fd : Nat}
    (here : profiler.place = some place)
    (shrinks : ∀ i, next.Holds cpus i ↔ place.Holds cpus i ∧ i ≠ cpu)
    (holds : place.Holds cpus cpu) (has : profiler.perfFds cpu = some fd)
    : ((profiler.close cpu fd).go next).Ledger cpus := by
  have its : profiler.Owns cpus cpu fd := ⟨place, here, holds, has⟩
  have owns (i other : Nat)
      : ((profiler.close cpu fd).go next).Owns cpus i other
        ↔ profiler.Owns cpus i other ∧ i ≠ cpu := by
    constructor
    · intro ⟨_, there, later, kept⟩
      cases there
      obtain ⟨before, apart⟩ := (shrinks i).mp later
      exact ⟨⟨place, here, before, kept⟩, apart⟩
    · intro ⟨⟨_, there, before, kept⟩, apart⟩
      rw [here] at there
      cases there
      exact ⟨next, rfl, (shrinks i).mpr ⟨before, apart⟩, kept⟩
  constructor
  · intro i other after
    obtain ⟨before, apart⟩ := (owns i other).mp after
    obtain ⟨unlost, event, isOpen, rest⟩ := ledger.owned i other before
    have different : other ≠ fd := fun equal =>
      apart (ledger.owns_injective before (equal ▸ its))
    exact ⟨unlost, event, (Function.update_of_ne different ..).trans isOpen, rest⟩
  · intro other event isOpen
    have different : other ≠ fd := by
      intro equal
      rw [equal, go_events, close_events, Function.update_self] at isOpen
      cases isOpen
    rw [go_events, close_events, Function.update_of_ne different] at isOpen
    rcases ledger.owner other event isOpen with gone | before
    · exact .inl gone
    · refine .inr ((owns event.cpu other).mpr ⟨before, fun equal => different ?_⟩)
      obtain ⟨_, _, _, kept⟩ := before
      rw [equal, has] at kept
      exact (Option.some.inj kept).symm
  · intro other gone
    have different : other ≠ fd := fun equal => (ledger.owned cpu fd its).1 (equal ▸ gone)
    rw [go_events, close_events, Function.update_of_ne different]
    exact ledger.lost other gone

/-- A step of the thread keeps the account of the descriptors. -/
theorem Ledger.step (ledger : profiler.Ledger cpus)
    (within : ∀ place, profiler.place = some place → place.Within cpus) {after : Profiler}
    (step : ThreadStep cpus profiler after)
    : after.Ledger cpus := by
  cases step with
  | rests => exact ledger
  | moves here moves =>
      exact ledger.go here fun i fd has => moves.holds (within _ here) has
  | opened here asks stays closed =>
      exact ledger.opened here (asks.holds stays) asks.outside closed
  | @refused place next cpu attr here asks same =>
      refine ledger.unset here (fun i holds => ?_) (fun i => asks.keeps) (same.imp_right ?_)
      · by_cases falls : next = .fallingBack
        · subst falls
          exact holds.elim
        · exact (asks.holds falls i).mp holds
      · rintro ⟨rfl, -⟩ i
        exact Nat.not_lt_zero i
  | @mapped cpu fd answer here small has =>
      have mapped : (profiler.map cpu fd (some answer)).Ledger cpus :=
        ledger.move (fun _ _ => Iff.rfl) (.inl rfl) rfl rfl
      exact mapped.go here fun _ _ _ => Iff.rfl
  | givesUp here small has => exact ledger.giveUp here (fun _ => Iff.rfl) small has
  | @enables cpu fd here small has =>
      exact (ledger.enable fd).go here fun _ _ _ => Iff.rfl
  | @calls place next cpu here loops =>
      have called : (profiler.tick (.enter cpu)).Ledger cpus :=
        ledger.move (fun _ _ => Iff.rfl) (.inl rfl) rfl rfl
      refine called.go here fun i fd _ => ?_
      cases loops <;> exact Iff.rfl
  | turns here calls => exact ledger.move (fun _ _ => Iff.rfl) (.inl rfl) rfl rfl
  | @closes cpu fd here small has =>
      refine ledger.close here (fun i => ?_) ⟨Nat.le_refl cpu, small⟩ has
      simp only [Place.Holds]
      omega

end

end Profiler

end Kumf.SelfProfile
