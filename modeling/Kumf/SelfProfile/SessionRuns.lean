import Kumf.SelfProfile.Descriptors
import Kumf.SelfProfile.SampleBytes

/-! Sessions of the self-profiler over whole runs. When no thread is at work, no buffer is mapped,
the events that are open are those that could not be mapped, and the output has every sample that
came before the stop, once and in order.
-/

namespace Kumf.SelfProfile

open Kumf.Library

namespace Profiler

variable {cpus : Nat} {files : Files} {online : Int} {profiler after : Profiler}

-----------------------------------------------------------------------------------------
-- The thread and the program
-----------------------------------------------------------------------------------------

/-- The thread is there from a start until its stop returns, drains no earlier than the stop, and
has an open file.
-/
structure Control (cpus : Nat) (profiler : Profiler) : Prop where
  within : ∀ place, profiler.place = some place → place.Within cpus
  active
    : profiler.profilingActive = true
      → ∃ place, profiler.place = some place ∧ ¬ place.Stopped
  idle : profiler.profilingActive = false → profiler.joining = false → profiler.place = none
  file : ∀ place, profiler.place = some place → profiler.outputFile = true

/-- The thread does not touch what the program sets. -/
theorem ThreadStep.keeps (step : ThreadStep cpus profiler after)
    : after.profilingActive = profiler.profilingActive
      ∧ after.joining = profiler.joining
      ∧ after.outputFile = profiler.outputFile
      ∧ after.bases = profiler.bases
      ∧ after.atStop = profiler.atStop := by
  cases step <;> exact ⟨rfl, rfl, rfl, rfl, rfl⟩

/-- Where a step of the thread leads. -/
theorem ThreadStep.goes (step : ThreadStep cpus profiler after)
    : after.place = profiler.place
      ∨ ∃ place next,
        profiler.place = some place
        ∧ after.place = some next
        ∧ (place.Within cpus → next.Within cpus)
        ∧ (next.Stopped → place.Stopped ∨ profiler.profilingActive = false) := by
  cases step with
  | rests => exact .inl rfl
  | moves here moves => exact .inr ⟨_, _, here, rfl, moves.within, moves.stopped⟩
  | opened here asks => exact .inr ⟨_, _, here, rfl, asks.within, asks.stopped⟩
  | refused here asks => exact .inr ⟨_, _, here, rfl, asks.within, asks.stopped⟩
  | mapped here small => exact .inr ⟨_, _, here, rfl, fun _ => small, False.elim⟩
  | givesUp here small => exact .inr ⟨_, _, here, rfl, fun _ => small, False.elim⟩
  | enables here small => exact .inr ⟨_, _, here, rfl, fun _ => small, False.elim⟩
  | calls here loops => exact .inr ⟨_, _, here, rfl, fun _ => loops.within, loops.stopped⟩
  | turns => exact .inl rfl
  | closes here small => exact .inr ⟨_, _, here, rfl, fun _ => small, fun _ => .inl trivial⟩

/-- A step of the thread keeps control. -/
theorem Control.thread (control : profiler.Control cpus) (step : ThreadStep cpus profiler after)
    : after.Control cpus := by
  obtain ⟨active, joining, file, -, -⟩ := step.keeps
  rcases step.goes with same | ⟨place, next, here, there, within, stopped⟩
  · constructor
    · rw [same]
      exact control.within
    · rw [same, active]
      exact control.active
    · rw [same, active, joining]
      exact control.idle
    · rw [same, file]
      exact control.file
  · constructor
    · intro _ now
      rw [there] at now
      cases now
      exact within (control.within place here)
    · rw [active]
      intro running
      obtain ⟨_, now, polls⟩ := control.active running
      rw [here] at now
      cases now
      refine ⟨next, there, fun drains => ?_⟩
      rcases stopped drains with before | inactive
      · exact polls before
      · rw [running] at inactive
        cases inactive
    · rw [active, joining]
      intro inactive free
      rw [control.idle inactive free] at here
      cases here
    · rw [file]
      exact fun _ _ => control.file place here

/-- So does every action. -/
theorem Control.step (control : profiler.Control (nCpus online)) {action : Action}
    (allowed : profiler.Allows action)
    : (profiler.step files online action).Control (nCpus online) := by
  cases action with
  | start opens bases =>
      simp only [Profiler.step, speProfileStart]
      split
      case isTrue => exact control
      case isFalse inactive =>
          have nobody := control.idle (eq_false_of_ne_true inactive) allowed
          split
          case isTrue =>
              refine ⟨?_, fun _ => ⟨_, rfl, id⟩, by simp, fun _ _ => rfl⟩
              intro _ now
              cases now
              exact Nat.zero_le _
          case isFalse =>
              refine ⟨control.within, control.active, control.idle, fun place now => ?_⟩
              rw [nobody] at now
              cases now
  | stop =>
      simp only [Profiler.step, speProfileStop]
      split
      case isTrue => exact ⟨control.within, by simp, by simp, control.file⟩
      case isFalse => exact control
  | joined =>
      simp only [Profiler.step, joinReturns]
      split
      case isTrue both =>
          have inactive : profiler.profilingActive = false := by
            by_contra running
            obtain ⟨_, now, polls⟩ := control.active (eq_true_of_ne_false running)
            rw [both.2] at now
            cases now
            exact polls trivial
          exact ⟨by simp, by simp [inactive], fun _ _ => rfl, by simp⟩
      case isFalse => exact control
  | thread answer => exact control.thread (profileThread_step allowed)
  | append cpu record => exact ⟨control.within, control.active, control.idle, control.file⟩

-----------------------------------------------------------------------------------------
-- The buffers
-----------------------------------------------------------------------------------------

/-- A buffer is mapped from its `mmap` until the thread cleans up behind it. -/
structure Mapping (cpus : Nat) (profiler : Profiler) : Prop where
  decided
    : ∀ cpu,
        profiler.mmapHeaders cpu = true
        → cpu < cpus
          ∧ (profiler.perfFds cpu).isSome = true
          ∧ ∀ place, profiler.place = some place → place.Decided cpus cpu
  buffers
    : ∀ cpu,
        profiler.buffers cpu = true
        ↔ profiler.mmapHeaders cpu = true
          ∧ ∃ place, profiler.place = some place ∧ ¬ place.Unmapped cpu

/-- The thread moves on with the buffers as they are. -/
theorem Mapping.go (mapping : profiler.Mapping cpus) {place next : Place}
    (here : profiler.place = some place)
    (decided : ∀ i, place.Decided cpus i → next.Decided cpus i)
    (unmapped : ∀ i, i < cpus → (profiler.perfFds i).isSome = true
      → (next.Unmapped i ↔ place.Unmapped i))
    : (profiler.go next).Mapping cpus := by
  constructor
  · intro i has
    obtain ⟨small, isOpen, known⟩ := mapping.decided i has
    refine ⟨small, isOpen, fun _ now => ?_⟩
    cases now
    exact decided i (known place here)
  · intro i
    refine (mapping.buffers i).trans (and_congr_right fun has => ?_)
    obtain ⟨small, isOpen, -⟩ := mapping.decided i has
    constructor
    · rintro ⟨_, now, still⟩
      rw [here] at now
      cases now
      exact ⟨next, rfl, fun gone => still ((unmapped i small isOpen).mp gone)⟩
    · rintro ⟨_, now, still⟩
      cases now
      exact ⟨place, here, fun gone => still ((unmapped i small isOpen).mpr gone)⟩

/-- Before the first `mmap` of a session there is nothing to keep. -/
theorem Mapping.none_of_undecided (mapping : profiler.Mapping cpus) {place : Place}
    (here : profiler.place = some place) (undecided : ∀ i, ¬ place.Decided cpus i) (i : Nat)
    : profiler.mmapHeaders i = false ∧ profiler.buffers i = false := by
  have noHeader : profiler.mmapHeaders i = false := by
    by_contra has
    obtain ⟨-, -, known⟩ := mapping.decided i (eq_true_of_ne_false has)
    exact undecided i (known place here)
  refine ⟨noHeader, ?_⟩
  by_contra mapped
  obtain ⟨has, -⟩ := (mapping.buffers i).mp (eq_true_of_ne_false mapped)
  rw [noHeader] at has
  cases has

/-- Where nothing is mapped yet, nothing is mapped wrongly. -/
theorem mapping_of_none (noHeader : ∀ cpu, profiler.mmapHeaders cpu = false)
    (nothing : ∀ cpu, profiler.buffers cpu = false)
    : profiler.Mapping cpus := by
  constructor
  · intro cpu has
    rw [noHeader cpu] at has
    cases has
  · intro cpu
    simp [noHeader cpu, nothing cpu]

/-- A buffer is mapped. -/
theorem Mapping.mapped (mapping : profiler.Mapping cpus) {cpu fd answer : Nat}
    (here : profiler.place = some (.mapping cpu)) (small : cpu < cpus)
    (has : profiler.perfFds cpu = some fd)
    : ((profiler.map cpu fd (some answer)).go (.mapping (cpu + 1))).Mapping cpus := by
  constructor
  · intro i header
    by_cases same : i = cpu
    · subst same
      refine ⟨small, Option.isSome_iff_exists.mpr ⟨fd, has⟩, fun _ now => ?_⟩
      cases now
      exact Nat.lt_succ_self i
    · have before : profiler.mmapHeaders i = true :=
        (Function.update_of_ne same ..).symm.trans header
      obtain ⟨fits, isOpen, known⟩ := mapping.decided i before
      refine ⟨fits, isOpen, fun _ now => ?_⟩
      cases now
      exact Nat.lt_succ_of_lt (known _ here)
  · intro i
    simp only [Profiler.go, Profiler.map]
    by_cases same : i = cpu
    · subst same
      simp [Place.Unmapped]
    · rw [Function.update_of_ne same, Function.update_of_ne same, mapping.buffers i, here]
      simp [Place.Unmapped]

/-- A descriptor is given up whose buffer could not be mapped. -/
theorem Mapping.giveUp (mapping : profiler.Mapping cpus) {cpu fd : Nat}
    (here : profiler.place = some (.mapping cpu))
    : ((profiler.map cpu fd none).go (.mapping (cpu + 1))).Mapping cpus := by
  constructor
  · intro i header
    obtain ⟨fits, isOpen, known⟩ := mapping.decided i header
    have before : i < cpu := known _ here
    refine ⟨fits, ?_, fun _ now => ?_⟩
    · rw [go_perfFds, map_none_perfFds, Function.update_of_ne (Nat.ne_of_lt before)]
      exact isOpen
    · cases now
      exact Nat.lt_succ_of_lt before
  · intro i
    refine (mapping.buffers i).trans (and_congr_right fun _ => ?_)
    simp [here, Profiler.go, Place.Unmapped]

/-- A buffer is unmapped. -/
theorem Mapping.close (mapping : profiler.Mapping cpus) {cpu fd : Nat}
    (here : profiler.place = some (.cleaning cpu))
    : ((profiler.close cpu fd).go (.cleaning (cpu + 1))).Mapping cpus := by
  constructor
  · intro i header
    obtain ⟨fits, isOpen, known⟩ := mapping.decided i header
    refine ⟨fits, isOpen, fun _ now => ?_⟩
    cases now
    exact fits
  · intro i
    have before := mapping.buffers i
    simp only [here, Option.some.injEq, exists_eq_left', Place.Unmapped] at before
    simp only [Profiler.go, Profiler.close, Option.some.injEq, exists_eq_left', Place.Unmapped]
    by_cases same : i = cpu
    · subst same
      by_cases header : profiler.mmapHeaders i = true
      · simp [header]
      · simp [header, before]
    · have others : (if profiler.mmapHeaders cpu = true
          then Function.update profiler.buffers cpu false else profiler.buffers) i
          = profiler.buffers i := by
        split
        · exact Function.update_of_ne same ..
        · rfl
      rw [others, before]
      exact and_congr_right fun _ => by omega

/-- A step of the thread keeps the mappings in order. -/
theorem Mapping.thread (mapping : profiler.Mapping cpus)
    (within : ∀ place, profiler.place = some place → place.Within cpus)
    (step : ThreadStep cpus profiler after)
    : after.Mapping cpus := by
  cases step with
  | rests => exact mapping
  | moves here moves =>
      exact mapping.go here (fun _ => moves.decided (within _ here)) (fun _ => moves.unmapped)
  | opened here asks =>
      have none := mapping.none_of_undecided here asks.undecided
      exact mapping_of_none (fun cpu => (none cpu).1) (fun cpu => (none cpu).2)
  | refused here asks =>
      have none := mapping.none_of_undecided here asks.undecided
      exact mapping_of_none (fun cpu => (none cpu).1) (fun cpu => (none cpu).2)
  | mapped here small has => exact mapping.mapped here small has
  | givesUp here => exact mapping.giveUp here
  | @enables cpu fd here =>
      have enabled : (profiler.enable fd).Mapping cpus := ⟨mapping.decided, mapping.buffers⟩
      exact enabled.go here (fun _ => id) (fun _ _ _ => Iff.rfl)
  | @calls place next cpu here loops =>
      have called : (profiler.tick (.enter cpu)).Mapping cpus :=
        ⟨mapping.decided, mapping.buffers⟩
      exact called.go here (fun _ => loops.decided.mpr) (fun _ _ _ => loops.unmapped)
  | turns => exact ⟨mapping.decided, mapping.buffers⟩
  | closes here => exact mapping.close here

/-- So does every action. -/
theorem Mapping.step (mapping : profiler.Mapping (nCpus online))
    (control : profiler.Control (nCpus online)) {action : Action}
    (allowed : profiler.Allows action)
    : (profiler.step files online action).Mapping (nCpus online) := by
  cases action with
  | start opens bases =>
      simp only [Profiler.step, speProfileStart]
      split
      case isTrue => exact mapping
      case isFalse inactive =>
          have nobody := control.idle (eq_false_of_ne_true inactive) allowed
          split
          case isTrue =>
              refine mapping_of_none (fun _ => rfl) (fun cpu => ?_)
              by_contra mapped
              obtain ⟨-, place, now, -⟩ := (mapping.buffers cpu).mp (eq_true_of_ne_false mapped)
              rw [nobody] at now
              cases now
          case isFalse => exact ⟨mapping.decided, mapping.buffers⟩
  | stop =>
      simp only [Profiler.step, speProfileStop]
      split
      case isTrue => exact ⟨mapping.decided, mapping.buffers⟩
      case isFalse => exact mapping
  | joined =>
      simp only [Profiler.step, joinReturns]
      split
      case isTrue both =>
          constructor
          · intro cpu header
            obtain ⟨small, isOpen, -⟩ := mapping.decided cpu header
            exact ⟨small, isOpen, by simp⟩
          · intro cpu
            have before := mapping.buffers cpu
            simp only [both.2, Option.some.injEq, exists_eq_left', Place.Unmapped] at before
            simpa using before
      case isFalse => exact mapping
  | thread answer => exact mapping.thread control.within (profileThread_step allowed)
  | append cpu record => exact ⟨mapping.decided, mapping.buffers⟩

-----------------------------------------------------------------------------------------
-- The samples
-----------------------------------------------------------------------------------------

/-- The events on the buffers are a run of theirs, in which `parse_spe_buffer` is called by the
loops of the thread only; and what the final drain is through with has been seen up to the stop.
-/
structure Draining (profiler : Profiler) : Prop where
  ring : profiler.ring = run profiler.bases profiler.past
  allowed : Along World.step World.Allows (.start profiler.bases) profiler.past
  calls
    : profiler.ring.walk.isSome = true
      → ∃ place, profiler.place = some place ∧ place.Calls
  filled : ∀ cpu, appended cpu profiler.past ≠ [] → profiler.mmapHeaders cpu = true
  stopped : profiler.profilingActive = false → profiler.atStop <+: profiler.past
  drained
    : ∀ cpu,
        profiler.profilingActive = false
        → (∀ place, profiler.place = some place → place.Drained cpu)
        → appended cpu profiler.atStop <+: seen cpu profiler.past

section
variable {place next : Place}

/-- An event on the buffers. The thread may move with it. -/
theorem Draining.tick (draining : profiler.Draining) (event : Event)
    (allowed : profiler.ring.Allows event)
    (ring : after.ring = profiler.ring.step event)
    (past : after.past = profiler.past ++ [event])
    (bases : after.bases = profiler.bases) (headers : after.mmapHeaders = profiler.mmapHeaders)
    (active : after.profilingActive = profiler.profilingActive)
    (atStop : after.atStop = profiler.atStop)
    (calls : after.ring.walk.isSome = true → ∃ place, after.place = some place ∧ place.Calls)
    (mapped : ∀ cpu record, event = .append cpu record → profiler.mmapHeaders cpu = true)
    (drained
      : ∀ cpu,
          profiler.profilingActive = false
          → (∀ place, after.place = some place → place.Drained cpu)
          → (∀ place, profiler.place = some place → place.Drained cpu) ∨ event = .enter cpu)
    : after.Draining := by
  constructor
  case ring => rw [ring, past, bases, draining.ring, run, run, List.foldl_append]; rfl
  case allowed =>
      rw [past, bases]
      refine (along_append World.step).mpr ⟨draining.allowed, ?_, trivial⟩
      rw [← run, ← draining.ring]
      exact allowed
  case calls => exact calls
  case filled =>
      intro cpu some
      rw [headers]
      rw [past, appended_concat] at some
      by_cases before : appended cpu profiler.past = []
      · rw [before, List.nil_append] at some
        cases event with
        | append other record =>
            by_cases same : other = cpu
            · exact mapped cpu record (congrArg (Event.append · record) same)
            · simp [Event.appends, same] at some
        | enter other => simp [Event.appends] at some
        | turn => simp [Event.appends] at some
      · exact draining.filled cpu before
  case stopped =>
      rw [active, atStop, past]
      exact fun inactive => (draining.stopped inactive).trans (List.prefix_append ..)
  case drained =>
      rw [active, atStop, past]
      intro cpu inactive through
      rcases drained cpu inactive through with before | rfl
      · exact (draining.drained cpu inactive before).trans (seen_prefix_concat ..)
      · rw [seen_concat_enter]
        obtain ⟨later, whole⟩ := draining.stopped inactive
        rw [← whole]
        exact appended_prefix ..

/-- The thread moves on, and nothing happens to the buffers. -/
theorem Draining.move (draining : profiler.Draining) (ring : after.ring = profiler.ring)
    (past : after.past = profiler.past) (bases : after.bases = profiler.bases)
    (active : after.profilingActive = profiler.profilingActive)
    (atStop : after.atStop = profiler.atStop)
    (headers : ∀ cpu, profiler.mmapHeaders cpu = true → after.mmapHeaders cpu = true)
    (calls : profiler.ring.walk.isSome = true
      → ∃ place, after.place = some place ∧ place.Calls)
    (drained
      : ∀ cpu,
          profiler.profilingActive = false
          → (∀ place, after.place = some place → place.Drained cpu)
          → (∀ place, profiler.place = some place → place.Drained cpu)
            ∨ profiler.mmapHeaders cpu = false)
    : after.Draining := by
  constructor
  case ring => rw [ring, past, bases, draining.ring]
  case allowed =>
      rw [past, bases]
      exact draining.allowed
  case calls =>
      rw [ring]
      exact calls
  case filled =>
      rw [past]
      exact fun cpu some => headers cpu (draining.filled cpu some)
  case stopped =>
      rw [active, atStop, past]
      exact draining.stopped
  case drained =>
      rw [active, atStop, past]
      intro cpu inactive through
      rcases drained cpu inactive through with before | noBuffer
      · exact draining.drained cpu inactive before
      · have empty : appended cpu profiler.past = [] := by
          by_contra some
          have header := draining.filled cpu some
          rw [noBuffer] at header
          cases header
        have grows : appended cpu profiler.atStop <+: appended cpu profiler.past := by
          obtain ⟨later, whole⟩ := draining.stopped inactive
          rw [← whole]
          exact appended_prefix ..
        rw [empty, List.prefix_nil] at grows
        rw [grows]
        exact List.nil_prefix

/-- The thread is not in `parse_spe_buffer` where it does not call it. -/
theorem Draining.idle (draining : profiler.Draining) (here : profiler.place = some place)
    (elsewhere : ¬ place.Calls)
    : profiler.ring.walk = none := by
  by_contra walking
  obtain ⟨_, now, calls⟩ := draining.calls (Option.isSome_iff_ne_none.mpr walking)
  rw [here] at now
  cases now
  exact elsewhere calls

/-- A step outside the loops over the buffers. -/
theorem Draining.quiet (draining : profiler.Draining) (here : profiler.place = some place)
    (there : after.place = some next) (ring : after.ring = profiler.ring)
    (past : after.past = profiler.past) (bases : after.bases = profiler.bases)
    (active : after.profilingActive = profiler.profilingActive)
    (atStop : after.atStop = profiler.atStop)
    (headers : ∀ cpu, profiler.mmapHeaders cpu = true → after.mmapHeaders cpu = true)
    (elsewhere : ¬ place.Calls) (drained : ∀ cpu, next.Drained cpu → place.Drained cpu)
    : after.Draining := by
  refine draining.move ring past bases active atStop headers (fun walking => ?_)
    (fun cpu _ through => .inl fun _ now => ?_)
  · rw [draining.idle here elsewhere] at walking
    cases walking
  · rw [here] at now
    cases now
    exact drained cpu (through next there)

/-- The thread moves on in its loops. -/
theorem Draining.moves (draining : profiler.Draining) (mapping : profiler.Mapping cpus)
    (here : profiler.place = some place) (within : place.Within cpus)
    (moves : Moves cpus profiler place next)
    : (profiler.go next).Draining := by
  refine draining.move rfl rfl rfl rfl rfl (fun _ => id) (fun walking => ?_)
    (fun cpu _ through => ?_)
  · obtain ⟨_, now, calls⟩ := draining.calls walking
    rw [here] at now
    cases now
    rw [moves.idle within calls] at walking
    cases walking
  · rcases moves.drained (through next rfl) with before | skips | outside
    · refine .inl fun _ now => ?_
      rw [here] at now
      cases now
      exact before
    · refine .inr ?_
      by_contra header
      obtain ⟨-, isOpen, -⟩ := mapping.decided cpu (eq_true_of_ne_false header)
      rcases skips with none | noHeader
      · rw [none] at isOpen
        cases isOpen
      · exact header noHeader
    · refine .inr ?_
      by_contra header
      obtain ⟨small, -, -⟩ := mapping.decided cpu (eq_true_of_ne_false header)
      exact Nat.not_lt.mpr outside small

/-- A step of the thread leaves no buffer it has not drained. -/
theorem Draining.thread (draining : profiler.Draining) (mapping : profiler.Mapping cpus)
    (within : ∀ place, profiler.place = some place → place.Within cpus)
    (step : ThreadStep cpus profiler after)
    : after.Draining := by
  cases step with
  | rests => exact draining
  | moves here moves => exact draining.moves mapping here (within _ here) moves
  | opened here asks =>
      exact draining.quiet here rfl rfl rfl rfl rfl rfl (fun _ => id) asks.quiet.1
        (fun cpu drained => absurd drained (asks.quiet.2 cpu))
  | refused here asks =>
      exact draining.quiet here rfl rfl rfl rfl rfl rfl (fun _ => id) asks.quiet.1
        (fun cpu drained => absurd drained (asks.quiet.2 cpu))
  | @mapped cpu fd answer here small has =>
      refine draining.quiet here rfl rfl rfl rfl rfl rfl (fun i header => ?_) id (fun _ => id)
      by_cases same : i = cpu
      · subst same
        exact Function.update_self ..
      · exact (Function.update_of_ne same ..).trans header
  | givesUp here =>
      exact draining.quiet here rfl rfl rfl rfl rfl rfl (fun _ => id) id (fun _ => id)
  | enables here =>
      exact draining.quiet here rfl rfl rfl rfl rfl rfl (fun _ => id) id (fun _ => id)
  | @calls place next cpu here loops =>
      obtain ⟨elsewhere, calls, drains⟩ := loops.calls
      have idle : profiler.ring.Allows (.enter cpu) :=
        Option.isNone_iff_eq_none.mpr (draining.idle here elsewhere)
      refine draining.tick (.enter cpu) idle rfl rfl rfl rfl rfl rfl
        (fun _ => ⟨next, rfl, calls⟩)
        (fun _ _ same => by cases same) (fun i _ through => ?_)
      rcases drains i (through next rfl) with before | rfl
      · refine .inl fun _ now => ?_
        rw [here] at now
        cases now
        exact before
      · exact .inr rfl
  | @turns place here calls =>
      exact draining.tick .turn trivial rfl rfl rfl rfl rfl rfl (fun _ => ⟨place, here, calls⟩)
        (fun _ _ same => by cases same) (fun _ _ through => .inl through)
  | closes here =>
      exact draining.quiet here rfl rfl rfl rfl rfl rfl (fun _ => id) id (fun _ => id)

end

/-- So does every action. -/
theorem Draining.step (draining : profiler.Draining) (control : profiler.Control (nCpus online))
    (mapping : profiler.Mapping (nCpus online)) {action : Action}
    (allowed : profiler.Allows action)
    : (profiler.step files online action).Draining := by
  cases action with
  | start opens bases =>
      simp only [Profiler.step, speProfileStart]
      split
      case isTrue => exact draining
      case isFalse =>
          split
          case isTrue =>
              constructor
              case ring => rfl
              case allowed => trivial
              case calls => simp [World.start]
              case filled => simp [appended]
              case stopped => simp
              case drained => simp
          case isFalse =>
              exact draining.move rfl rfl rfl rfl rfl (fun _ => id) draining.calls
                (fun _ _ through => .inl through)
  | stop =>
      simp only [Profiler.step, speProfileStop]
      split
      case isTrue running =>
          refine ⟨draining.ring, draining.allowed, draining.calls, draining.filled,
            fun _ => List.prefix_refl _, fun cpu _ through => ?_⟩
          obtain ⟨place, here, polls⟩ := control.active running
          exact absurd (through place here).stopped polls
      case isFalse => exact draining
  | joined =>
      simp only [Profiler.step, joinReturns]
      split
      case isTrue both =>
          refine draining.move rfl rfl rfl rfl rfl (fun _ => id) (fun walking => ?_)
            (fun cpu _ _ => .inl fun _ now => ?_)
          · rw [draining.idle both.2 id] at walking
            cases walking
          · rw [both.2] at now
            cases now
            trivial
      case isFalse => exact draining
  | thread answer => exact draining.thread mapping control.within (profileThread_step allowed)
  | append cpu record =>
      obtain ⟨mapped, takes⟩ := allowed
      refine draining.tick (.append cpu record) takes rfl rfl rfl rfl rfl rfl draining.calls
        (fun _ _ same => ?_)
        (fun _ _ through => .inl through)
      cases same
      exact ((mapping.buffers cpu).mp mapped).1

-----------------------------------------------------------------------------------------
-- Runs
-----------------------------------------------------------------------------------------

/-- What holds between any two actions. -/
structure Sound (cpus : Nat) (profiler : Profiler) : Prop where
  ledger : profiler.Ledger cpus
  control : profiler.Control cpus
  mapping : profiler.Mapping cpus
  draining : profiler.Draining

/-- A process that has just started is sound. -/
theorem sound_initial (files : Files) (cpus : Nat)
    : (initial files).Sound cpus where
  ledger :=
    { owned := by simp [Owns, initial]
      owner := by simp [initial]
      lost := by simp [initial] }
  control := ⟨by simp [initial], by simp [initial], fun _ _ => rfl, by simp [initial]⟩
  mapping := mapping_of_none (fun _ => rfl) (fun _ => rfl)
  draining :=
    { ring := rfl
      allowed := trivial
      calls := by simp [initial, World.start]
      filled := by simp [initial, appended]
      stopped := fun _ => List.prefix_refl _
      drained := fun _ _ _ => List.nil_prefix }

/-- Nobody has a descriptor without a place in the thread. -/
theorem Ledger.nobody (ledger : profiler.Ledger cpus) (none : profiler.place = none)
    (place : ∀ now, after.place = some now → ∀ i, ¬ now.Holds cpus i)
    (events : after.events = profiler.events) (lost : after.lost = profiler.lost)
    : after.Ledger cpus := by
  refine ledger.move (fun cpu fd => ⟨?_, ?_⟩) (.inr ?_) events lost
  · rintro ⟨now, there, holds, -⟩
    exact absurd holds (place now there cpu)
  · rintro ⟨now, there, -, -⟩
    rw [none] at there
    cases there
  · rintro cpu fd ⟨now, there, -, -⟩
    rw [none] at there
    cases there

/-- Every action keeps the ledger of descriptors. -/
theorem Ledger.act (ledger : profiler.Ledger (nCpus online))
    (control : profiler.Control (nCpus online)) {action : Action}
    (allowed : profiler.Allows action)
    : (profiler.step files online action).Ledger (nCpus online) := by
  cases action with
  | start opens bases =>
      simp only [Profiler.step, speProfileStart]
      split
      case isTrue => exact ledger
      case isFalse inactive =>
          have nobody := control.idle (eq_false_of_ne_true inactive) allowed
          split
          case isTrue =>
              refine ledger.nobody nobody (fun _ now i => ?_) rfl rfl
              cases now
              exact Nat.not_lt_zero i
          case isFalse => exact ledger.move (fun _ _ => Iff.rfl) (.inl rfl) rfl rfl
  | stop =>
      simp only [Profiler.step, speProfileStop]
      split
      case isTrue => exact ledger.move (fun _ _ => Iff.rfl) (.inl rfl) rfl rfl
      case isFalse => exact ledger
  | joined =>
      simp only [Profiler.step, joinReturns]
      split
      case isTrue both =>
          refine ledger.move (fun cpu fd => ⟨?_, ?_⟩) (.inl rfl) rfl rfl
          · rintro ⟨_, there, -, -⟩
            cases there
          · rintro ⟨_, there, holds, -⟩
            rw [both.2] at there
            cases there
            exact holds.elim
      case isFalse => exact ledger
  | thread answer => exact ledger.step control.within (profileThread_step allowed)
  | append cpu record => exact ledger.move (fun _ _ => Iff.rfl) (.inl rfl) rfl rfl

/-- Every action keeps all of the invariant. -/
theorem Sound.step (sound : profiler.Sound (nCpus online)) {action : Action}
    (allowed : profiler.Allows action)
    : (profiler.step files online action).Sound (nCpus online) where
  ledger := sound.ledger.act sound.control allowed
  control := sound.control.step allowed
  mapping := sound.mapping.step sound.control allowed
  draining := sound.draining.step sound.control sound.mapping allowed

/-- No thread is at work. -/
def Quiescent (profiler : Profiler) : Prop :=
  profiler.place = none ∨ profiler.place = some .returned

section
variable (quiescent : profiler.Quiescent)
include quiescent

/-- The thread may still be there, but it has returned. -/
theorem Quiescent.eq_returned {place : Place} (here : profiler.place = some place)
    : place = .returned := by
  rcases quiescent with none | returned
  · rw [none] at here
    cases here
  · exact Option.some.inj (here.symm.trans returned)

/-- Who is neither started nor stopping is not active. -/
theorem Control.inactive (control : profiler.Control cpus)
    : profiler.profilingActive = false := by
  by_contra running
  obtain ⟨place, here, polls⟩ := control.active (eq_true_of_ne_false running)
  cases quiescent.eq_returned here
  exact polls trivial

/-- With no thread under way, the descriptors left open are those the calls lost. -/
theorem Ledger.open_iff (ledger : profiler.Ledger cpus) (fd : Nat)
    : (profiler.events fd).isSome = true ↔ fd ∈ profiler.lost := by
  refine ⟨fun isOpen => ?_, ledger.lost fd⟩
  obtain ⟨event, found⟩ := Option.isSome_iff_exists.mp isOpen
  rcases ledger.owner fd event found with lost | ⟨place, here, holds, -⟩
  · exact lost
  · cases quiescent.eq_returned here
    exact holds.elim

/-- With no thread under way, no buffer is mapped. -/
theorem Mapping.unmapped (mapping : profiler.Mapping cpus) (cpu : Nat)
    : profiler.buffers cpu = false := by
  by_contra mapped
  obtain ⟨-, place, here, still⟩ := (mapping.buffers cpu).mp (eq_true_of_ne_false mapped)
  cases quiescent.eq_returned here
  exact still trivial

/-- The lines of a CPU are its samples, up to the stop at least. -/
theorem Draining.written (draining : profiler.Draining) (control : profiler.Control cpus)
    (cpu : Nat)
    : ∃ records,
        profiler.ring.linesOf cpu = samples cpu records
        ∧ appended cpu profiler.atStop <+: records
        ∧ records <+: appended cpu profiler.past := by
  have idle : profiler.ring.walk = none := by
    by_contra walking
    obtain ⟨place, here, calls⟩ := draining.calls (Option.isSome_iff_ne_none.mpr walking)
    cases quiescent.eq_returned here
    exact calls
  refine ⟨seen cpu profiler.past, ?_, ?_, seen_prefix_appended cpu profiler.past⟩
  · rw [draining.ring] at idle ⊢
    exact linesOf_run draining.allowed idle cpu
  · apply draining.drained cpu (control.inactive quiescent)
    intro place here
    cases quiescent.eq_returned here
    trivial

end

/-- In every run of starts, stops, steps of the thread and appends of perf: the file is open
whenever the thread is there, and an open event is one that the thread still has for its CPU, or
one that it has given up for want of a buffer. When no thread is at work only the given up ones
are open, no buffer is mapped, and the output has the samples of each CPU in order and once, with
all those from before the stop.
-/
theorem run_sessions (files : Files) (online : Int) (actions : List Action)
    (run : Along (step files online) Allows (initial files) actions)
    : let last := actions.foldl (step files online) (initial files)
      (last.place.isSome = true → last.outputFile = true)
      ∧ (∀ fd event,
        last.events fd = some event → fd ∈ last.lost ∨ last.Owns (nCpus online) event.cpu fd)
      ∧ (last.Quiescent
        → (∀ fd, (last.events fd).isSome = true ↔ fd ∈ last.lost)
          ∧ ∀ cpu,
            last.buffers cpu = false
            ∧ ∃ records,
              last.ring.linesOf cpu = samples cpu records
              ∧ appended cpu last.atStop <+: records
              ∧ records <+: appended cpu last.past) := by
  have sound : (actions.foldl (step files online) (initial files)).Sound (nCpus online) :=
    run.invariant (step files online) (fun _ _ before allowed => before.step allowed)
      (sound_initial files (nCpus online))
  refine ⟨fun there => ?_, sound.ledger.owner,
    fun quiescent => ⟨?_, fun cpu => ⟨?_, ?_⟩⟩⟩
  · obtain ⟨place, here⟩ := Option.isSome_iff_exists.mp there
    exact sound.control.file place here
  · exact sound.ledger.open_iff quiescent
  · exact sound.mapping.unmapped quiescent cpu
  · exact sound.draining.written quiescent sound.control cpu

/-- A session on two CPUs, where the buffer of the second one cannot be mapped. A sample comes
before the stop, and one after it.
-/
def secondUnmapped : List Action :=
  [.start true (fun _ _ => 0), .thread (some 3), .thread (some 4), .thread none, .thread (some 9)]
    ++ List.replicate 5 (.thread none)
    ++ [.append 0 sampleRecord, .thread none, .stop, .thread none, .thread none, .thread none,
      .append 0 sampleRecord]
    ++ List.replicate 13 (.thread none)
    ++ [.joined]

/-- The descriptor of the second CPU stays open, and both samples are written. -/
theorem secondUnmapped_sessions
    : let last := secondUnmapped.foldl (step sysfsFiles 2) (initial sysfsFiles)
      last.place = none
      ∧ (∀ fd, (last.events fd).isSome = true ↔ fd = 4)
      ∧ last.ring.linesOf 0 = [(0, 56), (0, 56)]
      ∧ ∀ cpu,
        last.buffers cpu = false
        ∧ ∃ records,
          last.ring.linesOf cpu = samples cpu records
          ∧ appended cpu last.atStop <+: records
          ∧ records <+: appended cpu last.past := by
  have run : Along (step sysfsFiles 2) Allows (initial sysfsFiles) secondUnmapped := by
    decide +kernel
  have none : (secondUnmapped.foldl (step sysfsFiles 2) (initial sysfsFiles)).place = none := by
    decide +kernel
  have lost : (secondUnmapped.foldl (step sysfsFiles 2) (initial sysfsFiles)).lost = [4] := by
    decide +kernel
  obtain ⟨-, -, done⟩ := run_sessions sysfsFiles 2 secondUnmapped run
  obtain ⟨isOpen, written⟩ := done (.inl none)
  refine ⟨none, fun fd => ?_, by decide +kernel, written⟩
  rw [isOpen fd, lost, List.mem_singleton]

end Profiler

end Kumf.SelfProfile
