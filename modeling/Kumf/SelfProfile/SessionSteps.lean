import Kumf.SelfProfile.Sessions

/-! The steps of the profiling thread: where it can stand in `profile_thread_fn`, what it has there,
and how it goes on.
-/

namespace Kumf.SelfProfile

open Kumf.Library

-----------------------------------------------------------------------------------------
-- Places of the thread
-----------------------------------------------------------------------------------------

namespace Place

/-- The index of a loop stays within the CPUs. -/
def Within (cpus : Nat) : Place → Prop
  | opening cpu => cpu ≤ cpus
  | fallingBack => 0 < cpus
  | reopening cpu => cpu ≤ cpus
  | mapping cpu => cpu ≤ cpus
  | enabling cpu => cpu ≤ cpus
  | checking => True
  | polling cpu called => cpu ≤ cpus ∧ (called = true → cpu < cpus)
  | draining cpu called => cpu ≤ cpus ∧ (called = true → cpu < cpus)
  | cleaning cpu => cpu ≤ cpus
  | returned => True

/-- The CPUs whose entry of `perf_fds` is one of this session and still open. -/
def Holds (cpus : Nat) : Place → Nat → Prop
  | opening cpu, i => i < cpu
  | fallingBack, _ => False
  | reopening cpu, i => i < cpu
  | cleaning cpu, i => cpu ≤ i ∧ i < cpus
  | returned, _ => False
  | _, i => i < cpus

/-- The CPUs whose entry of `mmap_headers` has been decided. -/
def Decided (cpus : Nat) : Place → Nat → Prop
  | opening _, _ => False
  | fallingBack, _ => False
  | reopening _, _ => False
  | mapping cpu, i => i < cpu
  | _, i => i < cpus

/-- The CPUs whose buffer would be unmapped by now. -/
def Unmapped : Place → Nat → Prop
  | cleaning cpu, i => i < cpu
  | returned, _ => True
  | _, _ => False

/-- Inside `parse_spe_buffer`. -/
def Calls : Place → Prop
  | polling _ called => called = true
  | draining _ called => called = true
  | _ => False

/-- The CPUs for which the final drain has called `parse_spe_buffer`, if they have a buffer. -/
def Drained : Place → Nat → Prop
  | draining cpu called, i => i < cpu ∨ (called = true ∧ i = cpu)
  | cleaning _, _ => True
  | returned, _ => True
  | _, _ => False

/-- Behind the loop that polls. -/
def Stopped : Place → Prop
  | draining _ _ => True
  | cleaning _ => True
  | returned => True
  | _ => False

/-- Buffers are drained once the sampling has stopped. -/
theorem Drained.stopped {place : Place} {i : Nat} (drained : place.Drained i)
    : place.Stopped := by
  cases place with
  | draining => trivial
  | cleaning => trivial
  | returned => trivial
  | _ => exact drained.elim

end Place

namespace Profiler

-----------------------------------------------------------------------------------------
-- The steps of the thread
-----------------------------------------------------------------------------------------

/-- The thread moves on without a call. -/
inductive Moves (cpus : Nat) (profiler : Profiler) : Place → Place → Prop
  | openingEnds {cpu : Nat} (ends : cpus ≤ cpu) : Moves cpus profiler (.opening cpu) (.mapping 0)
  | reopeningEnds {cpu : Nat} (ends : cpus ≤ cpu)
    : Moves cpus profiler (.reopening cpu) (.mapping 0)
  | mappingSkips {cpu : Nat} (small : cpu < cpus) (none : profiler.perfFds cpu = none)
    : Moves cpus profiler (.mapping cpu) (.mapping (cpu + 1))
  | mappingEnds {cpu : Nat} (ends : cpus ≤ cpu)
    : Moves cpus profiler (.mapping cpu) (.enabling 0)
  | enablingSkips {cpu : Nat} (small : cpu < cpus)
    : Moves cpus profiler (.enabling cpu) (.enabling (cpu + 1))
  | enablingEnds {cpu : Nat} : Moves cpus profiler (.enabling cpu) .checking
  | polls (active : profiler.profilingActive = true)
    : Moves cpus profiler .checking (.polling 0 false)
  | drains (stopped : profiler.profilingActive = false)
    : Moves cpus profiler .checking (.draining 0 false)
  | pollingPasses {cpu : Nat} {called : Bool} (small : cpu < cpus)
    (done : called = true → profiler.ring.walk = none)
    : Moves cpus profiler (.polling cpu called) (.polling (cpu + 1) false)
  | pollingEnds {cpu : Nat} {called : Bool} (ends : cpus ≤ cpu)
    : Moves cpus profiler (.polling cpu called) .checking
  | drainingPasses {cpu : Nat} {called : Bool} (small : cpu < cpus)
    (done : called = true → profiler.ring.walk = none)
    (skips : called = false → profiler.Skips cpu)
    : Moves cpus profiler (.draining cpu called) (.draining (cpu + 1) false)
  | drainingEnds {cpu : Nat} {called : Bool} (ends : cpus ≤ cpu)
    : Moves cpus profiler (.draining cpu called) (.cleaning 0)
  | cleaningSkips {cpu : Nat} (small : cpu < cpus) (none : profiler.perfFds cpu = none)
    : Moves cpus profiler (.cleaning cpu) (.cleaning (cpu + 1))
  | cleaningEnds {cpu : Nat} (ends : cpus ≤ cpu)
    : Moves cpus profiler (.cleaning cpu) .returned

/-- A call of `perf_event_open` for a CPU, and where the thread goes on. -/
inductive Asks (cpus : Nat) : Place → Nat → Place → Prop
  | first {cpu : Nat} (small : cpu < cpus) : Asks cpus (.opening cpu) cpu (.opening (cpu + 1))
  | falls (small : 0 < cpus) : Asks cpus (.opening 0) 0 .fallingBack
  | again (next : Place) (fits : next = .opening 1 ∨ next = .reopening 1)
    : Asks cpus .fallingBack 0 next
  | others {cpu : Nat} (small : cpu < cpus)
    : Asks cpus (.reopening cpu) cpu (.reopening (cpu + 1))

/-- A loop over the buffers. -/
inductive Loops (cpus : Nat) : Place → Nat → Place → Prop
  | polling {cpu : Nat} (small : cpu < cpus)
    : Loops cpus (.polling cpu false) cpu (.polling cpu true)
  | draining {cpu : Nat} (small : cpu < cpus)
    : Loops cpus (.draining cpu false) cpu (.draining cpu true)

/-- All that a step of the thread can do. -/
inductive ThreadStep (cpus : Nat) (profiler : Profiler) : Profiler → Prop
  | rests : ThreadStep cpus profiler profiler
  | moves {place next : Place} (here : profiler.place = some place)
    (moves : Moves cpus profiler place next)
    : ThreadStep cpus profiler (profiler.go next)
  | opened {place next : Place} {cpu fd : Nat} (here : profiler.place = some place)
    (asks : Asks cpus place cpu next) (stays : next ≠ .fallingBack)
    (closed : profiler.events fd = none)
    : ThreadStep cpus profiler ((profiler.opened cpu fd).go next)
  | refused {place next : Place} {cpu : Nat} {attr : PerfAttr} (here : profiler.place = some place)
    (asks : Asks cpus place cpu next)
    (same : attr = profiler.attr ∨ (place = .opening 0 ∧ attr = profiler.attr.fallback))
    : ThreadStep cpus profiler { (profiler.unset cpu).go next with attr }
  | mapped {cpu fd answer : Nat} (here : profiler.place = some (.mapping cpu))
    (small : cpu < cpus) (has : profiler.perfFds cpu = some fd)
    : ThreadStep cpus profiler ((profiler.map cpu fd (some answer)).go (.mapping (cpu + 1)))
  | givesUp {cpu fd : Nat} (here : profiler.place = some (.mapping cpu))
    (small : cpu < cpus) (has : profiler.perfFds cpu = some fd)
    : ThreadStep cpus profiler ((profiler.map cpu fd none).go (.mapping (cpu + 1)))
  | enables {cpu fd : Nat} (here : profiler.place = some (.enabling cpu)) (small : cpu < cpus)
    (has : profiler.perfFds cpu = some fd)
    : ThreadStep cpus profiler ((profiler.enable fd).go (.enabling (cpu + 1)))
  | calls {place next : Place} {cpu : Nat} (here : profiler.place = some place)
    (loops : Loops cpus place cpu next)
    : ThreadStep cpus profiler ((profiler.tick (.enter cpu)).go next)
  | turns {place : Place} (here : profiler.place = some place) (calls : place.Calls)
    : ThreadStep cpus profiler (profiler.tick .turn)
  | closes {cpu fd : Nat} (here : profiler.place = some (.cleaning cpu)) (small : cpu < cpus)
    (has : profiler.perfFds cpu = some fd)
    : ThreadStep cpus profiler ((profiler.close cpu fd).go (.cleaning (cpu + 1)))

section
variable {cpus : Nat} {profiler : Profiler} {place next : Place}

/-- The indices stay within the CPUs. -/
theorem Moves.within (moves : Moves cpus profiler place next) (within : place.Within cpus)
    : next.Within cpus := by
  cases moves with
  | mappingSkips small => exact small
  | enablingSkips small => exact small
  | cleaningSkips small => exact small
  | polls => exact ⟨Nat.zero_le _, by simp⟩
  | drains => exact ⟨Nat.zero_le _, by simp⟩
  | pollingPasses small => exact ⟨small, by simp⟩
  | drainingPasses small => exact ⟨small, by simp⟩
  | enablingEnds => trivial
  | pollingEnds => trivial
  | cleaningEnds => trivial
  | _ => exact Nat.zero_le _

/-- A thread that still asks is at a CPU in range. -/
theorem Asks.within {cpu : Nat} (asks : Asks cpus place cpu next) (within : place.Within cpus)
    : next.Within cpus := by
  cases asks with
  | first small => exact small
  | falls small => exact small
  | again next fits =>
      rcases fits with rfl | rfl
      · exact within
      · exact within
  | others small => exact small

/-- So is one at the head of a loop. -/
theorem Loops.within {cpu : Nat} (loops : Loops cpus place cpu next)
    : next.Within cpus := by
  cases loops with
  | polling small => exact ⟨Nat.le_of_lt small, fun _ => small⟩
  | draining small => exact ⟨Nat.le_of_lt small, fun _ => small⟩

/-- The thread is past the sampling if it was, or now that `active` is off. -/
theorem Asks.stopped {cpu : Nat} (asks : Asks cpus place cpu next) {active : Bool}
    (stopped : next.Stopped)
    : place.Stopped ∨ active = false := by
  cases asks with
  | again next fits => rcases fits with rfl | rfl <;> exact stopped.elim
  | _ => exact stopped.elim

/-- The same of the head of a loop. -/
theorem Loops.stopped {cpu : Nat} (loops : Loops cpus place cpu next) {active : Bool}
    (stopped : next.Stopped)
    : place.Stopped ∨ active = false := by
  cases loops with
  | polling => exact stopped.elim
  | draining => exact .inl trivial

/-- The thread begins to drain when the profiler is no longer active. -/
theorem Moves.stopped (moves : Moves cpus profiler place next) (stopped : next.Stopped)
    : place.Stopped ∨ profiler.profilingActive = false := by
  cases moves with
  | drains inactive => exact .inr inactive
  | drainingPasses => exact .inl trivial
  | drainingEnds => exact .inl trivial
  | cleaningSkips => exact .inl trivial
  | cleaningEnds => exact .inl trivial
  | _ => exact stopped.elim

/-- What the thread has does not change when it moves on. -/
theorem Moves.holds (moves : Moves cpus profiler place next) (within : place.Within cpus)
    {i fd : Nat} (has : profiler.perfFds i = some fd)
    : next.Holds cpus i ↔ place.Holds cpus i := by
  cases moves with
  | openingEnds ends =>
      rw [Nat.le_antisymm within ends]
      exact Iff.rfl
  | reopeningEnds ends =>
      rw [Nat.le_antisymm within ends]
      exact Iff.rfl
  | drainingEnds ends => exact ⟨fun holds => holds.2, fun small => ⟨Nat.zero_le i, small⟩⟩
  | @cleaningSkips cpu small none =>
      have other : i ≠ cpu := by
        rintro rfl
        rw [none] at has
        cases has
      simp only [Place.Holds]
      omega
  | cleaningEnds ends =>
      exact ⟨False.elim,
        fun ⟨behind, small⟩ => absurd (ends.trans behind) (Nat.not_le.mpr small)⟩
  | _ => exact Iff.rfl

/-- A descriptor that is asked for is one more. -/
theorem Asks.holds {cpu : Nat} (asks : Asks cpus place cpu next) (stays : next ≠ .fallingBack)
    (i : Nat)
    : next.Holds cpus i ↔ place.Holds cpus i ∨ i = cpu := by
  cases asks with
  | first small => exact Nat.lt_succ_iff_lt_or_eq
  | falls small => exact absurd rfl stays
  | again next fits =>
      rcases fits with rfl | rfl
      all_goals
        simp [Place.Holds]
  | others small => exact Nat.lt_succ_iff_lt_or_eq

/-- A CPU asked for holds nothing yet. -/
theorem Asks.outside {cpu : Nat} (asks : Asks cpus place cpu next)
    : ¬ place.Holds cpus cpu := by
  cases asks with
  | first small => exact Nat.lt_irrefl _
  | falls small => exact Nat.lt_irrefl _
  | again next fits => exact id
  | others small => exact Nat.lt_irrefl _

/-- A descriptor that is refused leaves the others of the thread as they are. -/
theorem Asks.keeps {cpu : Nat} (asks : Asks cpus place cpu next) {i : Nat}
    (holds : place.Holds cpus i)
    : next.Holds cpus i ∧ i ≠ cpu := by
  cases asks with
  | first small => exact ⟨Nat.lt_succ_of_lt holds, Nat.ne_of_lt holds⟩
  | falls small => exact absurd holds (Nat.not_lt_zero i)
  | again next fits => exact holds.elim
  | others small => exact ⟨Nat.lt_succ_of_lt holds, Nat.ne_of_lt holds⟩

/-- Which buffers there are is decided step by step. -/
theorem Moves.decided (moves : Moves cpus profiler place next) (within : place.Within cpus)
    {i : Nat}
    (decided : place.Decided cpus i)
    : next.Decided cpus i := by
  cases moves with
  | openingEnds => exact decided.elim
  | reopeningEnds => exact decided.elim
  | mappingSkips => exact Nat.lt_succ_of_lt decided
  | mappingEnds => exact Nat.lt_of_lt_of_le decided within
  | _ => exact decided

/-- As long as a thread asks for descriptors, no mapping is decided. -/
theorem Asks.undecided {cpu : Nat} (asks : Asks cpus place cpu next) (i : Nat)
    : ¬ place.Decided cpus i := by
  cases asks <;> exact id

/-- At the head of a loop, the same mappings are decided. -/
theorem Loops.decided {cpu : Nat} (loops : Loops cpus place cpu next) {i : Nat}
    : next.Decided cpus i ↔ place.Decided cpus i := by
  cases loops <;> exact Iff.rfl

/-- A buffer is unmapped with the descriptor of its CPU. -/
theorem Moves.unmapped (moves : Moves cpus profiler place next) {i : Nat} (small : i < cpus)
    (has : (profiler.perfFds i).isSome = true)
    : next.Unmapped i ↔ place.Unmapped i := by
  cases moves with
  | drainingEnds => exact ⟨fun less => absurd less (Nat.not_lt_zero i), False.elim⟩
  | @cleaningSkips cpu _ none =>
      have other : i ≠ cpu := by
        rintro rfl
        rw [none] at has
        cases has
      simp only [Place.Unmapped]
      omega
  | cleaningEnds ends =>
      exact ⟨fun _ => Nat.lt_of_lt_of_le small ends, fun _ => trivial⟩
  | _ => exact Iff.rfl

/-- At the head of a loop, the same buffers are unmapped. -/
theorem Loops.unmapped {cpu : Nat} (loops : Loops cpus place cpu next) {i : Nat}
    : next.Unmapped i ↔ place.Unmapped i := by
  cases loops <;> exact Iff.rfl

/-- The thread leaves `parse_spe_buffer` when it has returned. -/
theorem Moves.idle (moves : Moves cpus profiler place next) (within : place.Within cpus)
    (calls : place.Calls)
    : profiler.ring.walk = none := by
  cases moves with
  | pollingPasses small done => exact done calls
  | pollingEnds ends => exact absurd (within.2 calls) (Nat.not_lt.mpr ends)
  | drainingPasses small done => exact done calls
  | drainingEnds ends => exact absurd (within.2 calls) (Nat.not_lt.mpr ends)
  | _ => exact calls.elim

/-- A CPU that the drain is through with has been drained, or has no buffer. -/
theorem Moves.drained (moves : Moves cpus profiler place next) {i : Nat}
    (drained : next.Drained i)
    : place.Drained i ∨ profiler.Skips i ∨ cpus ≤ i := by
  cases moves with
  | drains => exact absurd drained (by simp [Place.Drained])
  | @drainingPasses cpu called small done skips =>
      have behind : i < cpu + 1 := by simpa [Place.Drained] using drained
      rcases Nat.lt_succ_iff_lt_or_eq.mp behind with before | rfl
      · exact .inl (.inl before)
      · cases called with
        | true => exact .inl (.inr ⟨rfl, rfl⟩)
        | false => exact .inr (.inl (skips rfl))
  | @drainingEnds cpu called ends =>
      by_cases before : i < cpu
      · exact .inl (.inl before)
      · exact .inr (.inr (ends.trans (Nat.le_of_not_lt before)))
  | cleaningSkips => exact .inl trivial
  | cleaningEnds => exact .inl trivial
  | _ => exact drained.elim

/-- Outside the loops over the buffers nothing is called and nothing is drained. -/
theorem Asks.quiet {cpu : Nat} (asks : Asks cpus place cpu next)
    : ¬ place.Calls ∧ ∀ i, ¬ next.Drained i := by
  cases asks with
  | again next fits => rcases fits with rfl | rfl <;> exact ⟨id, fun _ => id⟩
  | _ => exact ⟨id, fun _ => id⟩

/-- A call for a CPU is made outside of one, and drains that CPU at most. -/
theorem Loops.calls {cpu : Nat} (loops : Loops cpus place cpu next)
    : ¬ place.Calls ∧ next.Calls ∧ ∀ i, next.Drained i → place.Drained i ∨ i = cpu := by
  cases loops with
  | polling => exact ⟨by simp [Place.Calls], rfl, fun _ => False.elim⟩
  | draining =>
      refine ⟨by simp [Place.Calls], rfl, fun i drained => ?_⟩
      exact drained.imp .inl And.right

end

section
variable {online : Int} {profiler : Profiler} {answer : Option Nat} {place next : Place} {cpu : Nat}

/-- A call of `perf_event_open` gives a descriptor or fails. -/
theorem ask_step (closed : ∀ fd ∈ answer, profiler.events fd = none)
    (here : profiler.place = some place) (asks : Asks (nCpus online) place cpu next)
    (stays : next ≠ .fallingBack)
    : ThreadStep (nCpus online) profiler ((profiler.ask cpu answer).go next) := by
  cases answer with
  | none => exact .refused here asks (.inl rfl)
  | some fd => exact .opened here asks stays (closed fd rfl)

/-- What an open does. -/
theorem opening_step (closed : ∀ fd ∈ answer, profiler.events fd = none)
    (here : profiler.place = some (.opening cpu))
    : ThreadStep (nCpus online) profiler (profiler.profileThread online answer) := by
  simp only [profileThread, here]
  split
  case isFalse ends => exact .moves here (.openingEnds (Nat.le_of_not_lt ends))
  case isTrue small =>
      split
      case isTrue both =>
          obtain ⟨-, rfl⟩ := both
          exact .refused here (.falls small) (.inr ⟨rfl, rfl⟩)
      case isFalse => exact ask_step closed here (.first small) (by simp)

/-- What a mapping does. -/
theorem mapping_step (here : profiler.place = some (.mapping cpu))
    : ThreadStep (nCpus online) profiler (profiler.profileThread online answer) := by
  simp only [profileThread, here]
  split
  case isFalse ends => exact .moves here (.mappingEnds (Nat.le_of_not_lt ends))
  case isTrue small =>
      cases has : profiler.perfFds cpu with
      | none => exact .moves here (.mappingSkips small has)
      | some fd =>
          cases answer with
          | none => exact .givesUp here small has
          | some mapped => exact .mapped here small has

/-- The body of a loop over the buffers calls `parse_spe_buffer`, takes a turn of it, or passes on
to the next CPU.
-/
theorem visit_step {cpus : Nat} {loop : Nat → Bool → Place} {called : Bool}
    (here : profiler.place = some (loop cpu called))
    (calls : (loop cpu true).Calls)
    (passes : (called = true → profiler.ring.walk = none)
      → (called = false → profiler.Skips cpu)
      → Moves cpus profiler (loop cpu called) (loop (cpu + 1) false))
    (loops : Loops cpus (loop cpu false) cpu (loop cpu true))
    : ThreadStep cpus profiler (profiler.visit loop cpu called) := by
  cases called with
  | true =>
      simp only [visit, if_true]
      split
      case isTrue => exact .turns here calls
      case isFalse idle =>
          exact .moves here (passes (fun _ => by simpa using idle) (fun called => by cases called))
  | false =>
      simp only [visit, Bool.false_eq_true, if_false]
      split
      case isTrue skips =>
          exact .moves here (passes (fun called => by cases called) (fun _ => skips))
      case isFalse => exact .calls here loops

/-- Every step of the thread is one of them. -/
theorem profileThread_step (closed : ∀ fd ∈ answer, profiler.events fd = none)
    : ThreadStep (nCpus online) profiler (profiler.profileThread online answer) := by
  cases here : profiler.place with
  | none =>
      simp only [profileThread, here]
      exact .rests
  | some place =>
      cases place with
      | opening cpu => exact opening_step closed here
      | fallingBack =>
          simp only [profileThread, here]
          split
          · exact ask_step closed here (.again _ (.inl rfl)) (by simp)
          · exact ask_step closed here (.again _ (.inr rfl)) (by simp)
      | reopening cpu =>
          simp only [profileThread, here]
          split
          case isFalse ends => exact .moves here (.reopeningEnds (Nat.le_of_not_lt ends))
          case isTrue small => exact ask_step closed here (.others small) (by simp)
      | mapping cpu => exact mapping_step here
      | enabling cpu =>
          simp only [profileThread, here]
          split
          case isFalse => exact .moves here .enablingEnds
          case isTrue small =>
              cases has : profiler.perfFds cpu with
              | none => exact .moves here (.enablingSkips small)
              | some fd => exact .enables here small has
      | checking =>
          simp only [profileThread, here]
          cases active : profiler.profilingActive with
          | true => exact .moves here (.polls active)
          | false => exact .moves here (.drains active)
      | polling cpu called =>
          simp only [profileThread, here]
          split
          case isFalse ends => exact .moves here (.pollingEnds (Nat.le_of_not_lt ends))
          case isTrue small =>
              exact visit_step here rfl (fun done _ => .pollingPasses small done) (.polling small)
      | draining cpu called =>
          simp only [profileThread, here]
          split
          case isFalse ends => exact .moves here (.drainingEnds (Nat.le_of_not_lt ends))
          case isTrue small =>
              exact visit_step here rfl (.drainingPasses small) (.draining small)
      | cleaning cpu =>
          simp only [profileThread, here]
          split
          case isFalse ends => exact .moves here (.cleaningEnds (Nat.le_of_not_lt ends))
          case isTrue small =>
              cases has : profiler.perfFds cpu with
              | none => exact .moves here (.cleaningSkips small has)
              | some fd => exact .closes here small has
      | returned =>
          simp only [profileThread, here]
          exact .rests

end

end Profiler

end Kumf.SelfProfile
