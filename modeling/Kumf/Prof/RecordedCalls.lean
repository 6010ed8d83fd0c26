import Kumf.Library.Runs
import Kumf.Prof.Hooks

/-! The calls behind the entries of the logs. As long as no buffer comes late, the i-th entry of
a log is what the i-th call that got an entry in it wrote.
-/

namespace Kumf.Prof

open Kumf.Library

-----------------------------------------------------------------------------------------
-- What a call does to a log
-----------------------------------------------------------------------------------------

namespace ThreadLog

/-- Whether a call gets an entry of the log. -/
def takes (log : ThreadLog) (call : Call) : Bool :=
  decide (log.index < arrSize) && (log.entries.or call.buffer).isSome

/-- The log after a call that asked for an entry. -/
def take (log : ThreadLog) (call : Call) : ThreadLog :=
  let entries := log.entries.or call.buffer
  if arrSize ≤ log.index then
    ⟨entries, log.index⟩
  else
    ⟨entries.map (fun entries =>
      Function.update entries log.index (call.fill (entries log.index))), log.index + 1⟩

/-- No earlier record was lost when the buffer comes. -/
def Prompt (log : ThreadLog) (call : Call) : Prop :=
  log.entries.isNone = true → call.buffer.isSome = true → log.index = 0

instance (log : ThreadLog) (call : Call) : Decidable (log.Prompt call) :=
  inferInstanceAs (Decidable (_ → _ → _))

end ThreadLog

/-- The log that a call asks for an entry. -/
def Globals.askedLog (globals : Globals) (call : Call) : Option Nat :=
  if globals.ending = .running ∧ globals.readyFor call.hook = true ∧ call.records = true then
    (globals.claimThread call.thread call.tid).map (fun claimed => claimed.tidIndex call.thread)
  else
    none

theorem claimThread_logs {globals claimed : Globals} {thread tid : Nat}
    (claims : globals.claimThread thread tid = some claimed)
    : claimed.logs = globals.logs := by
  unfold Globals.claimThread at claims
  split at claims
  case isTrue => rw [← Option.some.inj claims]
  case isFalse =>
      split at claims
      case isTrue => rw [← Option.some.inj claims]
      case isFalse => cases claims

theorem claimThread_ready (globals : Globals) (ready : Bool) (thread tid : Nat)
    : ({ globals with ready } : Globals).claimThread thread tid
      = (globals.claimThread thread tid).map (fun claimed => { claimed with ready }) := by
  unfold Globals.claimThread
  dsimp only
  split
  · rfl
  · split
    · rfl
    · rfl

/-- A hook that records changes the log of its thread and no other. -/
theorem record_logs (globals : Globals) (call : Call)
    : (globals.record call).logs
      = match globals.claimThread call.thread call.tid with
        | none => globals.logs
        | some claimed =>
            let i := claimed.tidIndex call.thread
            Function.update globals.logs i ((globals.logs i).take call) := by
  unfold Globals.record Globals.getLog
  cases claims : globals.claimThread call.thread call.tid with
  | none => rfl
  | some claimed =>
      have same := claimThread_logs claims
      dsimp only
      rw [ThreadLog.take, Globals.bufferFor, same]
      by_cases full : arrSize ≤ (globals.logs (claimed.tidIndex call.thread)).index
      · simp [full, Globals.setLog, same]
      · rw [if_neg full]
        cases entries : (globals.logs (claimed.tidIndex call.thread)).entries.or call.buffer with
        | none =>
            -- the offset from `NULL` is written to unless it is 0
            by_cases first : (globals.logs (claimed.tidIndex call.thread)).index = 0
            · simp [first, Globals.setLog, same, arrSize]
            · simp [full, first, Globals.setLog, same]
        | some buffer => simp [full, Globals.setLog, Globals.writeEntry, same]

theorem exec_logs (globals : Globals) (call : Call)
    : (globals.exec call).logs
      = match globals.askedLog call with
        | none => globals.logs
        | some i => Function.update globals.logs i ((globals.logs i).take call) := by
  unfold Globals.exec Globals.askedLog
  by_cases running : globals.ending = .running
  · cases ready : globals.readyFor call.hook with
    | false =>
        simp only [running]
        cases call.hook <;> rfl
    | true =>
        cases records : call.records with
        | false => simp [running]
        | true =>
            have recording := record_logs { globals with ready := true } call
            rw [claimThread_ready] at recording
            rw [if_neg (not_not.mpr running), if_pos rfl, if_pos rfl, recording,
              if_pos ⟨running, rfl, rfl⟩]
            cases globals.claimThread call.thread call.tid with
            | none => rfl
            | some claimed => rfl
  · simp [running]

-----------------------------------------------------------------------------------------
-- The calls of a run
-----------------------------------------------------------------------------------------

/-- What happens in a process: the constructor runs, or a hook is called. -/
inductive Event where
  | init
  | call (call : Call)

/-- The library, and for each log the calls that got an entry in it. -/
structure World where
  globals : Globals
  recorded : Nat → List Call

namespace World

def initial : World where
  globals := unloaded
  recorded := fun _ => []

/-- The log in which a call gets an entry. -/
def target (world : World) (call : Call) : Option Nat :=
  (world.globals.askedLog call).filter (fun i => (world.globals.logs i).takes call)

def step (world : World) : Event → World
  | .init => { world with globals := world.globals.mInit }
  | .call call =>
      { globals := world.globals.exec call
        recorded :=
          match world.target call with
          | some i => Function.update world.recorded i (world.recorded i ++ [call])
          | none => world.recorded }

/-- libc does not give a log buffer after it refused one. -/
def Prompt (world : World) : Event → Prop
  | .init => True
  | .call call => ∀ i ∈ world.globals.askedLog call, (world.globals.logs i).Prompt call

instance (world : World) : ∀ event, Decidable (world.Prompt event)
  | .init => inferInstanceAs (Decidable True)
  | .call call =>
      inferInstanceAs (Decidable (∀ i ∈ world.globals.askedLog call, _))

/-- The entries of each log with the calls that wrote them. -/
def written (world : World) : List (List (Call × LogEntry)) :=
  (List.range' 1 world.globals.tids.length).map
    (fun i => (world.recorded i).zip (world.globals.logs i).printed)

end World

-----------------------------------------------------------------------------------------
-- Every entry comes from its call
-----------------------------------------------------------------------------------------

namespace ThreadLog

/-- The entries of a log up to its index are those of the calls. -/
def Filled (log : ThreadLog) (calls : List Call) : Prop :=
  match log.entries with
  | none => calls = []
  | some entries =>
      log.index = calls.length
      ∧ ∀ i call, calls[i]? = some call → ∃ old, entries i = call.fill old

variable {log : ThreadLog} {calls : List Call} {call : Call}

theorem Filled.of_takes (filled : log.Filled calls) (prompt : log.Prompt call)
    (takes : log.takes call = true)
    : (log.take call).Filled (calls ++ [call]) := by
  obtain ⟨entries, index⟩ := log
  obtain ⟨room, present⟩ := Bool.and_eq_true_iff.mp takes
  obtain ⟨buffer, given⟩ := Option.isSome_iff_exists.mp present
  dsimp only at room given
  -- a buffer that is new finds the log empty
  have before : index = calls.length
      ∧ ∀ i earlier, calls[i]? = some earlier → ∃ old, buffer i = earlier.fill old := by
    cases entries with
    | some entries =>
        obtain rfl := Option.some.inj given
        exact filled
    | none =>
        obtain rfl : calls = [] := filled
        have empty : index = 0 := prompt rfl (Option.isSome_iff_exists.mpr ⟨buffer, given⟩)
        exact ⟨empty, by simp⟩
  obtain ⟨rfl, earlier⟩ := before
  rw [take, if_neg (by simpa using room)]
  dsimp only
  rw [given]
  refine ⟨by simp, fun i entryCall found => ?_⟩
  dsimp only
  rcases Nat.lt_trichotomy i calls.length with old | rfl | beyond
  · rw [List.getElem?_append_left old] at found
    rw [Function.update_of_ne (Nat.ne_of_lt old)]
    exact earlier i entryCall found
  · rw [List.getElem?_concat_length] at found
    rw [Function.update_self, Option.some.inj found]
    exact ⟨_, rfl⟩
  · rw [List.getElem?_eq_none (by simpa using Nat.succ_le_of_lt beyond)] at found
    cases found

/-- A call that gets no entry leaves the filled part as it is. -/
theorem Filled.of_not_takes (filled : log.Filled calls) (prompt : log.Prompt call)
    (takes : log.takes call = false)
    : (log.take call).Filled calls := by
  obtain ⟨entries, index⟩ := log
  rw [take]
  cases entries with
  | some entries =>
      have full : arrSize ≤ index := by simpa [ThreadLog.takes] using takes
      rw [if_pos full]
      exact filled
  | none =>
      obtain rfl : calls = [] := filled
      have refused : call.buffer = none := by
        by_contra given
        have present : call.buffer.isSome = true := Option.isSome_iff_ne_none.mpr given
        have empty : index = 0 := prompt rfl present
        simp [ThreadLog.takes, empty, present, arrSize] at takes
      dsimp only
      rw [refused]
      split
      · rfl
      · rfl

theorem Filled.length_printed (filled : log.Filled calls)
    : log.printed.length = calls.length := by
  obtain ⟨entries, index⟩ := log
  cases entries with
  | none =>
      obtain rfl : calls = [] := filled
      rfl
  | some entries => simpa [printed] using filled.1

/-- The calls write the entries that are printed. -/
theorem Filled.mem_zip (filled : log.Filled calls) {entry : LogEntry}
    (member : (call, entry) ∈ calls.zip log.printed)
    : ∃ old, entry = call.fill old := by
  obtain ⟨entries, index⟩ := log
  cases entries with
  | none => simp [printed] at member
  | some entries =>
      obtain ⟨i, found⟩ := List.mem_iff_getElem?.mp member
      obtain ⟨inCalls, inPrinted⟩ := List.getElem?_zip_eq_some.mp found
      rw [printed, List.getElem?_map] at inPrinted
      obtain ⟨j, inRange, rfl⟩ := Option.map_eq_some_iff.mp inPrinted
      obtain ⟨bound, value⟩ := List.getElem?_eq_some_iff.mp inRange
      rw [List.getElem_range] at value
      obtain rfl := value
      exact filled.2 i call inCalls

end ThreadLog

namespace World

/-- The logs of a world are filled. -/
def Filled (world : World) : Prop :=
  ∀ i, (world.globals.logs i).Filled (world.recorded i)

theorem initial_filled : initial.Filled := fun _ => rfl

/-- Changing a log and its calls together. -/
theorem Filled.update {world : World} (filled : world.Filled) (j : Nat) {log : ThreadLog}
    {calls : List Call} (changed : log.Filled calls) (i : Nat)
    : (Function.update world.globals.logs j log i).Filled
        (Function.update world.recorded j calls i) := by
  by_cases same : i = j
  · obtain rfl := same
    rw [Function.update_self, Function.update_self]
    exact changed
  · rw [Function.update_of_ne same, Function.update_of_ne same]
    exact filled i

theorem step_filled (world : World) (event : Event) (filled : world.Filled)
    (prompt : world.Prompt event)
    : (world.step event).Filled := by
  cases event with
  | init => exact filled
  | call call =>
      intro i
      have logs := exec_logs world.globals call
      rw [step, target]
      dsimp only
      rw [logs]
      cases asked : world.globals.askedLog call with
      | none => exact filled i
      | some j =>
          have promptLog := prompt j asked
          rw [Option.filter_some]
          cases takes : (world.globals.logs j).takes call with
          | true => exact filled.update j ((filled j).of_takes promptLog takes) i
          | false =>
              have stays := filled.update j ((filled j).of_not_takes promptLog takes) i
              rw [Function.update_eq_self] at stays
              exact stays

theorem run_filled {events : List Event} (run : Along step Prompt initial events)
    : (events.foldl step initial).Filled :=
  run.invariant step step_filled initial_filled

/-- What `prof_cleanup` writes are the entries of the calls. -/
theorem Filled.files {world : World} (filled : world.Filled)
    {files : List (Nat × List LogEntry)} (cleanup : profCleanup world.globals = some files)
    : files.map Prod.snd = world.written.map (List.map Prod.snd) := by
  have printed : world.written.map (List.map Prod.snd)
      = (List.range' 1 world.globals.tids.length).map
        (fun i => (world.globals.logs i).printed) := by
    rw [written, List.map_map]
    refine List.map_congr_left (fun i _ => ?_)
    exact List.map_snd_zip (Nat.le_of_eq (filled i).length_printed)
  unfold profCleanup at cleanup
  dsimp only at cleanup
  split at cleanup
  case isTrue => cases cleanup
  case isFalse =>
      rw [← Option.some.inj cleanup, printed, List.map_map, ← List.zipIdx_map_snd, List.map_map]
      rfl

/-- An entry of the files is what a recorded call wrote. -/
theorem Filled.mem_written {world : World} (filled : world.Filled) {call : Call}
    {entry : LogEntry} (member : (call, entry) ∈ world.written.flatten)
    : (∃ i, call ∈ world.recorded i) ∧ ∃ old, entry = call.fill old := by
  obtain ⟨log, inWritten, inLog⟩ := List.mem_flatten.mp member
  obtain ⟨i, -, rfl⟩ := List.mem_map.mp inWritten
  exact ⟨⟨i, (List.of_mem_zip inLog).1⟩, (filled i).mem_zip inLog⟩

/-- A step records no other call than its own, and that one only in its target. -/
theorem mem_recorded_step {world : World} {event : Event} {i : Nat} {call : Call}
    (member : call ∈ (world.step event).recorded i)
    : call ∈ world.recorded i ∨ event = .call call ∧ world.target call = some i := by
  cases event with
  | init => exact .inl member
  | call made =>
      rw [step] at member
      dsimp only at member
      cases target : world.target made with
      | none =>
          rw [target] at member
          exact .inl member
      | some j =>
          rw [target] at member
          dsimp only at member
          by_cases same : i = j
          · obtain rfl := same
            rw [Function.update_self] at member
            rcases List.mem_append.mp member with earlier | new
            · exact .inl earlier
            · obtain rfl := List.mem_singleton.mp new
              exact .inr ⟨rfl, target⟩
          · rw [Function.update_of_ne same] at member
            exact .inl member

end World

end Kumf.Prof
