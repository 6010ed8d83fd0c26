import Kumf.Prof.RecordedCalls

/-! The entries that `get_log` hands out. It does not look at what libc gives for a buffer: when
that is `NULL` the index counts all the same, and the next call gets an offset from `NULL`.
-/

namespace Kumf.Prof

open Kumf.Library

-----------------------------------------------------------------------------------------
-- What a call is given
-----------------------------------------------------------------------------------------

/-- What `get_log` returns to a call that asks it. It does not return when the table of threads
is full.
-/
def Globals.returned (globals : Globals) (call : Call) : Option Slot :=
  if globals.ending = .running ∧ globals.readyFor call.hook = true ∧ call.records = true then
    match (({ globals with ready := true } : Globals).getLog call).2 with
    | .tooManyThreads => none
    | slot => some slot
  else
    none

/-- The pointer that a log gives for its next entry. -/
def ThreadLog.slot (log : ThreadLog) (i : Nat) (call : Call) : Slot :=
  if arrSize ≤ log.index then .null
  else if (log.entries.or call.buffer).isSome then .entry i log.index
  else if log.index = 0 then .null
  else .wild

theorem getLog_slot (globals : Globals) (call : Call)
    : (globals.getLog call).2
      = match globals.claimThread call.thread call.tid with
        | none => .tooManyThreads
        | some claimed =>
            let i := claimed.tidIndex call.thread
            (globals.logs i).slot i call := by
  unfold Globals.getLog
  cases claims : globals.claimThread call.thread call.tid with
  | none => rfl
  | some claimed =>
      dsimp only
      rw [ThreadLog.slot, Globals.bufferFor, claimThread_logs claims]
      split
      · rfl
      · rfl

theorem slot_ne_tooManyThreads (log : ThreadLog) (i : Nat) (call : Call)
    : log.slot i call ≠ .tooManyThreads := by
  unfold ThreadLog.slot
  split_ifs <;> simp

/-- The pointer comes from the log that the call asks. -/
theorem returned_eq (globals : Globals) (call : Call)
    : globals.returned call
      = (globals.askedLog call).map (fun i => (globals.logs i).slot i call) := by
  unfold Globals.returned Globals.askedLog
  split
  case isFalse => rfl
  case isTrue =>
      rw [getLog_slot, claimThread_ready]
      cases globals.claimThread call.thread call.tid with
      | none => rfl
      | some claimed =>
          have returns := slot_ne_tooManyThreads
            (globals.logs (claimed.tidIndex call.thread)) (claimed.tidIndex call.thread) call
          dsimp only [Option.map_some]
          split
          case h_1 same => exact absurd same returns
          case h_2 => rfl

-----------------------------------------------------------------------------------------
-- The entries handed out in a run
-----------------------------------------------------------------------------------------

/-- The library, and the entries that `get_log` has returned, by log and index. -/
structure Handing where
  globals : Globals
  handed : List (Nat × Nat)

namespace Handing

def initial : Handing where
  globals := unloaded
  handed := []

def step (handing : Handing) : Event → Handing
  | .init => { handing with globals := handing.globals.mInit }
  | .call call =>
      { globals := handing.globals.exec call
        handed :=
          match handing.globals.returned call with
          | some (.entry i index) => handing.handed ++ [(i, index)]
          | _ => handing.handed }

/-- A call gets `NULL`, or an entry of an array that is there and that no earlier call got. -/
def Fresh (handing : Handing) : Event → Prop
  | .init => True
  | .call call =>
      ∀ slot ∈ handing.globals.returned call,
        slot = .null
        ∨ ∃ i index, slot = .entry i index
          ∧ ((handing.globals.exec call).logs i).entries.isSome = true
          ∧ index < arrSize
          ∧ (i, index) ∉ handing.handed

/-- Every index that a log has counted is of an entry that was handed out. -/
def Covered (handing : Handing) : Prop :=
  ∀ i, ∀ index < (handing.globals.logs i).index, (i, index) ∈ handing.handed

/-- What `get_log` promises of a call, and of the state that the call leaves. -/
def HandsOut (handing : Handing) (event : Event) : Prop :=
  handing.Fresh event ∧ (handing.step event).Covered

/-- libc gives the log buffer, if the call asks for one. -/
def Granted (handing : Handing) : Event → Prop
  | .init => True
  | .call call =>
      ∀ i ∈ handing.globals.askedLog call,
        (handing.globals.logs i).entries = none → call.buffer.isSome = true

/-- What is kept as long as libc gives the buffers: exactly the entries below the index of a log
are handed out, and a log without a buffer was not asked yet.
-/
structure Tidy (handing : Handing) : Prop where
  handed : ∀ i index, (i, index) ∈ handing.handed ↔ index < (handing.globals.logs i).index
  unused : ∀ i, (handing.globals.logs i).entries = none → (handing.globals.logs i).index = 0

theorem initial_tidy : initial.Tidy where
  handed _ _ := by simp [initial, unloaded]
  unused _ _ := rfl

theorem Tidy.covered {handing : Handing} (tidy : handing.Tidy) : handing.Covered :=
  fun i index counted => (tidy.handed i index).mpr counted

/-- What a call can do to the logs and to the entries handed out. -/
inductive Outcome (handing : Handing) (call : Call) : Prop where
  /-- No log is asked. -/
  | silent
      (asked : handing.globals.askedLog call = none)
      (returned : handing.globals.returned call = none)
      (logs : (handing.globals.exec call).logs = handing.globals.logs)
  /-- The log is full. -/
  | full (i : Nat)
      (asked : handing.globals.askedLog call = some i)
      (present : (handing.globals.logs i).entries ≠ none)
      (returned : handing.globals.returned call = some .null)
      (logs : (handing.globals.exec call).logs = handing.globals.logs)
  /-- The log has a buffer, or gets it. -/
  | entry (i : Nat) (entries : Nat → LogEntry)
      (asked : handing.globals.askedLog call = some i)
      (given : (handing.globals.logs i).entries.or call.buffer = some entries)
      (room : (handing.globals.logs i).index < arrSize)
      (returned : handing.globals.returned call
        = some (.entry i (handing.globals.logs i).index))
      (logs : (handing.globals.exec call).logs
        = Function.update handing.globals.logs i
          ⟨some (Function.update entries (handing.globals.logs i).index
            (call.fill (entries (handing.globals.logs i).index))),
            (handing.globals.logs i).index + 1⟩)
  /-- libc refuses the buffer of a log that was not asked before. -/
  | refused (i : Nat)
      (asked : handing.globals.askedLog call = some i)
      (missing : (handing.globals.logs i).entries = none)
      (buffer : call.buffer = none)
      (returned : handing.globals.returned call = some .null)
      (logs : (handing.globals.exec call).logs
        = Function.update handing.globals.logs i ⟨none, 1⟩)

theorem Tidy.outcome {handing : Handing} (tidy : handing.Tidy) (call : Call)
    : Outcome handing call := by
  have logs := exec_logs handing.globals call
  have returned := returned_eq handing.globals call
  cases asked : handing.globals.askedLog call with
  | none =>
      rw [asked] at logs returned
      exact .silent asked returned logs
  | some i =>
      have unused := tidy.unused i
      rw [asked, Option.map_some, ThreadLog.slot] at returned
      rw [asked] at logs
      dsimp only at logs
      rw [ThreadLog.take] at logs
      rcases Nat.lt_or_ge (handing.globals.logs i).index arrSize with room | full
      case inr =>
          have present : (handing.globals.logs i).entries ≠ none := by
            intro missing
            rw [unused missing] at full
            exact absurd full (by decide)
          obtain ⟨entries, buffer⟩ := Option.ne_none_iff_exists'.mp present
          have same : (⟨some entries, (handing.globals.logs i).index⟩ : ThreadLog)
              = handing.globals.logs i := by
            rw [← buffer]
          rw [if_pos full] at logs returned
          rw [buffer, Option.some_or, same, Function.update_eq_self] at logs
          exact .full i asked present returned logs
      rw [if_neg (Nat.not_le.mpr room)] at logs returned
      cases given : (handing.globals.logs i).entries.or call.buffer with
      | some entries =>
          rw [given] at logs returned
          exact .entry i entries asked given room returned logs
      | none =>
          obtain ⟨missing, buffer⟩ := Option.or_eq_none_iff.mp given
          rw [given, unused missing] at logs returned
          exact .refused i asked missing buffer returned logs

/-- A step hands out right exactly if libc gives the buffer. -/
theorem Tidy.handsOut_iff_granted {handing : Handing} (tidy : handing.Tidy) (event : Event)
    : handing.HandsOut event ↔ handing.Granted event := by
  cases event with
  | init => exact iff_of_true ⟨trivial, tidy.covered⟩ trivial
  | call call =>
      unfold HandsOut Fresh Covered Granted step
      dsimp only
      cases tidy.outcome call with
      | silent asked returned logs =>
          rw [asked, returned, logs]
          exact iff_of_true ⟨nofun, tidy.covered⟩ nofun
      | full i asked present returned logs =>
          rw [asked, returned, logs]
          refine iff_of_true ⟨?_, tidy.covered⟩ ?_
          · rintro _ ⟨⟩
            exact .inl rfl
          · rintro _ ⟨⟩ missing
            exact absurd missing present
      | entry i entries asked given room returned logs =>
          rw [asked, returned, logs]
          refine iff_of_true ⟨?_, fun j index counted => ?_⟩ ?_
          · rintro _ ⟨⟩
            refine .inr ⟨i, (handing.globals.logs i).index, rfl, ?_, room, fun earlier => ?_⟩
            · simp
            · exact absurd ((tidy.handed i _).mp earlier) (Nat.lt_irrefl _)
          · dsimp only at counted ⊢
            by_cases here : j = i
            · subst here
              rw [Function.update_self] at counted
              rcases Nat.lt_succ_iff_lt_or_eq.mp counted with earlier | rfl
              · exact List.mem_append_left _ ((tidy.handed j index).mpr earlier)
              · exact List.mem_append_right _ (List.mem_singleton_self _)
            · rw [Function.update_of_ne here] at counted
              exact List.mem_append_left _ ((tidy.handed j index).mpr counted)
          · rintro _ ⟨⟩ missing
            rw [missing, Option.none_or] at given
            exact Option.isSome_iff_exists.mpr ⟨entries, given⟩
      | refused i asked missing buffer returned logs =>
          rw [asked, returned, logs]
          refine iff_of_false ?_ ?_
          · -- the entry 0 is counted and was not handed out
            rintro ⟨_, covered⟩
            have counted : 0 < (Function.update handing.globals.logs i ⟨none, 1⟩ i).index := by
              rw [Function.update_self]
              exact Nat.one_pos
            have handed := (tidy.handed i 0).mp (covered i 0 counted)
            rw [tidy.unused i missing] at handed
            exact absurd handed (Nat.lt_irrefl 0)
          · intro granted
            have given := granted i rfl missing
            rw [buffer] at given
            cases given

theorem Tidy.step {handing : Handing} (tidy : handing.Tidy) (event : Event)
    (granted : handing.Granted event)
    : (handing.step event).Tidy := by
  cases event with
  | init => exact ⟨tidy.handed, tidy.unused⟩
  | call call =>
      unfold Granted at granted
      unfold Handing.step
      dsimp only at granted ⊢
      cases tidy.outcome call with
      | silent asked returned logs =>
          rw [returned]
          exact ⟨by rw [logs]; exact tidy.handed, by rw [logs]; exact tidy.unused⟩
      | full i asked present returned logs =>
          rw [returned]
          exact ⟨by rw [logs]; exact tidy.handed, by rw [logs]; exact tidy.unused⟩
      | entry i entries asked given room returned logs =>
          rw [returned]
          refine ⟨fun j index => ?_, fun j missing => ?_⟩
          · dsimp only
            rw [logs, List.mem_append, List.mem_singleton, tidy.handed]
            by_cases here : j = i
            · subst here
              rw [Function.update_self, Nat.lt_succ_iff_lt_or_eq]
              simp
            · rw [Function.update_of_ne here]
              simp [here]
          · dsimp only at missing ⊢
            rw [logs] at missing ⊢
            by_cases here : j = i
            · subst here
              rw [Function.update_self] at missing
              cases missing
            · rw [Function.update_of_ne here] at missing ⊢
              exact tidy.unused j missing
      | refused i asked missing buffer returned logs =>
          have given := granted i asked missing
          rw [buffer] at given
          cases given

/-- In a run of the library every call gets what `get_log` promises exactly if libc gives every
log buffer that is asked for.
-/
theorem handsOut_iff (events : List Event)
    : Along step HandsOut initial events ↔ Along step Granted initial events :=
  along_congr step (fun _ event tidy => tidy.step event)
    (fun _ event tidy => tidy.handsOut_iff_granted event) initial_tidy

end Handing

/-- The first record of a thread, with what libc gives for its log buffer. -/
def firstRecord (buffer : Option (Nat → LogEntry)) : Call where
  thread := 0
  tid := 4711
  hook := .malloc 64
  ret := 0x5000
  rdt := 1
  caller := 0x400000
  inTrace := false
  inOurAlloc := false
  buffer := buffer

/-- libc refuses the log buffer: the entry 0 is counted and never handed out. The next call gets
the entry 1 when libc gives the buffer then, and else an offset from `NULL`.
-/
theorem Handing.refusedBuffer_uncovered
    : let refused := Handing.initial.step (.call (firstRecord none))
      Handing.initial.globals.returned (firstRecord none) = some .null
      ∧ (refused.globals.logs 1).index = 1
      ∧ refused.handed = []
      ∧ refused.globals.returned (firstRecord (some (fun _ => ⟨0, 0, 0, 0, 0⟩)))
        = some (.entry 1 1)
      ∧ refused.globals.returned (firstRecord none) = some .wild
      ∧ ¬ Along step HandsOut initial [.call (firstRecord none)] := by
  refine ⟨by decide, by decide, by decide, by decide, by decide, fun run => ?_⟩
  have granted := (initial_tidy.handsOut_iff_granted _).mp run.1
  have buffer := granted 1 (by decide) rfl
  exact absurd buffer (by decide)

end Kumf.Prof
