import Kumf.Prof.RecordedCalls

/-! Which call wrote each field of a printed entry. The hooks fill the whole entry but for
`free`, which leaves the caller address as libc gave the buffer.
-/

namespace Kumf.Prof

open Kumf.Library

/-- The fields of an entry that `prof_cleanup` prints. -/
inductive Field where
  | rdt
  | addr
  | size
  | entryType
  | callerAddr
  deriving DecidableEq, Repr

def Field.value (entry : LogEntry) : Field → Int
  | rdt => entry.rdt.val
  | addr => entry.addr.val
  | size => entry.size.val
  | entryType => entry.entryType
  | callerAddr => entry.callerAddr.val

def Hook.isFree : Hook → Bool
  | free _ => true
  | _ => false

/-- Whether the hook assigns the field of its entry. -/
def Call.writes (call : Call) : Field → Bool
  | .callerAddr => !call.hook.isFree
  | _ => true

/-- A field that a call writes does not depend on what was there. -/
theorem value_fill_of_writes {call : Call} {field : Field} (writes : call.writes field = true)
    (old other : LogEntry)
    : field.value (call.fill old) = field.value (call.fill other) := by
  cases field with
  | callerAddr =>
      unfold Call.writes Hook.isFree at writes
      unfold Call.fill Field.value
      cases hook : call.hook with
      | free p => simp [hook] at writes
      | _ => rfl
  | _ => rfl

-----------------------------------------------------------------------------------------
-- The writers of one log
-----------------------------------------------------------------------------------------

/-- A log with the calls that counted up its index, and for each field of each slot of the buffer
the call that wrote it last.
-/
structure TracedLog where
  log : ThreadLog
  creators : List Call
  writers : Nat → Field → Option Call

namespace TracedLog

/-- A call that asks the log for an entry. -/
def take (traced : TracedLog) (call : Call) : TracedLog where
  log := traced.log.take call
  creators :=
    if arrSize ≤ traced.log.index then traced.creators else traced.creators ++ [call]
  writers :=
    if traced.log.takes call then
      Function.update traced.writers traced.log.index (fun field =>
        if call.writes field then some call else traced.writers traced.log.index field)
    else
      traced.writers

/-- Every printed field was written by the call that created the entry. -/
def Written (traced : TracedLog) : Prop :=
  traced.log.entries.isSome = true →
    ∀ j < traced.log.index, ∀ field,
      ∃ call, traced.creators[j]? = some call ∧ traced.writers j field = some call

/-- libc does not give the buffer late, and no `free` gets an entry. -/
def Sound (traced : TracedLog) (call : Call) : Prop :=
  traced.log.Prompt call ∧ (traced.log.takes call = true → call.hook.isFree = false)

instance (traced : TracedLog) (call : Call) : Decidable (traced.Sound call) :=
  inferInstanceAs (Decidable (_ ∧ (_ → _)))

/-- Nothing is written before its entry is created. -/
structure Tidy (traced : TracedLog) : Prop where
  created : traced.creators.length = traced.log.index
  unwritten
    : ∀ j, traced.log.entries = none ∨ traced.log.index ≤ j
      → ∀ field, traced.writers j field = none

/-- A field with a writer has the value that the writer gave it. -/
def Faithful (traced : TracedLog) : Prop :=
  ∀ entries, traced.log.entries = some entries →
    ∀ j field call, traced.writers j field = some call →
      ∀ old, field.value (entries j) = field.value (call.fill old)

variable {traced : TracedLog} {call : Call}

theorem take_full (full : arrSize ≤ traced.log.index)
    : traced.take call
      = { traced with log := ⟨traced.log.entries.or call.buffer, traced.log.index⟩ } := by
  have none : traced.log.takes call = false := by
    simp [ThreadLog.takes, full]
  simp [take, ThreadLog.take, full, none]

/-- Without a buffer only the index counts on. -/
theorem take_missing (room : traced.log.index < arrSize)
    (missing : traced.log.entries.or call.buffer = none)
    : traced.take call
      = { traced with
          log := ⟨none, traced.log.index + 1⟩
          creators := traced.creators ++ [call] } := by
  have none : traced.log.takes call = false := by
    simp [ThreadLog.takes, missing]
  simp [take, ThreadLog.take, Nat.not_le.mpr room, none, missing]

theorem take_entry (room : traced.log.index < arrSize) {entries : Nat → LogEntry}
    (given : traced.log.entries.or call.buffer = some entries)
    : traced.take call
      = { log := ⟨some (Function.update entries traced.log.index
            (call.fill (entries traced.log.index))), traced.log.index + 1⟩
          creators := traced.creators ++ [call]
          writers := Function.update traced.writers traced.log.index (fun field =>
            if call.writes field then some call else traced.writers traced.log.index field) } := by
  have takes : traced.log.takes call = true := by
    simp [ThreadLog.takes, given, room]
  simp [take, ThreadLog.take, Nat.not_le.mpr room, takes, given]

/-- A buffer that was there already, or one that comes with the call. -/
theorem or_eq_some_cases {entries : Nat → LogEntry}
    (given : traced.log.entries.or call.buffer = some entries)
    : traced.log.entries = some entries
      ∨ traced.log.entries = none ∧ call.buffer = some entries := by
  cases before : traced.log.entries with
  | none => exact .inr ⟨rfl, by simpa [before] using given⟩
  | some old => exact .inl (by simpa [before] using given)

theorem Tidy.take (tidy : traced.Tidy) (call : Call) : (traced.take call).Tidy := by
  rcases Nat.lt_or_ge traced.log.index arrSize with room | full
  case inr =>
      rw [take_full full]
      refine ⟨tidy.created, fun j unused => tidy.unwritten j (unused.imp_left ?_)⟩
      exact fun none => (Option.or_eq_none_iff.mp none).1
  cases given : traced.log.entries.or call.buffer with
  | none =>
      rw [take_missing room given]
      exact ⟨by simp [tidy.created],
        fun j _ => tidy.unwritten j (.inl (Option.or_eq_none_iff.mp given).1)⟩
  | some entries =>
      rw [take_entry room given]
      refine ⟨by simp [tidy.created], fun j unused field => ?_⟩
      have behind : traced.log.index + 1 ≤ j := unused.resolve_left (Option.some_ne_none _)
      dsimp only
      rw [Function.update_of_ne (by omega)]
      exact tidy.unwritten j (.inr (by omega)) field

theorem Faithful.take (faithful : traced.Faithful) (tidy : traced.Tidy) (call : Call)
    : (traced.take call).Faithful := by
  -- nothing was written to a buffer that comes with the call
  have earlier {entries : Nat → LogEntry}
    (given : traced.log.entries.or call.buffer = some entries)
      (j : Nat) (field : Field) (writer : Call) (wrote : traced.writers j field = some writer)
      (old : LogEntry)
      : field.value (entries j) = field.value (writer.fill old) := by
    rcases or_eq_some_cases given with before | ⟨none, _⟩
    · exact faithful entries before j field writer wrote old
    · rw [tidy.unwritten j (.inl none) field] at wrote
      cases wrote
  rcases Nat.lt_or_ge traced.log.index arrSize with room | full
  case inr =>
      rw [take_full full]
      exact fun entries given => earlier given
  cases given : traced.log.entries.or call.buffer with
  | none =>
      rw [take_missing room given]
      exact nofun
  | some entries =>
      rw [take_entry room given]
      rintro _ ⟨⟩ j field writer wrote old
      dsimp only at wrote ⊢
      by_cases here : j = traced.log.index
      · subst here
        rw [Function.update_self] at wrote ⊢
        cases writes : call.writes field with
        | true =>
            rw [writes, if_pos rfl] at wrote
            cases wrote
            exact value_fill_of_writes writes _ _
        | false =>
            simp [writes, tidy.unwritten traced.log.index (.inr (Nat.le_refl _))] at wrote
      · rw [Function.update_of_ne here] at wrote ⊢
        exact earlier given j field writer wrote old

/-- A buffer that comes late has an entry that no call wrote. -/
theorem Written.prompt {after : TracedLog} (written : after.Written) (tidy : traced.Tidy)
    (given : after.log.entries.isSome = (traced.log.entries.or call.buffer).isSome)
    (counted : traced.log.index ≤ after.log.index)
    (others : ∀ j < traced.log.index, after.writers j = traced.writers j)
    : traced.log.Prompt call := by
  intro missing buffer
  by_contra late
  have first : 0 < traced.log.index := Nat.pos_of_ne_zero late
  have none : traced.log.entries = none := Option.isNone_iff_eq_none.mp missing
  have present : after.log.entries.isSome = true := by
    rw [given, none]
    exact buffer
  obtain ⟨writer, _, wrote⟩ := written present 0 (Nat.lt_of_lt_of_le first counted) .rdt
  rw [others 0 first, tidy.unwritten 0 (.inl none)] at wrote
  cases wrote

/-- A buffer that comes in time is there before the first entry. -/
theorem isSome_of_prompt (prompt : traced.log.Prompt call) (later : 0 < traced.log.index)
    (present : (traced.log.entries.or call.buffer).isSome = true)
    : traced.log.entries.isSome = true := by
  by_contra missing
  have none := Option.not_isSome_iff_eq_none.mp missing
  have buffer : call.buffer.isSome = true := by simpa [none] using present
  have empty := prompt (Option.isNone_iff_eq_none.mpr none) buffer
  omega

/-- A full log takes no call, but it can get its buffer. -/
theorem Written.take_full_iff (written : traced.Written) (tidy : traced.Tidy)
    (full : arrSize ≤ traced.log.index)
    : (traced.take call).Written ↔ traced.Sound call := by
  have silent : traced.log.takes call = false := by
    simp [ThreadLog.takes, full]
  have later : 0 < traced.log.index := Nat.lt_of_lt_of_le (by decide) full
  rw [take_full full]
  constructor
  · intro after
    refine ⟨after.prompt tidy rfl (Nat.le_refl _) (fun _ _ => rfl), fun takes => ?_⟩
    rw [silent] at takes
    cases takes
  · rintro ⟨prompt, _⟩ present
    exact written (isSome_of_prompt prompt later present)

/-- A call that gets an entry must write the caller, the one field that some hook leaves. -/
theorem Written.not_isFree_of_take (after : (traced.take call).Written) (tidy : traced.Tidy)
    (room : traced.log.index < arrSize) {entries : Nat → LogEntry}
    (given : traced.log.entries.or call.buffer = some entries)
    : call.hook.isFree = false := by
  rw [take_entry room given] at after
  obtain ⟨writer, _, wrote⟩ := after rfl traced.log.index (Nat.lt_succ_self _) .callerAddr
  dsimp only at wrote
  rw [Function.update_self, tidy.unwritten _ (.inr (Nat.le_refl _))] at wrote
  cases free : call.hook.isFree with
  | false => rfl
  | true => simp [Call.writes, free] at wrote

/-- A sound call writes all of its entry and leaves the others alone. -/
theorem Written.take_of_sound (written : traced.Written) (tidy : traced.Tidy)
    (sound : traced.Sound call) (room : traced.log.index < arrSize)
    {entries : Nat → LogEntry} (given : traced.log.entries.or call.buffer = some entries)
    : (traced.take call).Written := by
  obtain ⟨prompt, noFree⟩ := sound
  rw [take_entry room given]
  intro _ j inside field
  dsimp only at inside ⊢
  rcases Nat.lt_succ_iff_lt_or_eq.mp inside with earlier | rfl
  · have present : (traced.log.entries.or call.buffer).isSome = true := by
      rw [given]
      rfl
    rw [Function.update_of_ne (Nat.ne_of_lt earlier),
      List.getElem?_append_left (by rw [tidy.created]; exact earlier)]
    exact written (isSome_of_prompt prompt (Nat.zero_lt_of_lt earlier) present) j earlier field
  · have all : call.writes field = true := by
      have other := noFree (by simp [ThreadLog.takes, given, room])
      cases field <;> simp [Call.writes, other]
    refine ⟨call, ?_, ?_⟩
    · rw [← tidy.created]
      exact List.getElem?_concat_length
    · rw [Function.update_self, if_pos all]

/-- A call keeps the property exactly if it is sound. -/
theorem Written.take_iff (written : traced.Written) (tidy : traced.Tidy)
    : (traced.take call).Written ↔ traced.Sound call := by
  rcases Nat.lt_or_ge traced.log.index arrSize with room | full
  case inr => exact written.take_full_iff tidy full
  cases given : traced.log.entries.or call.buffer with
  | none =>
      obtain ⟨missing, refused⟩ := Option.or_eq_none_iff.mp given
      rw [take_missing room given]
      refine ⟨fun _ => ⟨?_, ?_⟩, fun _ present => ?_⟩
      · simp [ThreadLog.Prompt, refused]
      · simp [ThreadLog.takes, given]
      · cases present
  | some entries =>
      refine ⟨fun after => ⟨?_, fun _ => after.not_isFree_of_take tidy room given⟩,
        fun sound => written.take_of_sound tidy sound room given⟩
      rw [take_entry room given] at after
      refine after.prompt tidy ?_ (Nat.le_succ _)
        (fun j inside => Function.update_of_ne (Nat.ne_of_lt inside) _ _)
      rw [given]
      rfl

end TracedLog

-----------------------------------------------------------------------------------------
-- Runs of the library
-----------------------------------------------------------------------------------------

/-- The library, and for each log the creators and the writers of its entries. -/
structure TracedWorld where
  globals : Globals
  creators : Nat → List Call
  writers : Nat → Nat → Field → Option Call

namespace TracedWorld

def initial : TracedWorld where
  globals := unloaded
  creators := fun _ => []
  writers := fun _ _ _ => none

def log (world : TracedWorld) (i : Nat) : TracedLog where
  log := world.globals.logs i
  creators := world.creators i
  writers := world.writers i

def step (world : TracedWorld) : Event → TracedWorld
  | .init => { world with globals := world.globals.mInit }
  | .call call =>
      let globals := world.globals.exec call
      match world.globals.askedLog call with
      | none => { world with globals }
      | some i =>
          let after := (world.log i).take call
          { globals
            creators := Function.update world.creators i after.creators
            writers := Function.update world.writers i after.writers }

/-- Every field that `prof_cleanup` prints was written by the call that created the entry. -/
def Written (world : TracedWorld) : Prop := ∀ i, (world.log i).Written

/-- libc does not give a log buffer after it refused one, and no `free` gets an entry. -/
def Sound (world : TracedWorld) : Event → Prop
  | .init => True
  | .call call => ∀ i ∈ world.globals.askedLog call, (world.log i).Sound call

instance (world : TracedWorld) : ∀ event, Decidable (world.Sound event)
  | .init => inferInstanceAs (Decidable True)
  | .call call => inferInstanceAs (Decidable (∀ i ∈ world.globals.askedLog call, _))

/-- A step changes at most the log that its call asks. -/
theorem log_step (world : TracedWorld) (event : Event) (i : Nat)
    : (world.step event).log i
      = match event with
        | .init => world.log i
        | .call call =>
            if world.globals.askedLog call = some i then (world.log i).take call
            else world.log i := by
  cases event with
  | init => rfl
  | call call =>
      have logs := exec_logs world.globals call
      unfold step
      dsimp only
      cases asked : world.globals.askedLog call with
      | none =>
          rw [asked] at logs
          rw [if_neg nofun, log, logs]
          rfl
      | some j =>
          rw [asked] at logs
          by_cases here : j = i
          · subst here
            rw [if_pos rfl, log, logs]
            simp [TracedLog.take, log]
          · have elsewhere : ¬ i = j := fun same => here same.symm
            rw [if_neg (by simpa using here), log, logs]
            simp [elsewhere, log]

/-- What holds of every log of a run. -/
structure Tidy (world : TracedWorld) : Prop where
  logs : ∀ i, (world.log i).Tidy
  faithful : ∀ i, (world.log i).Faithful

theorem initial_tidy : initial.Tidy where
  logs _ := ⟨rfl, fun _ _ _ => rfl⟩
  faithful _ := nofun

theorem Tidy.step {world : TracedWorld} (tidy : world.Tidy) (event : Event)
    : (world.step event).Tidy := by
  refine ⟨fun i => ?_, fun i => ?_⟩
  · rw [log_step]
    cases event with
    | init => exact tidy.logs i
    | call call =>
        dsimp only
        split
        · exact (tidy.logs i).take call
        · exact tidy.logs i
  · rw [log_step]
    cases event with
    | init => exact tidy.faithful i
    | call call =>
        dsimp only
        split
        · exact (tidy.faithful i).take (tidy.logs i) call
        · exact tidy.faithful i

theorem initial_written : initial.Written := fun _ => nofun

/-- A step keeps the property exactly if it is sound. -/
theorem Written.step_iff {world : TracedWorld} (written : world.Written) (tidy : world.Tidy)
    (event : Event)
    : (world.step event).Written ↔ world.Sound event := by
  cases event with
  | init => exact ⟨fun _ => trivial, fun _ => written⟩
  | call call =>
      constructor
      · intro after i asked
        have here := after i
        rw [log_step] at here
        dsimp only at here
        rw [if_pos (Option.mem_def.mp asked)] at here
        exact ((written i).take_iff (tidy.logs i)).mp here
      · intro sound i
        rw [log_step]
        dsimp only
        split
        case isTrue asked => exact ((written i).take_iff (tidy.logs i)).mpr (sound i asked)
        case isFalse => exact written i

theorem run_tidy (events : List Event) : (events.foldl step initial).Tidy := by
  have start := initial_tidy
  generalize initial = world at start ⊢
  induction events generalizing world with
  | nil => exact start
  | cons event events ih => exact ih _ (start.step event)

/-- In every run, the printed fields are written by the creators of their entries in all states
reached exactly if every step is sound; and the writer of a field is the call whose value it has.
-/
theorem run_written_iff (events : List Event)
    : (Along step (fun world event => (world.step event).Written) initial events
        ↔ Along step Sound initial events)
      ∧ ∀ i, ((events.foldl step initial).log i).Faithful := by
  let kept (world : TracedWorld) : Prop := world.Tidy ∧ world.Written
  have each (world : TracedWorld) (event : Event) (here : kept world) (sound : world.Sound event)
      : kept (world.step event) :=
    ⟨here.1.step event, (here.2.step_iff here.1 event).mpr sound⟩
  have same (world : TracedWorld) (event : Event) (here : kept world)
      : (world.step event).Written ↔ world.Sound event :=
    here.2.step_iff here.1 event
  exact ⟨along_congr step each same ⟨initial_tidy, initial_written⟩,
    (run_tidy events).faithful⟩

/-- Then a printed entry says nothing but what its call said, whatever the buffer held. -/
theorem Written.printed {world : TracedWorld} (written : world.Written) (tidy : world.Tidy)
    {i j : Nat} {entry : LogEntry} (found : (world.globals.logs i).printed[j]? = some entry)
    : ∃ call, (world.creators i)[j]? = some call ∧ ∀ old, entry = call.fill old := by
  cases given : (world.globals.logs i).entries with
  | none => simp [ThreadLog.printed, given] at found
  | some entries =>
      rw [ThreadLog.printed, given, List.getElem?_map] at found
      obtain ⟨k, inRange, rfl⟩ := Option.map_eq_some_iff.mp found
      obtain ⟨bound, value⟩ := List.getElem?_eq_some_iff.mp inRange
      rw [List.getElem_range] at value
      subst value
      have inside : j < (world.globals.logs i).index := by simpa using bound
      have present : (world.globals.logs i).entries.isSome = true := by
        rw [given]
        rfl
      obtain ⟨call, created, _⟩ := written i present j inside .rdt
      refine ⟨call, created, fun old => ?_⟩
      have same (field : Field) : field.value (entries j) = field.value (call.fill old) := by
        obtain ⟨writer, also, wrote⟩ := written i present j inside field
        obtain rfl : call = writer := Option.some.inj (created.symm.trans also)
        exact tidy.faithful i entries given j field call wrote old
      have rdt := same .rdt
      have addr := same .addr
      have size := same .size
      have entryType := same .entryType
      have callerAddr := same .callerAddr
      simp only [Field.value, Int.natCast_inj, Fin.val_inj] at rdt addr size entryType callerAddr
      cases entry : entries j
      cases filled : call.fill old
      simp_all

/-- A `free` in a buffer that libc gives with old contents. -/
def freeOnly : List Event :=
  [.init, .call {
    thread := 1, tid := 4711, hook := .free 0x5000, ret := 0, rdt := 9, caller := 0x400000
    inTrace := false, inOurAlloc := false
    buffer := some (fun _ => ⟨0, 0, 0, 0, 0xdeadbeef⟩) }]

/-- The old contents are printed as the caller. -/
theorem freeOnly_printsBuffer
    : profCleanup (freeOnly.foldl step initial).globals
        = some [(4711, [⟨9, 0x5000, 0, 2, 0xdeadbeef⟩])]
      ∧ ¬ (freeOnly.foldl step initial).Written := by
  refine ⟨by decide, fun written => ?_⟩
  obtain ⟨call, _, wrote⟩ := written 1 (by decide) 0 (by decide) .callerAddr
  have unwritten : ((freeOnly.foldl step initial).log 1).writers 0 .callerAddr = none := rfl
  rw [unwritten] at wrote
  cases wrote

end TracedWorld

end Kumf.Prof
