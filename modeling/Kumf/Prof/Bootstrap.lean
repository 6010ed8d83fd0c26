import Kumf.Library.Blocks
import Kumf.Library.Runs
import Kumf.Prof.Hooks

/-! The hooks of the prof library while `m_init` looks up the functions of libc. As long as its
own function is missing, `calloc` answers with a static buffer.
-/

namespace Kumf.Prof.Bootstrap

open Kumf.Library

/-- The functions that `m_init` looks up. -/
inductive Libc where
  | malloc
  | realloc
  | calloc
  | free
  | mmap
  | munmap
  | mmap64
  | memalign
  | posixMemalign
  deriving DecidableEq, Repr

/-- The place of a function in the order of the lookups. -/
def Libc.position : Libc → Nat
  | malloc => 0
  | realloc => 1
  | calloc => 2
  | free => 3
  | mmap => 4
  | munmap => 5
  | mmap64 => 6
  | memalign => 7
  | posixMemalign => 8

/-- The number of lookups. -/
def lookups : Nat := 9

/-- `sizeof(empty_data)` -/
def emptySize : Nat := 65536

/-- `sizeof(struct log) * ARR_SIZE` -/
def logSize : Nat := 176 * arrSize

/-- The function of libc that a hook calls. -/
def libcOf : Hook → Libc
  | .malloc _ => .malloc
  | .calloc _ _ => .calloc
  | .realloc _ _ => .realloc
  | .memalign _ _ => .memalign
  | .posixMemalign _ _ => .posixMemalign
  | .free _ => .free
  | .mmap _ _ => .mmap
  | .mmap64 _ _ => .mmap64
  | .munmap _ _ => .munmap

/-- The bytes that the caller asks the heap for. -/
def requested : Hook → Option Nat
  | .malloc sz => some sz.val
  | .calloc nmemb size => some (nmemb.val * size.val)
  | .realloc _ size => some size.val
  | .memalign _ sz => some sz.val
  | .posixMemalign _ sz => some sz.val
  | _ => none

/-- The pointer that the hook hands on to libc. -/
def handedOn : Hook → Option Word
  | .free p => some p
  | .realloc ptr _ => some ptr
  | _ => none

/-- A call of a hook: the pointer that libc answers with, the log buffer that `get_log` takes from
`libc_malloc` in it (both 0 if there is none), and the memory when libc returns or, in front of
`memset`, when the hook is entered.
-/
structure Request where
  hook : Hook
  ret : Word
  logBuffer : Word
  memory : Nat → UInt8

/-- The progress of `m_init`, and the blocks that are live: the sizes of those in the static
buffer, those of libc that the program holds, and the log buffers. `returned` are all pointers
that libc has answered with.
-/
structure State where
  initialized : Bool
  resolved : Nat
  crashed : Bool
  boot : List Nat
  heap : List Block
  logs : List Block
  returned : List Nat

/-- The process as it is loaded. -/
def initial : State where
  initialized := false
  resolved := 0
  crashed := false
  boot := []
  heap := []
  logs := []
  returned := []

namespace State

/-- Whether the pointer to a function is set. -/
def has (state : State) (function : Libc) : Bool := function.position < state.resolved

/-- `m_init`, without calls during its lookups. -/
def mInit (state : State) : State :=
  if state.initialized then state else { state with initialized := true, resolved := lookups }

/-- `malloc` runs `m_init` when its function is missing. -/
def prepare (state : State) : Hook → State
  | .malloc _ => if state.has .malloc then state else state.mInit
  | _ => state

/-- An answer of libc to a request of the program. -/
def grant (state : State) (ret : Word) (size : Nat) : State :=
  if ret = 0 then
    state
  else
    { state with heap := ⟨ret.val, size⟩ :: state.heap, returned := ret.val :: state.returned }

/-- The log buffer that `get_log` takes. -/
def takeLog (state : State) (buffer : Word) : State :=
  if buffer = 0 then
    state
  else
    { state with
      logs := ⟨buffer.val, logSize⟩ :: state.logs
      returned := buffer.val :: state.returned }

variable (emptyData : Nat)

/-- A pointer that the program gives up. -/
def release (state : State) (p : Word) : State :=
  if p.val = emptyData then
    { state with boot := state.boot.tail }
  else
    { state with heap := state.heap.eraseP (fun block => block.base = p.val) }

/-- The blocks after libc has served a call. A `realloc` that answers null keeps the old block,
unless the size is zero.
-/
def serve (state : State) (request : Request) : State :=
  match request.hook with
  | .free p => state.release emptyData p
  | .realloc ptr size =>
      if request.ret = 0 then
        if size = 0 then state.release emptyData ptr else state
      else
        (state.release emptyData ptr).grant request.ret size.val
  | hook =>
      match requested hook with
      | some size => state.grant request.ret size
      | none => state

/-- A call of a hook. -/
def exec (state : State) (request : Request) : State :=
  if state.crashed then
    state
  else
    let state := state.prepare request.hook
    if state.has (libcOf request.hook) then
      (state.serve emptyData request).takeLog request.logBuffer
    else
      match request.hook with
      | .calloc nmemb size => { state with boot := (nmemb.val * size.val) :: state.boot }
      | _ => { state with crashed := true }

/-- `empty_data` -/
def emptyBlock : Block := ⟨emptyData, emptySize⟩

/-- What a `calloc` returns, with the storage that belongs to it. -/
def callocBlock (state : State) (request : Request) (nmemb size : Word) : Option Block :=
  if state.has .calloc then
    if request.ret = 0 then none else some ⟨request.ret.val, nmemb.val * size.val⟩
  else
    some (emptyBlock emptyData)

/-- The memory that a `calloc` leaves. -/
def memoryAfter (state : State) (request : Request) (address : Nat) : UInt8 :=
  if state.has .calloc = false ∧ (emptyBlock emptyData).Contains address then 0
  else request.memory address

/-- All live blocks. -/
def live (state : State) : List Block :=
  state.boot.map (fun size => ⟨emptyData, size⟩) ++ state.heap ++ state.logs

end State

/-- What happens in the process: `m_init` is entered, it finds its next function, or a hook is
called.
-/
inductive Event where
  | enter
  | resolve
  | call (request : Request)

def step (emptyData : Nat) (state : State) : Event → State
  | .enter => { state with initialized := true }
  | .resolve =>
      if state.initialized ∧ state.resolved < lookups then
        { state with resolved := state.resolved + 1 }
      else
        state
  | .call request => state.exec emptyData request

-----------------------------------------------------------------------------------------
-- What a call must do, and when it does
-----------------------------------------------------------------------------------------

section
variable (emptyData : Nat) (state : State) (request : Request)

/-- What the program and libc promise of a call. The program gives up pointers that it holds, and
libc answers with storage of its own that is not in use, which `calloc` clears. There is no call
behind a crash.
-/
structure Lawful : Prop where
  alive : state.crashed = false
  held
    : ∀ p, handedOn request.hook = some p → p ≠ 0
      → (p.val = emptyData ∧ state.boot ≠ []) ∨ ∃ block ∈ state.heap, block.base = p.val
  fresh
    : ∀ size, requested request.hook = some size → request.ret ≠ 0
      → (⟨request.ret.val, max 1 size⟩ : Block).Apart (State.emptyBlock emptyData)
        ∧ ∀ other ∈ state.live emptyData,
            some other.base ≠ (handedOn request.hook).map Fin.val
            → (⟨request.ret.val, max 1 size⟩ : Block).Apart other
  cleared
    : ∀ nmemb size, request.hook = .calloc nmemb size → request.ret ≠ 0
      → ∀ address,
          (⟨request.ret.val, nmemb.val * size.val⟩ : Block).Contains address
          → request.memory address = 0
  log
    : request.logBuffer ≠ 0
      → (⟨request.logBuffer.val, logSize⟩ : Block).Apart (State.emptyBlock emptyData)
        ∧ ∀ other ∈ (state.serve emptyData request).live emptyData,
            (⟨request.logBuffer.val, logSize⟩ : Block).Apart other

/-- A `calloc` returns null or cleared storage of the size asked for that no other live block
shares, and libc gets no pointers but its own.
-/
structure Safe : Prop where
  calloc
    : ∀ nmemb size, request.hook = .calloc nmemb size
      → ∀ block ∈ state.callocBlock emptyData request nmemb size,
          nmemb.val * size.val ≤ block.size
          ∧ (∀ address,
              (⟨block.base, nmemb.val * size.val⟩ : Block).Contains address
              → state.memoryAfter emptyData request address = 0)
          ∧ ∀ other ∈ state.live emptyData,
              (⟨block.base, nmemb.val * size.val⟩ : Block).Apart other
  handedOn
    : ∀ p, handedOn request.hook = some p → state.has (libcOf request.hook) = true → p ≠ 0
      → p.val ∈ state.returned

/-- As long as `calloc` is missing, it is asked for at most the static buffer, and for nothing
while a part of that is live; and no pointer to the buffer is given up.
-/
structure Sound : Prop where
  calloc
    : ∀ nmemb size, request.hook = .calloc nmemb size → state.has .calloc = false
      → nmemb.val * size.val ≤ emptySize
        ∧ (nmemb.val * size.val = 0 ∨ ∀ other ∈ state.boot, other = 0)
  handedOn
    : ∀ p, handedOn request.hook = some p → state.has (libcOf request.hook) = true → p ≠ 0
      → p.val ≠ emptyData

/-- Where the blocks are. -/
structure Tidy : Prop where
  heap
    : ∀ block ∈ state.heap,
        block.base ∈ state.returned ∧ block.Apart (State.emptyBlock emptyData)
  logs : ∀ block ∈ state.logs, block.Apart (State.emptyBlock emptyData)
  returned : ∀ p ∈ state.returned, ¬ (State.emptyBlock emptyData).Contains p

end

variable {emptyData : Nat} {state : State} {request : Request}

/-- The static block holds the address it starts at. -/
theorem emptyBlock_contains (emptyData : Nat)
    : (State.emptyBlock emptyData).Contains emptyData := by
  refine ⟨Nat.le_refl _, Nat.lt_add_of_pos_right ?_⟩
  change 0 < 65536
  decide

theorem logSize_pos : 0 < logSize := by decide

/-- A process that has just started is tidy. -/
theorem initial_tidy : Tidy emptyData initial where
  heap := nofun
  logs := nofun
  returned := nofun

/-- In a tidy state a safe request is answered soundly. -/
theorem Sound.of_safe (tidy : Tidy emptyData state) (safe : Safe emptyData state request)
    : Sound emptyData state request := by
  constructor
  · intro nmemb size hook missing
    have boot : State.emptyBlock emptyData
        ∈ state.callocBlock emptyData request nmemb size := by
      simp [State.callocBlock, missing]
    obtain ⟨fits, _, apart⟩ := safe.calloc nmemb size hook _ boot
    refine ⟨fits, or_iff_not_imp_left.mpr (fun some other member => ?_)⟩
    have inLive : (⟨emptyData, other⟩ : Block) ∈ state.live emptyData :=
      List.mem_append_left _ (List.mem_append_left _ (List.mem_map_of_mem member))
    exact (Block.apart_same_base_iff.mp (apart _ inLive)).resolve_left some
  · intro p handed set nonnull same
    have inside : (State.emptyBlock emptyData).Contains p.val := by
      rw [same]
      exact emptyBlock_contains emptyData
    exact tidy.returned p.val (safe.handedOn p handed set nonnull) inside

/-- What a sound `calloc` takes of the static buffer is in no other live block. -/
theorem Sound.boot_apart (sound : Sound emptyData state request) (tidy : Tidy emptyData state)
    {nmemb size : Word} (hook : request.hook = .calloc nmemb size)
    (missing : state.has .calloc = false) {other : Block} (member : other ∈ state.live emptyData)
    : (⟨emptyData, nmemb.val * size.val⟩ : Block).Apart other := by
  obtain ⟨fits, alone⟩ := sound.calloc nmemb size hook missing
  have outside (apart : other.Apart (State.emptyBlock emptyData))
      : (⟨emptyData, nmemb.val * size.val⟩ : Block).Apart other :=
    (apart.front fits).symm
  rcases List.mem_append.mp member with inFront | inLogs
  · rcases List.mem_append.mp inFront with inBoot | inHeap
    · obtain ⟨more, live, rfl⟩ := List.mem_map.mp inBoot
      exact Block.apart_same_base_iff.mpr (alone.imp_right (fun none => none more live))
    · exact outside (tidy.heap other inHeap).2
  · exact outside (tidy.logs other inLogs)

/-- A call does what it must exactly if it is sound. -/
theorem safe_iff_sound (tidy : Tidy emptyData state) (lawful : Lawful emptyData state request)
    : Safe emptyData state request ↔ Sound emptyData state request := by
  refine ⟨.of_safe tidy, fun sound => ?_⟩
  constructor
  · intro nmemb size hook block returned
    cases set : state.has .calloc with
    | true =>
        by_cases null : request.ret = 0
        · simp [State.callocBlock, set, null] at returned
        · simp only [State.callocBlock, set, null, if_true, if_false, Option.mem_def,
            Option.some.injEq] at returned
          subst returned
          have noPointer : handedOn request.hook = none := by rw [hook]; rfl
          obtain ⟨_, apart⟩ := lawful.fresh _ (by rw [hook]; rfl) null
          refine ⟨Nat.le_refl _, fun address inside => ?_, fun other member => ?_⟩
          · rw [State.memoryAfter, if_neg (by simp [set])]
            exact lawful.cleared nmemb size hook null address inside
          · have wide := apart other member (by rw [noPointer]; exact Option.some_ne_none _)
            exact (wide.symm.front (Nat.le_max_right 1 _)).symm
    | false =>
        simp only [State.callocBlock, set, Bool.false_eq_true, if_false, Option.mem_def,
          Option.some.injEq] at returned
        subst returned
        obtain ⟨fits, _⟩ := sound.calloc nmemb size hook set
        refine ⟨fits, fun address inside => ?_, fun other member => ?_⟩
        · have inBlock : (State.emptyBlock emptyData).Contains address :=
            ⟨inside.1, Nat.lt_of_lt_of_le inside.2 (Nat.add_le_add_left fits _)⟩
          rw [State.memoryAfter, if_pos ⟨set, inBlock⟩]
        · exact sound.boot_apart tidy hook set member
  · intro p handed set nonnull
    rcases lawful.held p handed nonnull with ⟨same, _⟩ | ⟨block, member, base⟩
    · exact absurd same (sound.handedOn p handed set nonnull)
    · rw [← base]
      exact (tidy.heap block member).1

-----------------------------------------------------------------------------------------
-- Blocks stay out of the static buffer
-----------------------------------------------------------------------------------------

/-- A fresh grant keeps the blocks apart. -/
theorem Tidy.grant (tidy : Tidy emptyData state) {ret : Word} {size : Nat}
    (fresh : ret ≠ 0 → (⟨ret.val, max 1 size⟩ : Block).Apart (State.emptyBlock emptyData))
    : Tidy emptyData (state.grant ret size) := by
  unfold State.grant
  split
  case isTrue => exact tidy
  case isFalse nonnull =>
      have apart := fresh nonnull
      refine ⟨?_, tidy.logs, ?_⟩
      · refine List.forall_mem_cons.mpr ⟨⟨List.mem_cons_self, ?_⟩, fun block member => ?_⟩
        · exact (apart.symm.front (Nat.le_max_right 1 size)).symm
        · exact ⟨List.mem_cons_of_mem _ (tidy.heap block member).1, (tidy.heap block member).2⟩
      · refine List.forall_mem_cons.mpr ⟨?_, tidy.returned⟩
        exact apart.not_contains (Nat.lt_of_lt_of_le Nat.one_pos (Nat.le_max_left 1 size))

/-- A release keeps the blocks apart. -/
theorem Tidy.release (tidy : Tidy emptyData state) (p : Word)
    : Tidy emptyData (state.release emptyData p) := by
  unfold State.release
  split
  · exact ⟨tidy.heap, tidy.logs, tidy.returned⟩
  · exact ⟨fun block member => tidy.heap block (List.mem_of_mem_eraseP member), tidy.logs,
      tidy.returned⟩

/-- A fresh log buffer keeps the blocks apart. -/
theorem Tidy.takeLog (tidy : Tidy emptyData state) {buffer : Word}
    (fresh : buffer ≠ 0
      → (⟨buffer.val, logSize⟩ : Block).Apart (State.emptyBlock emptyData))
    : Tidy emptyData (state.takeLog buffer) := by
  unfold State.takeLog
  split
  case isTrue => exact tidy
  case isFalse nonnull =>
      have apart := fresh nonnull
      refine ⟨fun block member => ?_, List.forall_mem_cons.mpr ⟨apart, tidy.logs⟩,
        List.forall_mem_cons.mpr ⟨apart.not_contains logSize_pos, tidy.returned⟩⟩
      exact ⟨List.mem_cons_of_mem _ (tidy.heap block member).1, (tidy.heap block member).2⟩

/-- Whatever a hook is asked for, its answer keeps the blocks apart. -/
theorem Tidy.serve (tidy : Tidy emptyData state)
    (fresh
      : ∀ size, requested request.hook = some size → request.ret ≠ 0
        → (⟨request.ret.val, max 1 size⟩ : Block).Apart (State.emptyBlock emptyData))
    : Tidy emptyData (state.serve emptyData request) := by
  unfold State.serve
  cases hook : request.hook with
  | free p => exact tidy.release p
  | realloc ptr size =>
      dsimp only
      split
      · split
        · exact tidy.release ptr
        · exact tidy
      · exact (tidy.release ptr).grant (fresh _ (by rw [hook]; rfl))
  | malloc sz => exact tidy.grant (fresh _ (by rw [hook]; rfl))
  | calloc nmemb size => exact tidy.grant (fresh _ (by rw [hook]; rfl))
  | memalign align sz => exact tidy.grant (fresh _ (by rw [hook]; rfl))
  | posixMemalign align sz => exact tidy.grant (fresh _ (by rw [hook]; rfl))
  | mmap length flags => exact tidy
  | mmap64 length flags => exact tidy
  | munmap start length => exact tidy

/-- The preparations of a hook change no block. -/
theorem Tidy.prepare (tidy : Tidy emptyData state) (hook : Hook)
    : Tidy emptyData (state.prepare hook) := by
  cases hook with
  | malloc sz =>
      unfold State.prepare
      dsimp only
      split
      · exact tidy
      · unfold State.mInit
        split
        · exact tidy
        · exact ⟨tidy.heap, tidy.logs, tidy.returned⟩
  | _ => exact tidy

/-- A lawful call keeps the blocks of libc out of the static buffer. -/
theorem Tidy.exec (tidy : Tidy emptyData state) (lawful : Lawful emptyData state request)
    : Tidy emptyData (state.exec emptyData request) := by
  unfold State.exec
  rw [if_neg (by simp [lawful.alive])]
  dsimp only
  have prepared := tidy.prepare request.hook
  split
  · refine Tidy.takeLog (prepared.serve fun size asked nonnull => ?_) fun nonnull => ?_
    · exact (lawful.fresh size asked nonnull).1
    · exact (lawful.log nonnull).1
  · split
    · exact ⟨prepared.heap, prepared.logs, prepared.returned⟩
    · exact ⟨prepared.heap, prepared.logs, prepared.returned⟩

-----------------------------------------------------------------------------------------
-- Runs
-----------------------------------------------------------------------------------------

/-- A condition on the calls of a run. -/
def OnCalls (holds : State → Request → Prop) (state : State) : Event → Prop
  | .call request => holds state request
  | _ => True

/-- A lawful call keeps the state tidy. -/
theorem Tidy.step (tidy : Tidy emptyData state) {event : Event}
    (lawful : OnCalls (Lawful emptyData) state event)
    : Tidy emptyData (step emptyData state event) := by
  cases event with
  | enter => exact ⟨tidy.heap, tidy.logs, tidy.returned⟩
  | resolve =>
      unfold Bootstrap.step
      dsimp only
      split
      · exact ⟨tidy.heap, tidy.logs, tidy.returned⟩
      · exact tidy
  | call request => exact tidy.exec lawful

/-- In every run from the loading of the process on, all calls are safe exactly if all of them are
sound. Witness: the blocks of libc stay out of the static buffer.
-/
theorem run_safe_iff (emptyData : Nat) (events : List Event)
    (lawful : Along (step emptyData) (OnCalls (Lawful emptyData)) initial events)
    : Along (step emptyData) (OnCalls (Safe emptyData)) initial events
      ↔ Along (step emptyData) (OnCalls (Sound emptyData)) initial events := by
  have tidy : Tidy emptyData initial := initial_tidy
  generalize initial = state at tidy lawful ⊢
  induction events generalizing state with
  | nil => exact Iff.rfl
  | cons event events ih =>
      have first : OnCalls (Safe emptyData) state event
          ↔ OnCalls (Sound emptyData) state event := by
        cases event with
        | call request => exact safe_iff_sound tidy lawful.1
        | _ => exact Iff.rfl
      exact and_congr first (ih _ (tidy.step lawful.1) lawful.2)

/-- A call on cleared memory without a new log buffer. -/
def plainCall (hook : Hook) (ret : Word) : Event := .call ⟨hook, ret, 0, fun _ => 0⟩

/-- One small `calloc` during the lookups, and blocks of libc behind them. -/
def startUp : List Event :=
  [.enter, plainCall (.calloc 1 32) 0, .resolve, .resolve, .resolve, .resolve,
    plainCall (.malloc 100) 0x200000, plainCall (.free 0x200000) 0]

/-- A null answer promises nothing. -/
theorem lawful_null {hook : Hook} (alive : state.crashed = false)
    (held
      : ∀ p, handedOn hook = some p → p ≠ 0
        → (p.val = emptyData ∧ state.boot ≠ [])
          ∨ ∃ block ∈ state.heap, block.base = p.val)
    : Lawful emptyData state ⟨hook, 0, 0, fun _ => 0⟩ where
  alive := alive
  held := held
  fresh := fun _ _ nonnull => absurd rfl nonnull
  cleared := fun _ _ _ nonnull => absurd rfl nonnull
  log := fun nonnull => absurd rfl nonnull

/-- The calls at a start are lawful. -/
theorem startUp_lawful
    : Along (step 0x10000) (OnCalls (Lawful 0x10000)) initial startUp := by
  refine ⟨trivial, lawful_null rfl nofun, trivial, trivial, trivial, trivial, ?_,
    lawful_null rfl ?_, trivial⟩
  · refine ⟨rfl, nofun, ?_, nofun, fun nonnull => absurd rfl nonnull⟩
    rintro _ ⟨⟩ _
    decide
  · rintro _ ⟨⟩ _
    exact .inr ⟨⟨0x200000, 100⟩, by decide, rfl⟩

theorem run_safe_iff_startUp
    : Along (step 0x10000) (OnCalls (Safe 0x10000)) initial startUp
      ↔ Along (step 0x10000) (OnCalls (Sound 0x10000)) initial startUp :=
  run_safe_iff 0x10000 startUp startUp_lawful

/-- Two requests in front of the lookups. -/
def twoCallocs : List Event := [plainCall (.calloc 1 32) 0, plainCall (.calloc 1 32) 0]

/-- The second one gets the bytes of the first. -/
theorem twoCallocs_overlap
    : Along (step 0x10000) (OnCalls (Lawful 0x10000)) initial twoCallocs
      ∧ ¬ Along (step 0x10000) (OnCalls (Safe 0x10000)) initial twoCallocs := by
  refine ⟨⟨lawful_null rfl nofun, lawful_null rfl nofun, trivial⟩, ?_⟩
  rintro ⟨_, safe, _⟩
  obtain ⟨_, _, apart⟩ := safe.calloc 1 32 rfl ⟨0x10000, 65536⟩ rfl
  have shared := apart ⟨0x10000, 32⟩ (by decide)
  revert shared
  decide

end Kumf.Prof.Bootstrap
