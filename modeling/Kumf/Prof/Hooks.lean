import Kumf.Prof.Log
import Mathlib.Logic.Function.Basic

/-! The hooks of the prof library. Each thread has a log of fixed size in a buffer from libc, and
a hook that records fills its next entry.
-/

namespace Kumf.Prof

open Kumf.Library

def arrSize : Nat := 1000000
def maxTid : Nat := 512

/-- An interposed function, with the arguments that it records. -/
inductive Hook where
  | malloc (sz : Word)
  | calloc (nmemb size : Word)
  | realloc (ptr size : Word)
  | memalign (align sz : Word)
  | posixMemalign (align sz : Word)
  | free (p : Word)
  | mmap (length : Word) (flags : Int)
  | mmap64 (length : Word) (flags : Int)
  | munmap (start length : Word)
  deriving DecidableEq, Repr

namespace Hook

def entryType : Hook → Int
  | malloc _ => 1
  | calloc _ _ => 3
  | realloc _ _ => 4
  | memalign _ _ => 5
  | posixMemalign _ _ => 6
  | free _ => 2
  | mmap _ flags => toInt32 (flags + 100)
  | mmap64 _ flags => toInt32 (flags + 200)
  | munmap _ _ => 90

def size : Hook → Word
  | malloc sz => sz
  | calloc nmemb size => nmemb * size
  | realloc _ size => size
  | memalign _ sz => sz
  | posixMemalign _ sz => sz
  | free _ => 0
  | mmap length _ => length
  | mmap64 length _ => length
  | munmap _ length => length

/-- The recorded address, with the pointer that the call gives. -/
def addr (ret : Word) : Hook → Word
  | free p => p
  | munmap start _ => start
  | _ => ret

/-- Whether the function allocates. -/
def allocates : Hook → Bool
  | free _ => false
  | munmap _ _ => false
  | _ => true

/-- The hooks that are silent while another one of the thread is inside libc. -/
def maps : Hook → Bool
  | mmap _ _ => true
  | mmap64 _ _ => true
  | munmap _ _ => true
  | _ => false

end Hook

/-- A call of a hook: the thread, the pointer that libc gives (for `posix_memalign` the one at
`ptr`), the clock, the return address, the two flags of the thread as the hook finds them, and
what `get_log` would be given as a buffer.
-/
structure Call where
  thread : Nat
  tid : Nat
  hook : Hook
  ret : Word
  rdt : Word
  caller : Word
  inTrace : Bool
  inOurAlloc : Bool
  buffer : Option (Nat → LogEntry)

/-- The test in front of `get_log`. -/
def Call.records (call : Call) : Bool :=
  !call.inTrace && !(call.hook.maps && call.inOurAlloc)

/-- The fields that a hook writes into an entry. `free` leaves the caller as it is. -/
def Call.fill (call : Call) (old : LogEntry) : LogEntry where
  rdt := call.rdt
  addr := call.hook.addr call.ret
  size := call.hook.size
  entryType := call.hook.entryType
  callerAddr :=
    match call.hook with
    | .free _ => old.callerAddr
    | _ => call.caller

/-- `log_arr[i]` and `log_index[i]`; an array that is missing is `NULL`. -/
structure ThreadLog where
  entries : Option (Nat → LogEntry)
  index : Nat

inductive Ending where
  | running
  | exited
  | crashed
  deriving DecidableEq, Repr

/-- The state of the library. `tids` are the entries of the table that are set, from index 1 on,
and `tidIndex` is the index of each thread, 0 before its first record.
-/
structure Globals where
  ready : Bool
  tids : List Nat
  tidIndex : Nat → Nat
  logs : Nat → ThreadLog
  ending : Ending

/-- The process as it is loaded. -/
def unloaded : Globals where
  ready := false
  tids := []
  tidIndex := fun _ => 0
  logs := fun _ => ⟨none, 0⟩
  ending := .running

/-- The pointer that `get_log` returns. -/
inductive Slot where
  | null
  | entry (log index : Nat)
  | wild
  | tooManyThreads
  deriving DecidableEq, Repr

namespace Globals

def setLog (globals : Globals) (index : Nat) (log : ThreadLog) : Globals :=
  { globals with logs := Function.update globals.logs index log }

/-- The registration of a thread; `none` when the table is full. -/
def claimThread (globals : Globals) (thread tid : Nat) : Option Globals :=
  if globals.tidIndex thread ≠ 0 then
    some globals
  else if globals.tids.length + 1 < maxTid then
    some { globals with
      tids := globals.tids ++ [tid]
      tidIndex := Function.update globals.tidIndex thread (globals.tids.length + 1) }
  else
    none

/-- The buffer of a thread, which is asked for as long as there is none. -/
def bufferFor (globals : Globals) (call : Call) : Option (Nat → LogEntry) :=
  (globals.logs (globals.tidIndex call.thread)).entries.or call.buffer

/-- `get_log`. Without a buffer the index counts on, and the pointer is an offset from `NULL`. -/
def getLog (globals : Globals) (call : Call) : Globals × Slot :=
  match globals.claimThread call.thread call.tid with
  | none => (globals, .tooManyThreads)
  | some globals =>
      let i := globals.tidIndex call.thread
      let index := (globals.logs i).index
      let entries := globals.bufferFor call
      if arrSize ≤ index then
        (globals.setLog i ⟨entries, index⟩, .null)
      else
        (globals.setLog i ⟨entries, index + 1⟩,
          if entries.isSome then .entry i index else if index = 0 then .null else .wild)

/-- Fill an entry of a log. -/
def writeEntry (globals : Globals) (i index : Nat) (fill : LogEntry → LogEntry) : Globals :=
  let log := globals.logs i
  globals.setLog i { log with
    entries := log.entries.map
      (fun entries => Function.update entries index (fill (entries index))) }

/-- The recording part of a hook. -/
def record (globals : Globals) (call : Call) : Globals :=
  match globals.getLog call with
  | (globals, .null) => globals
  | (globals, .entry i index) => globals.writeEntry i index call.fill
  | (globals, .wild) => { globals with ending := .crashed }
  | (globals, .tooManyThreads) => { globals with ending := .exited }

/-- Whether the pointers to libc are set when a hook records: `malloc` runs `m_init`. -/
def readyFor (globals : Globals) : Hook → Bool
  | .malloc _ => true
  | _ => globals.ready

/-- A call of a hook. Before `m_init`, `calloc` gives static memory, and the others but
`malloc` call a `NULL` pointer.
-/
def exec (globals : Globals) (call : Call) : Globals :=
  if globals.ending ≠ .running then
    globals
  else if globals.readyFor call.hook then
    let globals := { globals with ready := true }
    if call.records then globals.record call else globals
  else
    match call.hook with
    | .calloc _ _ => globals
    | _ => { globals with ending := .crashed }

/-- The constructor. -/
def mInit (globals : Globals) : Globals := { globals with ready := true }

end Globals

/-- The entries of a log that `prof_cleanup` prints. -/
def ThreadLog.printed (log : ThreadLog) : List LogEntry :=
  match log.entries with
  | some entries => (List.range log.index).map entries
  | none => []

/-- `prof_cleanup`: the entries appended to the file of each thread id. There is no log when the
process crashes, before or inside it.
-/
def profCleanup (globals : Globals) : Option (List (Nat × List LogEntry)) :=
  let slots := globals.tids.zipIdx 1
  if globals.ending = .crashed
      ∨ slots.any (fun slot => (globals.logs slot.2).entries.isNone
        && (globals.logs slot.2).index ≠ 0) = true then
    none
  else
    some (slots.map (fun slot => (slot.1, (globals.logs slot.2).printed)))

end Kumf.Prof
