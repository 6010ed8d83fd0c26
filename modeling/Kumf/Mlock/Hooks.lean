import Kumf.Interc.Ledger
import Kumf.Library.CText

/-! The mlock library: the hot page list, `try_mlock` under its budget, the table of large
allocations, and the four hooks. Libc and the `mlock` system call answer through `Replies`;
every call made to them is listed as an `Event`.
-/

namespace Kumf.Mlock

open Kumf.Library
open Kumf.Interc (Addr Op)

def maxHotPages : Nat := 8192
def routeThreshold : Nat := 4096
def mlockBudgetMb : Nat := 10
def mlockFirstN : Int := 20
def allocHashSize : Nat := 2 ^ 14

/-- The size of a `struct alloc_entry`. -/
def entrySize : Nat := 32

/-- `struct alloc_entry`; `loc` is the address of the entry itself. -/
structure AllocEntry where
  loc : Addr
  addr : Addr
  size : Nat
  accessCount : Int
  locked : Bool
  deriving DecidableEq, Repr

/-- `alloc_hash`: `(addr >> 12) & ALLOC_HASH_MASK` -/
def allocHash (addr : Addr) : Fin allocHashSize :=
  ⟨addr / 2 ^ 12 % allocHashSize, Nat.mod_lt _ (by decide)⟩

abbrev AllocTable := ChainedTable allocHash AllocEntry.addr

/-- The globals; `num_hot_pages` is the length of the list of hot pages. -/
structure Globals where
  hotPages : List Nat
  hotPagesLoaded : Bool
  totalLockedBytes : Nat
  mlockBudget : Nat
  pagesLocked : Int
  pagesSkipped : Int
  allocCount : Int
  allocTable : AllocTable

/-- A call of libc or of the kernel with its answer. Those on pages name the block that they
are made for.
-/
inductive Event where
  | libcMalloc (size : Nat) (ret : Option Addr)
  | libcCalloc (nmemb size : Nat) (ret : Option Addr)
  | libcRealloc (ptr : Option Addr) (size : Nat) (ret : Option Addr)
  | libcFree (ptr : Addr)
  | mlock (block start length : Nat) (done : Bool)
  | munlock (block start length : Nat)
  deriving DecidableEq, Repr

/-- What libc and the kernel answer during one operation: each is asked at most once. -/
structure Replies where
  libc : Option Addr
  entry : Option Addr
  mlock : Bool

structure Outcome where
  globals : Globals
  ret : Option Addr
  events : List Event

-----------------------------------------------------------------------------------------
-- The hot page list
-----------------------------------------------------------------------------------------

/-- The page of a line of the list: no comment, no empty line, and not page zero. -/
def hotPageOf (line : List Char) : Option Nat :=
  let text := (cString line).dropWhile (fun c => c = ' ' || c = '\t')
  if text.head? = some '#' ∨ text.head? = some '\n' then
    none
  else
    match scanUnsigned 16 (text.dropWhile isCSpace) with
    | some (addr, _) => if addr = 0 then none else some addr
    | none => none

/-- `load_hot_pages`; no file leaves the list empty. -/
def loadHotPages (file : Option (List Char)) (globals : Globals) : Globals :=
  if globals.hotPagesLoaded then
    globals
  else
    let pages :=
      match file with
      | some content => ((fgetsAll 128 content).filterMap hotPageOf).take maxHotPages
      | none => []
    { globals with
      hotPages := pages
      hotPagesLoaded := true
      mlockBudget := mlockBudgetMb * 1024 * 1024 }

/-- The globals of a process before the constructor. -/
def unloaded : Globals where
  hotPages := []
  hotPagesLoaded := false
  totalLockedBytes := 0
  mlockBudget := 0
  pagesLocked := 0
  pagesSkipped := 0
  allocCount := 0
  allocTable := .empty

/-- `is_hot_page` -/
def isHotPage (globals : Globals) (addr : Addr) : Bool :=
  globals.hotPages.any (fun page => page = addr / 4096 * 4096)

-----------------------------------------------------------------------------------------
-- Locking and tracking
-----------------------------------------------------------------------------------------

/-- `addr & ~0xFFF` -/
def pageStart (addr : Addr) : Nat := addr / 4096 * 4096

/-- `(addr + size + 4095) & ~0xFFF`, in 64 bits -/
def pageEnd (addr : Addr) (size : Nat) : Nat := (addr + size + 4095) % 2 ^ 64 / 4096 * 4096

/-- `page_end - page_start`, in 64 bits -/
def lockSize (addr : Addr) (size : Nat) : Nat :=
  (pageEnd addr size + (2 ^ 64 - pageStart addr)) % 2 ^ 64

/-- `try_mlock` of a block -/
def tryMlock (globals : Globals) (addr : Addr) (size : Nat) (answer : Bool)
    : Globals × List Event :=
  if size = 0 then
    (globals, [])
  else
    let globals := { globals with allocCount := toInt32 (globals.allocCount + 1) }
    let skipped := { globals with pagesSkipped := toInt32 (globals.pagesSkipped + 1) }
    if mlockFirstN < globals.allocCount then
      (skipped, [])
    else if 0 < globals.mlockBudget
        ∧ globals.mlockBudget < (globals.totalLockedBytes + lockSize addr size) % 2 ^ 64 then
      (skipped, [])
    else
      let event := Event.mlock addr (pageStart addr) (lockSize addr size) answer
      if answer then
        ({ globals with
            totalLockedBytes := (globals.totalLockedBytes + lockSize addr size) % 2 ^ 64
            pagesLocked := toInt32 (globals.pagesLocked + 1) },
          [event])
      else
        (globals, [event])

/-- `record_alloc`. With a hot page list the entry ends up with `locked` set, whatever
`try_mlock` did.
-/
def recordAlloc (globals : Globals) (ptr : Option Addr) (size : Nat) (replies : Replies)
    : Globals × List Event :=
  match ptr with
  | none => (globals, [])
  | some addr =>
      if size ≤ routeThreshold then
        (globals, [])
      else
        match replies.entry with
        | none => (globals, [.libcMalloc entrySize none])
        | some loc =>
            let hot := decide (globals.hotPages ≠ [])
            let entry := { loc, addr, size, accessCount := 0, locked := hot : AllocEntry }
            let globals := { globals with allocTable := globals.allocTable.push entry }
            if hot then
              let (globals, events) := tryMlock globals addr size replies.mlock
              (globals, .libcMalloc entrySize (some loc) :: events)
            else
              (globals, [.libcMalloc entrySize (some loc)])

/-- `remove_alloc` -/
def removeAlloc (globals : Globals) (ptr : Addr) : Globals × List Event :=
  match globals.allocTable.unlink ptr with
  | none => (globals, [])
  | some (entry, table) =>
      let globals := { globals with allocTable := table }
      if entry.locked = true ∧ 0 < entry.size then
        let unlockSize := lockSize entry.addr entry.size
        let total :=
          if unlockSize ≤ globals.totalLockedBytes then
            globals.totalLockedBytes - unlockSize
          else
            0
        ({ globals with totalLockedBytes := total },
          [.munlock entry.addr (pageStart entry.addr) unlockSize, .libcFree entry.loc])
      else
        (globals, [.libcFree entry.loc])

-----------------------------------------------------------------------------------------
-- The hooks
-----------------------------------------------------------------------------------------

/-- Track a new block once the list has been read. -/
def track (globals : Globals) (ptr : Option Addr) (size : Nat) (replies : Replies)
    : Globals × List Event :=
  if globals.hotPagesLoaded then recordAlloc globals ptr size replies else (globals, [])

/-- `malloc` -/
def malloc (globals : Globals) (replies : Replies) (sz : Nat) : Outcome :=
  let (globals, events) := track globals replies.libc sz replies
  { globals, ret := replies.libc, events := .libcMalloc sz replies.libc :: events }

/-- `calloc`; the product is taken in `size_t`. -/
def calloc (globals : Globals) (replies : Replies) (nmemb size : Nat) : Outcome :=
  let (globals, events) := track globals replies.libc (nmemb * size % 2 ^ 64) replies
  { globals, ret := replies.libc, events := .libcCalloc nmemb size replies.libc :: events }

/-- `realloc` -/
def realloc (globals : Globals) (replies : Replies) (ptr : Option Addr) (size : Nat)
    : Outcome :=
  let (globals, removal) :=
    match ptr with
    | some p => removeAlloc globals p
    | none => (globals, [])
  let (globals, events) := track globals replies.libc size replies
  { globals
    ret := replies.libc
    events := removal ++ .libcRealloc ptr size replies.libc :: events }

/-- `free` -/
def free (globals : Globals) (ptr : Option Addr) : Outcome :=
  match ptr with
  | none => { globals, ret := none, events := [] }
  | some p =>
      let (globals, removal) :=
        if globals.hotPagesLoaded then removeAlloc globals p else (globals, [])
      { globals, ret := none, events := removal ++ [.libcFree p] }

/-- One call into the library; the C++ operators call `malloc` and `free`. -/
structure Call where
  replies : Replies
  op : Op

def exec (globals : Globals) (call : Call) : Outcome :=
  match call.op with
  | .malloc sz => malloc globals call.replies sz
  | .calloc nmemb size => calloc globals call.replies nmemb size
  | .realloc ptr size => realloc globals call.replies ptr size
  | .free ptr => free globals ptr

end Kumf.Mlock
