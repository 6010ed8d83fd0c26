import Kumf.Interc.Routing
import Kumf.Library.ChainedTable

/-! The intercepted `malloc`, `calloc`, `realloc` and `free` of interc, as functions on the
library's globals. The back ends answer through `Replies`; every call made to them is
listed as an `Event` in the order of the source.
-/

namespace Kumf.Interc

open Kumf.Library

/-- An address; a null pointer is `none`. -/
abbrev Addr := Nat

inductive Mode where
  | batch
  | perThread
  | routing
  | passive
  deriving DecidableEq, Repr

def routeThreshold : Nat := 4096
def addrHashSize : Nat := 2 ^ 16

/-- The size of a `struct addr_entry`, asked of `libc_malloc` for each entry. -/
def entrySize : Nat := 24

/-- `struct addr_entry`; `loc` is the address of the entry itself. -/
structure AddrEntry where
  loc : Addr
  addr : Addr
  size : Nat
  deriving DecidableEq, Repr

/-- `addr_hash_fn`: `(addr >> 12) & ADDR_HASH_MASK` -/
def addrHashFn (addr : Addr) : Fin addrHashSize :=
  ⟨addr / 2 ^ 12 % addrHashSize, Nat.mod_lt _ (by decide)⟩

abbrev AddrHash := ChainedTable addrHashFn AddrEntry.addr

/-- The globals that the four hooks use. -/
structure Globals where
  mode : Mode
  rules : RuleState
  routingEverUsed : Bool
  addrHash : AddrHash
  locals : Nat → ThreadLocals

/-- The blocks that the table records, with their sizes. -/
def Globals.recorded (globals : Globals) : List (Addr × Nat) :=
  globals.addrHash.entries.map (fun entry => (entry.addr, entry.size))

/-- A call of a back end or of `memcpy`, with its answer. -/
inductive Event where
  | numaAllocOnnode (size : Nat) (node : Int) (ret : Option Addr)
  | numaFree (addr : Addr) (size : Nat)
  | libcMalloc (size : Nat) (ret : Option Addr)
  | libcCalloc (nmemb size : Nat) (ret : Option Addr)
  | libcRealloc (ptr : Addr) (size : Nat) (ret : Option Addr)
  | libcFree (ptr : Addr)
  | memcpy (dst src : Addr) (count : Nat)
  deriving DecidableEq, Repr

/-- What the back ends answer during one operation: each is asked at most once. -/
structure Replies where
  numa : Option Addr
  entry : Option Addr
  libc : Option Addr

/-- The surroundings of a call: the thread, its return address and CPU, and what an
unfinished `load_rules` would find.
-/
structure CallSite where
  thread : Nat
  caller : Addr
  place : CpuPlace
  stale : List Char
  conf : Option (List Char)

structure Outcome where
  globals : Globals
  ret : Option Addr
  events : List Event

/-- `record_seg` -/
def recordSeg (globals : Globals) (addr : Addr) (size : Nat) (reply : Option Addr)
    : Globals × List Event :=
  match reply with
  | none => (globals, [.libcMalloc entrySize none])
  | some loc =>
      ({ globals with addrHash := globals.addrHash.push { loc, addr, size } },
        [.libcMalloc entrySize (some loc)])

/-- `check_and_remove_seg` -/
def checkAndRemoveSeg (globals : Globals) (addr : Addr) : Nat × Globals × List Event :=
  match globals.addrHash.unlink addr with
  | none => (0, globals, [])
  | some (entry, addrHash) =>
      (entry.size, { globals with addrHash }, [.libcFree entry.loc])

/-- The routing block that `malloc` and `calloc` share; no pointer means that the caller
falls through to libc.
-/
def tryRoute (site : CallSite) (replies : Replies) (globals : Globals) (sz : Nat)
    : Outcome :=
  if globals.rules.layer2Active = true ∧ routeThreshold < sz then
    let rules := loadRules site.stale site.conf globals.rules
    let resolution := resolveNode site.place rules globals.routingEverUsed
      (globals.locals site.thread) site.caller sz
    let globals := { globals with
      rules
      routingEverUsed := resolution.routingEverUsed
      locals := Function.update globals.locals site.thread resolution.locals }
    if 0 ≤ resolution.node then
      match replies.numa with
      | some addr =>
          let (globals, events) := recordSeg globals addr sz replies.entry
          { globals
            ret := some addr
            events := .numaAllocOnnode sz resolution.node (some addr) :: events }
      | none =>
          { globals, ret := none, events := [.numaAllocOnnode sz resolution.node none] }
    else
      { globals, ret := none, events := [] }
  else
    { globals, ret := none, events := [] }

/-- What the caller of the shared block does without a routed block: ask libc. -/
def Outcome.orLibc (routed : Outcome) (reply : Option Addr) (asked : Event) : Outcome :=
  match routed.ret with
  | some _ => routed
  | none =>
      { globals := routed.globals
        ret := reply
        events := routed.events ++ [asked] }

/-- `malloc` -/
def malloc (site : CallSite) (replies : Replies) (globals : Globals) (sz : Nat) : Outcome :=
  if globals.mode = .passive then
    { globals, ret := replies.libc, events := [.libcMalloc sz replies.libc] }
  else
    (tryRoute site replies globals sz).orLibc replies.libc (.libcMalloc sz replies.libc)

/-- `calloc`; the product is taken in `size_t`. -/
def calloc (site : CallSite) (replies : Replies) (globals : Globals) (nmemb size : Nat)
    : Outcome :=
  if globals.mode = .passive then
    { globals, ret := replies.libc, events := [.libcCalloc nmemb size replies.libc] }
  else
    let total := nmemb * size % 2 ^ 64
    (tryRoute site replies globals total).orLibc replies.libc
      (.libcCalloc nmemb size replies.libc)

/-- `realloc` -/
def realloc (site : CallSite) (replies : Replies) (globals : Globals) (ptr : Option Addr)
    (size : Nat)
    : Outcome :=
  if globals.mode = .passive then
    match ptr with
    | none => { globals, ret := replies.libc, events := [.libcMalloc size replies.libc] }
    | some p => { globals, ret := replies.libc, events := [.libcRealloc p size replies.libc] }
  else
    match ptr with
    | none => malloc site replies globals size
    | some p =>
        let (oldSz, globals, removal) := checkAndRemoveSeg globals p
        if 0 < oldSz then
          let inner := malloc site replies globals size
          match inner.ret with
          | some newAddr =>
              let count := if oldSz < size then oldSz else size
              { globals := inner.globals
                ret := some newAddr
                events := removal ++ inner.events
                  ++ [.memcpy newAddr p count, .numaFree p oldSz] }
          | none =>
              { globals := inner.globals, ret := none, events := removal ++ inner.events }
        else
          { globals
            ret := replies.libc
            events := removal ++ [.libcRealloc p size replies.libc] }

/-- `free` -/
def free (globals : Globals) (ptr : Option Addr) : Outcome :=
  match ptr with
  | none => { globals, ret := none, events := [] }
  | some p =>
      if globals.mode = .passive then
        { globals, ret := none, events := [.libcFree p] }
      else if globals.routingEverUsed = false then
        { globals, ret := none, events := [.libcFree p] }
      else
        let (sz, globals, removal) := checkAndRemoveSeg globals p
        if 0 < sz then
          { globals, ret := none, events := removal ++ [.numaFree p sz] }
        else
          { globals, ret := none, events := removal ++ [.libcFree p] }

inductive Op where
  | malloc (sz : Nat)
  | calloc (nmemb size : Nat)
  | realloc (ptr : Option Addr) (size : Nat)
  | free (ptr : Option Addr)
  deriving DecidableEq, Repr

/-- One call into the library; the C++ operators call `malloc` and `free`. -/
structure Call where
  site : CallSite
  replies : Replies
  op : Op

def exec (globals : Globals) (call : Call) : Outcome :=
  match call.op with
  | .malloc sz => malloc call.site call.replies globals sz
  | .calloc nmemb size => calloc call.site call.replies globals nmemb size
  | .realloc ptr size => realloc call.site call.replies globals ptr size
  | .free ptr => free globals ptr

-----------------------------------------------------------------------------------------
-- The four ways through the shared block
-----------------------------------------------------------------------------------------

/-- Whether the shared block sends a request of this size to `numa_alloc_onnode`. -/
def Globals.Routes (globals : Globals) (caller : Addr) (sz : Nat) : Prop :=
  globals.rules.layer2Active = true
  ∧ routeThreshold < sz
  ∧ (0 ≤ matchSize globals.rules.tables.sizeRules sz
    ∨ 0 ≤ matchAddr globals.rules.tables.addrRules caller)

/-- The parts of the globals that an operation leaves alone. -/
structure SameSetup (before after : Globals) : Prop where
  mode : after.mode = before.mode
  rules : after.rules = before.rules

theorem SameSetup.refl (globals : Globals) : SameSetup globals globals := ⟨rfl, rfl⟩

theorem SameSetup.trans {first second third : Globals} (left : SameSetup first second)
    (right : SameSetup second third)
    : SameSetup first third :=
  ⟨right.mode.trans left.mode, right.rules.trans left.rules⟩

/-- Everything the shared block can do. It hands out a block of `numa_alloc_onnode`, with
or without an entry in the table; or `numa_alloc_onnode` refuses; or no rule applies.
-/
inductive RouteStep (site : CallSite) (replies : Replies) (globals : Globals) (sz : Nat)
    : Outcome → Prop where
  | recorded {addr loc node after}
    (selected : globals.Routes site.caller sz)
    (granted : replies.numa = some addr)
    (entry : replies.entry = some loc)
    (setup : SameSetup globals after)
    (used : after.routingEverUsed = true)
    (pushed : after.addrHash = globals.addrHash.push ⟨loc, addr, sz⟩)
    : RouteStep site replies globals sz
        ⟨after, some addr,
          [.numaAllocOnnode sz node (some addr), .libcMalloc entrySize (some loc)]⟩
  | unrecorded {addr node after}
    (selected : globals.Routes site.caller sz)
    (granted : replies.numa = some addr)
    (entry : replies.entry = none)
    (setup : SameSetup globals after)
    (used : after.routingEverUsed = true)
    (same : after.addrHash = globals.addrHash)
    : RouteStep site replies globals sz
        ⟨after, some addr, [.numaAllocOnnode sz node (some addr), .libcMalloc entrySize none]⟩
  | refused {node after}
    (selected : globals.Routes site.caller sz)
    (denied : replies.numa = none)
    (setup : SameSetup globals after)
    (used : globals.routingEverUsed = true → after.routingEverUsed = true)
    (same : after.addrHash = globals.addrHash)
    : RouteStep site replies globals sz ⟨after, none, [.numaAllocOnnode sz node none]⟩
  | unrouted {after}
    (skipped : ¬ globals.Routes site.caller sz)
    (setup : SameSetup globals after)
    (used : globals.routingEverUsed = true → after.routingEverUsed = true)
    (same : after.addrHash = globals.addrHash)
    : RouteStep site replies globals sz ⟨after, none, []⟩

theorem resolveNode_named_iff (place : CpuPlace) {rules : RuleState} (used : Bool)
    (locals : ThreadLocals) (caller sz : Nat) (active : rules.layer2Active = true)
    : 0 ≤ (resolveNode place rules used locals caller sz).node
      ↔ 0 ≤ matchSize rules.tables.sizeRules sz
        ∨ 0 ≤ matchAddr rules.tables.addrRules caller := by
  rw [resolveNode_node place used locals caller sz active]
  split
  case isTrue named => simp [named]
  case isFalse unnamed =>
      split
      case isTrue named => simp [named]
      case isFalse alsoUnnamed => simp [unnamed, alsoUnnamed]

theorem resolveNode_used {place : CpuPlace} {rules : RuleState} {used : Bool}
    {locals : ThreadLocals} {caller sz : Nat}
    : ((resolveNode place rules used locals caller sz).routingEverUsed = used
        ∨ (resolveNode place rules used locals caller sz).routingEverUsed = true)
      ∧ (0 ≤ (resolveNode place rules used locals caller sz).node
        → (resolveNode place rules used locals caller sz).routingEverUsed = true) := by
  unfold resolveNode
  split
  · simp
  · dsimp only
    split
    · simp
    · split <;> simp

theorem tryRoute_step (site : CallSite) (replies : Replies) (globals : Globals) (sz : Nat)
    : RouteStep site replies globals sz (tryRoute site replies globals sz) := by
  unfold tryRoute
  split
  case isFalse below =>
      exact .unrouted (fun routes => below ⟨routes.1, routes.2.1⟩) (.refl _) id rfl
  case isTrue above =>
      have named := resolveNode_named_iff site.place globals.routingEverUsed
        (globals.locals site.thread) site.caller sz above.1
      obtain ⟨keeps, marks⟩ := @resolveNode_used site.place globals.rules
        globals.routingEverUsed (globals.locals site.thread) site.caller sz
      simp only [loadRules_of_active site.stale site.conf above.1]
      generalize resolveNode site.place globals.rules globals.routingEverUsed
        (globals.locals site.thread) site.caller sz = resolution at named keeps marks ⊢
      have kept : globals.routingEverUsed = true → resolution.routingEverUsed = true := by
        intro already
        rcases keeps with same | set
        · exact same.trans already
        · exact set
      split
      case isTrue node =>
          have selected : globals.Routes site.caller sz := ⟨above.1, above.2, named.mp node⟩
          cases granted : replies.numa with
          | none => exact .refused selected granted ⟨rfl, rfl⟩ kept rfl
          | some addr =>
              cases entry : replies.entry with
              | none => exact .unrecorded selected granted entry ⟨rfl, rfl⟩ (marks node) rfl
              | some loc =>
                  exact .recorded selected granted entry ⟨rfl, rfl⟩ (marks node) rfl
      case isFalse unnamed =>
          exact .unrouted (fun routes => unnamed (named.mpr routes.2.2)) ⟨rfl, rfl⟩ kept rfl

end Kumf.Interc
