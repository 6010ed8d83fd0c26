import Kumf.Interc.Allocator
import Kumf.Library.Runs
import Mathlib.Data.Finset.Basic
import Mathlib.Data.Finset.Image

/-! What the back ends have handed out and not taken back, and runs of the library against
such a ledger. The ledger is the specification's view: the library never reads it.
-/

namespace Kumf.Interc

open Kumf.Library

/-- The live blocks of the two back ends. -/
structure Ledger where
  numa : Finset (Addr × Nat)
  libc : Finset Addr

namespace Ledger

def live (ledger : Ledger) : Finset Addr := ledger.numa.image Prod.fst ∪ ledger.libc

def grantNuma (ledger : Ledger) (size : Nat) : Option Addr → Ledger
  | none => ledger
  | some addr => { ledger with numa := insert (addr, size) ledger.numa }

def grantLibc (ledger : Ledger) : Option Addr → Ledger
  | none => ledger
  | some addr => { ledger with libc := insert addr ledger.libc }

def releaseNuma (ledger : Ledger) (addr : Addr) (size : Nat) : Ledger :=
  { ledger with numa := ledger.numa.erase (addr, size) }

def releaseLibc (ledger : Ledger) (addr : Addr) : Ledger :=
  { ledger with libc := ledger.libc.erase addr }

/-- A `realloc` of libc that answers null keeps the old block, unless the size is zero. -/
def resizeLibc (ledger : Ledger) (ptr : Addr) (size : Nat) : Option Addr → Ledger
  | some addr => (ledger.releaseLibc ptr).grantLibc (some addr)
  | none => if size = 0 then ledger.releaseLibc ptr else ledger

def apply (ledger : Ledger) : Event → Ledger
  | .numaAllocOnnode size _ ret => ledger.grantNuma size ret
  | .numaFree addr size => ledger.releaseNuma addr size
  | .libcMalloc _ ret => ledger.grantLibc ret
  | .libcCalloc _ _ ret => ledger.grantLibc ret
  | .libcRealloc ptr size ret => ledger.resizeLibc ptr size ret
  | .libcFree ptr => ledger.releaseLibc ptr
  | .memcpy _ _ _ => ledger

def Fresh (ledger : Ledger) (ret : Option Addr) : Prop := ∀ addr ∈ ret, addr ∉ ledger.live

instance (ledger : Ledger) (ret : Option Addr) : Decidable (ledger.Fresh ret) :=
  inferInstanceAs (Decidable (∀ addr ∈ ret, addr ∉ ledger.live))

/-- What is assumed of the back ends: they hand out no address that is still live; a
`realloc` may also stay in place.
-/
def Grants (ledger : Ledger) : Event → Prop
  | .numaAllocOnnode _ _ ret => ledger.Fresh ret
  | .libcMalloc _ ret => ledger.Fresh ret
  | .libcCalloc _ _ ret => ledger.Fresh ret
  | .libcRealloc ptr _ ret => ret = some ptr ∨ ledger.Fresh ret
  | _ => True

instance (ledger : Ledger) : DecidablePred ledger.Grants
  | .numaAllocOnnode _ _ ret => inferInstanceAs (Decidable (ledger.Fresh ret))
  | .numaFree _ _ => isTrue trivial
  | .libcMalloc _ ret => inferInstanceAs (Decidable (ledger.Fresh ret))
  | .libcCalloc _ _ ret => inferInstanceAs (Decidable (ledger.Fresh ret))
  | .libcRealloc ptr _ ret => inferInstanceAs (Decidable (ret = some ptr ∨ ledger.Fresh ret))
  | .libcFree _ => isTrue trivial
  | .memcpy _ _ _ => isTrue trivial

/-- What the back ends may be asked: each takes back its own live blocks only, `numa_free`
with the size that was handed out.
-/
def Legal (ledger : Ledger) : Event → Prop
  | .numaFree addr size => (addr, size) ∈ ledger.numa
  | .libcFree ptr => ptr ∈ ledger.libc ∧ ∀ size, (ptr, size) ∉ ledger.numa
  | .libcRealloc ptr _ _ => ptr ∈ ledger.libc ∧ ∀ size, (ptr, size) ∉ ledger.numa
  | .memcpy _ src count => ∃ size, count ≤ size ∧ (src, size) ∈ ledger.numa
  | _ => True

theorem mem_live {ledger : Ledger} {addr : Addr}
    : addr ∈ ledger.live
      ↔ (∃ size, (addr, size) ∈ ledger.numa) ∨ addr ∈ ledger.libc := by
  simp [live]

theorem mem_live_grantNuma {ledger : Ledger} {addr other : Addr} {size : Nat}
    : other ∈ (ledger.grantNuma size (some addr)).live
      ↔ other = addr ∨ other ∈ ledger.live := by
  simp [live, grantNuma]

theorem mem_live_grantLibc {ledger : Ledger} {addr other : Addr}
    : other ∈ (ledger.grantLibc (some addr)).live ↔ other = addr ∨ other ∈ ledger.live := by
  rw [mem_live, mem_live, grantLibc, Finset.mem_insert]
  exact or_left_comm

theorem mem_live_releaseNuma {ledger : Ledger} {addr other : Addr} {size : Nat}
    (different : other ≠ addr) (live : other ∈ ledger.live)
    : other ∈ (ledger.releaseNuma addr size).live := by
  rcases mem_live.mp live with ⟨n, inNuma⟩ | inLibc
  · have kept : (other, n) ≠ (addr, size) := fun same => different (Prod.mk.inj same).1
    exact mem_live.mpr (.inl ⟨n, Finset.mem_erase.mpr ⟨kept, inNuma⟩⟩)
  · exact mem_live.mpr (.inr inLibc)

theorem mem_live_releaseLibc {ledger : Ledger} {addr other : Addr} (different : other ≠ addr)
    (live : other ∈ ledger.live)
    : other ∈ (ledger.releaseLibc addr).live := by
  rcases mem_live.mp live with inNuma | inLibc
  · exact mem_live.mpr (.inl inNuma)
  · exact mem_live.mpr (.inr (Finset.mem_erase.mpr ⟨different, inLibc⟩))

@[simp] theorem numa_grantLibc (ledger : Ledger) (ret : Option Addr)
    : (ledger.grantLibc ret).numa = ledger.numa := by
  cases ret <;> rfl

@[simp] theorem numa_releaseLibc (ledger : Ledger) (addr : Addr)
    : (ledger.releaseLibc addr).numa = ledger.numa :=
  rfl

@[simp] theorem numa_resizeLibc (ledger : Ledger) (ptr : Addr) (size : Nat)
    (ret : Option Addr)
    : (ledger.resizeLibc ptr size ret).numa = ledger.numa := by
  cases ret with
  | none => by_cases zero : size = 0 <;> simp [resizeLibc, zero]
  | some addr => simp [resizeLibc]

end Ledger

/-- A request to libc that `malloc` or `calloc` falls through to. -/
inductive Event.AsksLibc (reply : Option Addr) : Event → Prop where
  | malloc (size : Nat) : AsksLibc reply (.libcMalloc size reply)
  | calloc (nmemb size : Nat) : AsksLibc reply (.libcCalloc nmemb size reply)

/-- A request to libc grants its answer. -/
theorem Event.AsksLibc.apply {reply : Option Addr} {asked : Event}
    (asks : asked.AsksLibc reply) (ledger : Ledger)
    : ledger.apply asked = ledger.grantLibc reply := by
  cases asks <;> rfl

/-- What libc gives is fresh. -/
theorem Event.AsksLibc.fresh {reply : Option Addr} {asked : Event}
    (asks : asked.AsksLibc reply) {ledger : Ledger} (granted : ledger.Grants asked)
    : ledger.Fresh reply := by
  cases asks <;> exact granted

/-- A request to libc is legal. -/
theorem Event.AsksLibc.legal {reply : Option Addr} {asked : Event}
    (asks : asked.AsksLibc reply) (ledger : Ledger)
    : ledger.Legal asked := by
  cases asks <;> trivial

-----------------------------------------------------------------------------------------
-- The pointers that the program holds
-----------------------------------------------------------------------------------------

/-- The pointer that an operation hands back to the library. -/
def Op.pointer : Op → Option Addr
  | .malloc _ => none
  | .calloc _ _ => none
  | .realloc ptr _ => ptr
  | .free ptr => ptr

def hold (held : Finset Addr) : Option Addr → Finset Addr
  | none => held
  | some addr => insert addr held

/-- The pointers that the program holds after an operation. A null answer to `realloc`
leaves it the old block, unless the size is zero.
-/
def heldAfter (held : Finset Addr) (op : Op) (ret : Option Addr) : Finset Addr :=
  match op with
  | .malloc _ => hold held ret
  | .calloc _ _ => hold held ret
  | .realloc none _ => hold held ret
  | .realloc (some p) size =>
      if ret = none ∧ size ≠ 0 then held else hold (held.erase p) ret
  | .free none => held
  | .free (some p) => held.erase p

/-- After an allocation the program holds its block too. -/
theorem heldAfter_allocated {op : Op} (noPointer : op.pointer = none)
    (notFree : ∀ ptr, op ≠ .free ptr) (held : Finset Addr) (ret : Option Addr)
    : heldAfter held op ret = hold held ret := by
  cases op with
  | malloc sz => rfl
  | calloc nmemb size => rfl
  | realloc ptr size =>
      cases ptr with
      | none => rfl
      | some p => cases noPointer
  | free ptr => exact absurd rfl (notFree ptr)

/-- The library, the live blocks of the back ends and the program's own pointers. -/
structure World where
  lib : Globals
  ledger : Ledger
  held : Finset Addr

namespace World

def events (world : World) (call : Call) : List Event := (exec world.lib call).events

def step (world : World) (call : Call) : World where
  lib := (exec world.lib call).globals
  ledger := (world.events call).foldl Ledger.apply world.ledger
  held := heldAfter world.held call.op (exec world.lib call).ret

/-- The back ends grant fresh blocks throughout a call. -/
def Backed (world : World) (call : Call) : Prop :=
  Along Ledger.apply Ledger.Grants world.ledger (world.events call)

instance (world : World) (call : Call) : Decidable (world.Backed call) :=
  inferInstanceAs (Decidable (Along _ _ _ _))

/-- The library before its first routed block, in any mode but PASSIVE and with any rules;
the program may hold blocks of libc already.
-/
structure Start (world : World) : Prop where
  active : world.lib.mode ≠ .passive
  untracked : world.lib.addrHash.entries = []
  numa : world.ledger.numa = ∅
  held : world.held ⊆ world.ledger.libc

/-- A library with some size rules and nothing allocated, for concrete runs. -/
def unused (sizeRules : List SizeRule) : World where
  lib :=
    { mode := .routing
      rules := .ofTables { sizeRules }
      routingEverUsed := false
      addrHash := .empty
      locals := fun _ => {} }
  ledger := ⟨∅, ∅⟩
  held := ∅

theorem unused_start (sizeRules : List SizeRule) : (unused sizeRules).Start where
  active := by simp [unused]
  untracked := ChainedTable.entries_empty
  numa := rfl
  held := Finset.Subset.refl _

end World

/-- A call from thread 0 with the given answers of the back ends. -/
def Call.idle (replies : Replies) (op : Op) : Call where
  site := { thread := 0, caller := 0, place := ⟨0, fun _ => 0⟩, stale := [], conf := none }
  replies := replies
  op := op

-----------------------------------------------------------------------------------------
-- One inversion lemma for all four operations
-----------------------------------------------------------------------------------------

/-- Everything an operation can do outside PASSIVE mode when no entry has size zero. -/
inductive ExecStep (globals : Globals) (call : Call) : Outcome → Prop where
  | allocated {sz routed asked}
    (op : call.op.pointer = none)
    (notFree : ∀ ptr, call.op ≠ .free ptr)
    (routing : RouteStep call.site call.replies globals sz routed)
    (asks : asked.AsksLibc call.replies.libc)
    : ExecStep globals call (routed.orLibc call.replies.libc asked)
  | ignored
    (op : call.op = .free none)
    : ExecStep globals call ⟨globals, none, []⟩
  | freed {p}
    (op : call.op = .free (some p))
    (unseen : globals.routingEverUsed = false ∨ globals.addrHash.unlink p = none)
    : ExecStep globals call ⟨globals, none, [.libcFree p]⟩
  | freedRouted {p entry smaller}
    (op : call.op = .free (some p))
    (unlinked : globals.addrHash.unlink p = some (entry, smaller))
    : ExecStep globals call
        ⟨{ globals with addrHash := smaller }, none,
          [.libcFree entry.loc, .numaFree p entry.size]⟩
  | resized {p size}
    (op : call.op = .realloc (some p) size)
    (unseen : globals.addrHash.unlink p = none)
    : ExecStep globals call
        ⟨globals, call.replies.libc, [.libcRealloc p size call.replies.libc]⟩
  | moved {p size entry smaller routed inner newAddr}
    (op : call.op = .realloc (some p) size)
    (unlinked : globals.addrHash.unlink p = some (entry, smaller))
    (routing : RouteStep call.site call.replies { globals with addrHash := smaller } size routed)
    (result : inner = routed.orLibc call.replies.libc (.libcMalloc size call.replies.libc))
    (given : inner.ret = some newAddr)
    : ExecStep globals call
        ⟨inner.globals, some newAddr,
          .libcFree entry.loc :: (inner.events
            ++ [.memcpy newAddr p (if entry.size < size then entry.size else size),
              .numaFree p entry.size])⟩
  | failed {p size entry smaller routed inner}
    (op : call.op = .realloc (some p) size)
    (unlinked : globals.addrHash.unlink p = some (entry, smaller))
    (routing : RouteStep call.site call.replies { globals with addrHash := smaller } size routed)
    (result : inner = routed.orLibc call.replies.libc (.libcMalloc size call.replies.libc))
    (refused : inner.ret = none)
    : ExecStep globals call ⟨inner.globals, none, .libcFree entry.loc :: inner.events⟩

/-- Outside PASSIVE mode `malloc` is the shared block with libc behind it. -/
theorem malloc_eq {globals : Globals} (active : globals.mode ≠ .passive) (site : CallSite)
    (replies : Replies) (sz : Nat)
    : malloc site replies globals sz
      = (tryRoute site replies globals sz).orLibc replies.libc
          (.libcMalloc sz replies.libc) := by
  simp [malloc, active]

/-- An entry that is found has a size. -/
theorem size_pos_of_unlink {globals : Globals} {p : Addr} {entry : AddrEntry}
    {smaller : AddrHash} (sized : ∀ block ∈ globals.recorded, 0 < block.2)
    (unlinked : globals.addrHash.unlink p = some (entry, smaller))
    : 0 < entry.size := by
  have perm := (ChainedTable.unlink_some unlinked).2
  have member : entry ∈ globals.addrHash.entries :=
    perm.mem_iff.mpr List.mem_cons_self
  exact sized _ (List.mem_map.mpr ⟨entry, member, rfl⟩)

/-- Every operation is one of the listed steps. Witness: a case split on the operation and
on what `check_and_remove_seg` finds.
-/
theorem exec_step {globals : Globals} (call : Call) (active : globals.mode ≠ .passive)
    (sized : ∀ block ∈ globals.recorded, 0 < block.2)
    : ExecStep globals call (exec globals call) := by
  obtain ⟨site, replies, op⟩ := call
  cases op with
  | malloc sz =>
      have body : exec globals ⟨site, replies, .malloc sz⟩
          = malloc site replies globals sz := rfl
      rw [body, malloc_eq active]
      exact .allocated rfl (by simp) (tryRoute_step site replies globals sz) (.malloc sz)
  | calloc nmemb size =>
      simp only [exec, calloc, if_neg active]
      exact .allocated rfl (by simp) (tryRoute_step site replies globals _)
        (.calloc nmemb size)
  | free ptr =>
      cases ptr with
      | none => exact .ignored rfl
      | some p =>
          simp only [exec, free, if_neg active]
          split
          case isTrue fresh => exact .freed rfl (.inl fresh)
          case isFalse used =>
              cases unlinked : globals.addrHash.unlink p with
              | none =>
                  simp only [checkAndRemoveSeg, unlinked]
                  exact .freed rfl (.inr unlinked)
              | some found =>
                  obtain ⟨entry, smaller⟩ := found
                  have positive := size_pos_of_unlink sized unlinked
                  simp only [checkAndRemoveSeg, unlinked, if_pos positive]
                  exact .freedRouted rfl unlinked
  | realloc ptr size =>
      cases ptr with
      | none =>
          simp only [exec, realloc, if_neg active, malloc_eq active]
          exact .allocated rfl (by simp) (tryRoute_step site replies globals size)
            (.malloc size)
      | some p =>
          simp only [exec, realloc, if_neg active]
          cases unlinked : globals.addrHash.unlink p with
          | none =>
              simp only [checkAndRemoveSeg, unlinked, Nat.lt_irrefl, if_false]
              exact .resized rfl unlinked
          | some found =>
              obtain ⟨entry, smaller⟩ := found
              have positive := size_pos_of_unlink sized unlinked
              have stillActive : { globals with addrHash := smaller }.mode ≠ .passive := active
              simp only [checkAndRemoveSeg, unlinked, if_pos positive, malloc_eq stillActive]
              have routing := tryRoute_step site replies
                { globals with addrHash := smaller } size
              generalize result : (tryRoute site replies { globals with addrHash := smaller }
                size).orLibc replies.libc (.libcMalloc size replies.libc) = inner
              cases given : inner.ret with
              | some newAddr =>
                  have moved : ExecStep globals ⟨site, replies, .realloc (some p) size⟩ _ :=
                    .moved rfl unlinked routing result.symm given
                  simpa using moved
              | none =>
                  exact .failed rfl unlinked routing result.symm given

end Kumf.Interc
