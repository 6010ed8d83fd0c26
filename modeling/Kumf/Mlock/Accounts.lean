import Kumf.Library.Runs
import Kumf.Library.Totals
import Kumf.Mlock.Hooks

/-! The account of locked memory: as long as only blocks that were really locked are taken out
of the table, `total_locked_bytes` is the extent of the locked blocks, within the budget.
-/

namespace Kumf.Mlock

open Kumf.Library
open Kumf.Interc (Addr Op hold heldAfter)

-----------------------------------------------------------------------------------------
-- Runs of the library
-----------------------------------------------------------------------------------------

/-- The blocks that the kernel has locked, after a call to it. -/
def noteLock (mlocked : Finset Addr) : Event → Finset Addr
  | .mlock block _ _ true => insert block mlocked
  | .munlock block _ _ => mlocked.erase block
  | _ => mlocked

/-- The library, the pointers that the program holds, and the blocks on which `mlock`
succeeded. The library never reads the last two.
-/
structure World where
  lib : Globals
  held : Finset Addr
  mlocked : Finset Addr

/-- The bytes from the first to the last page of a block. -/
def extent (addr : Addr) (size : Nat) : Nat :=
  ((addr + size + 4095) / 4096 - addr / 4096) * 4096

/-- The extent of the tracked blocks that are locked. -/
def lockedExtent (entries : List AllocEntry) (mlocked : Finset Addr) : Nat :=
  weightWhere (fun entry => extent entry.addr entry.size)
    (fun entry => decide (entry.addr ∈ mlocked))
    entries

/-- The size that an operation asks for. -/
def requested : Op → Nat
  | .malloc sz => sz
  | .calloc nmemb size => nmemb * size
  | .realloc _ size => size
  | .free _ => 0

/-- What is assumed of libc: a block is new to the program, unless a resize leaves it in place;
it lies below the last page of the address space and is smaller than half of that space.
-/
def Grants (held : Finset Addr) (op : Op) (ret : Option Addr) : Prop :=
  ∀ addr ∈ ret,
    (addr ∉ held ∨ op.pointer = some addr)
    ∧ addr + requested op + 4095 < 2 ^ 64
    ∧ requested op < 2 ^ 63

instance (held : Finset Addr) (op : Op) (ret : Option Addr) : Decidable (Grants held op ret) :=
  inferInstanceAs (Decidable (∀ addr ∈ ret, _))

/-- Whether the table has an entry for an address. -/
def Globals.tracks (globals : Globals) (addr : Addr) : Bool :=
  (globals.allocTable.chain (allocHash addr)).any (fun entry => entry.addr = addr)

theorem tracks_iff {globals : Globals} {addr : Addr}
    : globals.tracks addr = true ↔ addr ∈ globals.allocTable.entries.map AllocEntry.addr := by
  simp only [Globals.tracks, List.any_eq_true, decide_eq_true_eq, List.mem_map]
  constructor
  · rintro ⟨entry, member, rfl⟩
    exact ⟨entry, ChainedTable.mem_entries.mpr member, rfl⟩
  · rintro ⟨entry, member, rfl⟩
    exact ⟨entry, ChainedTable.mem_entries.mp member, rfl⟩

theorem unlink_absent {table : AllocTable} {ptr : Addr} (missing : table.unlink ptr = none)
    : ptr ∉ table.entries.map AllocEntry.addr := by
  intro member
  obtain ⟨entry, inTable, same⟩ := List.mem_map.mp member
  exact ChainedTable.unlink_none missing entry inTable same

/-- An entry that is taken out of a table without duplicates leaves none for its block. -/
theorem unlink_distinct {table rest : AllocTable} {ptr : Addr} {entry : AllocEntry}
    (unlinked : table.unlink ptr = some (entry, rest))
    (distinct : (table.entries.map AllocEntry.addr).Nodup)
    : (rest.entries.map AllocEntry.addr).Nodup ∧ ptr ∉ rest.entries.map AllocEntry.addr := by
  obtain ⟨rfl, perm⟩ := ChainedTable.unlink_some unlinked
  have all := (perm.map AllocEntry.addr).nodup_iff.mp distinct
  rw [List.map_cons, List.nodup_cons] at all
  exact all.symm

namespace World

def step (world : World) (call : Call) : World where
  lib := (exec world.lib call).globals
  held := heldAfter world.held call.op (exec world.lib call).ret
  mlocked := (exec world.lib call).events.foldl noteLock world.mlocked

/-- Libc answers a call as assumed. -/
def Backed (world : World) (call : Call) : Prop := Grants world.held call.op call.replies.libc

instance (world : World) (call : Call) : Decidable (world.Backed call) :=
  inferInstanceAs (Decidable (Grants _ _ _))

/-- The operation takes no tracked block out of the table on which `mlock` did not succeed,
unless no byte counts as locked.
-/
def SparesUnlocked (world : World) (call : Call) : Prop :=
  ∀ ptr ∈ call.op.pointer,
    world.lib.tracks ptr = true → ptr ∈ world.mlocked ∨ world.lib.totalLockedBytes = 0

instance (world : World) (call : Call) : Decidable (world.SparesUnlocked call) :=
  inferInstanceAs (Decidable (∀ ptr ∈ call.op.pointer, _))

/-- The counter is the extent of the locked blocks, and they fit the budget. -/
def Accounted (world : World) : Prop :=
  world.lib.totalLockedBytes = lockedExtent world.lib.allocTable.entries world.mlocked
  ∧ lockedExtent world.lib.allocTable.entries world.mlocked ≤ world.lib.mlockBudget

/-- A process behind the constructor, with a hot page list that is not empty. -/
def initial (content : List Char) (held : Finset Addr) : World where
  lib := loadHotPages (some content) unloaded
  held := held
  mlocked := ∅

end World

-----------------------------------------------------------------------------------------
-- Properties that whole operations carry
-----------------------------------------------------------------------------------------

/-- A property of the library, of the pointers of the program and of the locks, part by part:
what the parts of an operation keep. Some blocks only may be taken out of the table.
-/
structure Carried (spared : Globals → Finset Addr → Addr → Prop)
    (kept : Globals → Finset Addr → Finset Addr → Prop)
    : Prop where
  loaded : ∀ {lib held mlocked}, kept lib held mlocked → lib.hotPagesLoaded = true
  inHeld
    : ∀ {lib held mlocked},
        kept lib held mlocked → ∀ entry ∈ lib.allocTable.entries, entry.addr ∈ held
  release
    : ∀ {lib held mlocked} {ptr : Addr},
        kept lib held mlocked
        → ptr ∉ lib.allocTable.entries.map AllocEntry.addr
        → kept lib (held.erase ptr) mlocked
  remove
    : ∀ {lib held mlocked} {ptr : Addr},
        kept lib held mlocked
        → spared lib mlocked ptr
        → kept (removeAlloc lib ptr).1 held ((removeAlloc lib ptr).2.foldl noteLock mlocked)
          ∧ ptr ∉ (removeAlloc lib ptr).1.allocTable.entries.map AllocEntry.addr
  track
    : ∀ {lib held mlocked} {ptr : Option Addr} {size : Nat},
        kept lib held mlocked
        → (∀ addr ∈ ptr, addr ∉ lib.allocTable.entries.map AllocEntry.addr)
        → (∀ addr ∈ ptr, addr + size + 4095 < 2 ^ 64 ∧ size < 2 ^ 63)
        → ∀ replies,
            kept (track lib ptr size replies).1 (hold held ptr)
              ((track lib ptr size replies).2.foldl noteLock mlocked)

/-- A carried property is kept by every operation. Witness: an allocation tracks a block, a
`free` removes one, and a resize does both in turn.
-/
theorem Carried.step {spared : Globals → Finset Addr → Addr → Prop}
    {kept : Globals → Finset Addr → Finset Addr → Prop} (carried : Carried spared kept)
    {world : World} {call : Call} (holds : kept world.lib world.held world.mlocked)
    (backed : world.Backed call)
    (spares : ∀ ptr ∈ call.op.pointer, spared world.lib world.mlocked ptr)
    : kept (world.step call).lib (world.step call).held (world.step call).mlocked := by
  obtain ⟨lib, held, mlocked⟩ := world
  obtain ⟨replies, op⟩ := call
  have fits (addr : Addr) (member : addr ∈ replies.libc)
      : addr + requested op + 4095 < 2 ^ 64 ∧ requested op < 2 ^ 63 :=
    (backed addr member).2
  -- a block that is new to the program is not in the table
  have fresh (noPointer : op.pointer = none) (addr : Addr) (member : addr ∈ replies.libc)
      : addr ∉ lib.allocTable.entries.map AllocEntry.addr := by
    intro inTable
    obtain ⟨entry, known, rfl⟩ := List.mem_map.mp inTable
    rcases (backed entry.addr member).1 with new | same
    · exact new (carried.inHeld holds entry known)
    · rw [show op.pointer = none from noPointer] at same
      cases same
  cases op with
  | malloc sz => exact carried.track holds (fresh rfl) fits replies
  | calloc nmemb size =>
      have exactProduct (addr : Addr) (member : addr ∈ replies.libc)
          : nmemb * size % 2 ^ 64 = nmemb * size := by
        have small := (fits addr member).2
        exact Nat.mod_eq_of_lt (by simp only [requested] at small; omega)
      refine carried.track holds (fresh rfl) (fun addr member => ?_) replies
      rw [exactProduct addr member]
      exact fits addr member
  | free ptr =>
      cases ptr with
      | none => exact holds
      | some p =>
          obtain ⟨removed, absent⟩ := carried.remove holds (spares p rfl)
          simp only [World.step, exec, free, if_pos (carried.loaded holds), List.foldl_append]
          exact carried.release removed absent
  | realloc ptr size =>
      cases ptr with
      | none => exact carried.track holds (fresh rfl) fits replies
      | some p =>
          obtain ⟨removed, absent⟩ := carried.remove holds (spares p rfl)
          have sizes (addr : Addr) (member : addr ∈ replies.libc)
              : addr + size + 4095 < 2 ^ 64 ∧ size < 2 ^ 63 :=
            fits addr member
          have unseen (addr : Addr) (member : addr ∈ replies.libc)
              : addr ∉ (removeAlloc lib p).1.allocTable.entries.map AllocEntry.addr := by
            intro inTable
            rcases (backed addr member).1 with new | same
            · obtain ⟨entry, known, rfl⟩ := List.mem_map.mp inTable
              exact new (carried.inHeld removed entry known)
            · cases same
              exact absent inTable
          have tracked := carried.track (carried.release removed absent) unseen sizes replies
          simp only [World.step, exec, realloc, List.foldl_append, List.foldl_cons, noteLock]
          cases answer : replies.libc with
          | none =>
              rw [answer] at tracked
              by_cases empty : size = 0
              · simpa [heldAfter, hold, empty] using tracked
              · simpa [heldAfter, hold, empty, Mlock.track, recordAlloc] using removed
          | some addr =>
              rw [answer] at tracked
              simpa [heldAfter] using tracked

-----------------------------------------------------------------------------------------
-- Extents in exact arithmetic
-----------------------------------------------------------------------------------------

/-- The code's extent of a block in the address space is the exact one. -/
theorem lockSize_eq {addr size : Nat} (inside : addr + size + 4095 < 2 ^ 64)
    : lockSize addr size = extent addr size := by
  unfold lockSize pageEnd pageStart extent
  rw [Nat.mod_eq_of_lt inside]
  omega

theorem extent_le (addr size : Nat) : extent addr size ≤ size + 8190 := by
  unfold extent
  omega

-----------------------------------------------------------------------------------------
-- The invariant
-----------------------------------------------------------------------------------------

/-- What every operation keeps: the table has one locked entry for each of its blocks, the
program holds them, and the counter is their extent as far as `mlock` succeeded.
-/
structure Accounts (lib : Globals) (held mlocked : Finset Addr) : Prop where
  loaded : lib.hotPagesLoaded = true
  hot : lib.hotPages ≠ []
  budget : lib.mlockBudget = mlockBudgetMb * 1024 * 1024
  distinct : (lib.allocTable.entries.map AllocEntry.addr).Nodup
  inHeld : ∀ entry ∈ lib.allocTable.entries, entry.addr ∈ held
  locked : ∀ entry ∈ lib.allocTable.entries, entry.locked = true
  sized : ∀ entry ∈ lib.allocTable.entries,
    0 < entry.size ∧ entry.addr + entry.size + 4095 < 2 ^ 64
  tracked : ∀ addr ∈ mlocked, addr ∈ lib.allocTable.entries.map AllocEntry.addr
  total : lib.totalLockedBytes = lockedExtent lib.allocTable.entries mlocked
  within : lib.totalLockedBytes ≤ lib.mlockBudget

theorem lockedExtent_perm {entries others : List AllocEntry} (same : entries.Perm others)
    (mlocked : Finset Addr)
    : lockedExtent entries mlocked = lockedExtent others mlocked :=
  weightWhere_perm _ same

theorem lockedExtent_cons (entry : AllocEntry) (entries : List AllocEntry)
    (mlocked : Finset Addr)
    : lockedExtent (entry :: entries) mlocked
      = (if entry.addr ∈ mlocked then extent entry.addr entry.size else 0)
        + lockedExtent entries mlocked := by
  simp [lockedExtent, weightWhere_cons]

/-- Blocks that are not in the list do not count. -/
theorem lockedExtent_congr {entries : List AllocEntry} {mlocked other : Finset Addr}
    (same : ∀ addr ∈ entries.map AllocEntry.addr, addr ∈ mlocked ↔ addr ∈ other)
    : lockedExtent entries mlocked = lockedExtent entries other :=
  weightWhere_congr _ (fun entry member =>
    decide_eq_decide.mpr (same entry.addr (List.mem_map_of_mem member)))

/-- Locking or unlocking a block that is not in the list does not matter. -/
theorem lockedExtent_outside {entries : List AllocEntry} {mlocked other : Finset Addr}
    {changed : Addr} (absent : changed ∉ entries.map AllocEntry.addr)
    (same : ∀ addr, addr ≠ changed → (addr ∈ mlocked ↔ addr ∈ other))
    : lockedExtent entries mlocked = lockedExtent entries other := by
  refine lockedExtent_congr (fun addr member => same addr (fun equal => ?_))
  exact absent (equal ▸ member)

namespace Accounts

variable {lib : Globals} {held mlocked : Finset Addr}

/-- The program may hold other pointers as long as it holds those of the table. -/
theorem reheld (accounts : Accounts lib held mlocked) {other : Finset Addr}
    (kept : ∀ entry ∈ lib.allocTable.entries, entry.addr ∈ other)
    : Accounts lib other mlocked :=
  { accounts with inHeld := kept }

/-- The program gives up a pointer that is not in the table. -/
theorem release (accounts : Accounts lib held mlocked) {ptr : Addr}
    (absent : ptr ∉ lib.allocTable.entries.map AllocEntry.addr)
    : Accounts lib (held.erase ptr) mlocked := by
  refine accounts.reheld (fun entry member => Finset.mem_erase.mpr ⟨?_, ?_⟩)
  · exact fun same => absent (List.mem_map.mpr ⟨entry, member, same⟩)
  · exact accounts.inHeld entry member

/-- Taking a block out of the table. Witness: of a locked block the counter loses its extent;
an empty counter stays empty.
-/
theorem remove (accounts : Accounts lib held mlocked) (ptr : Addr)
    (spares : lib.tracks ptr = true → ptr ∈ mlocked ∨ lib.totalLockedBytes = 0)
    : Accounts (removeAlloc lib ptr).1 held ((removeAlloc lib ptr).2.foldl noteLock mlocked)
      ∧ ptr ∉ (removeAlloc lib ptr).1.allocTable.entries.map AllocEntry.addr := by
  cases unlinked : lib.allocTable.unlink ptr with
  | none =>
      simp only [removeAlloc, unlinked, List.foldl_nil]
      exact ⟨accounts, unlink_absent unlinked⟩
  | some found =>
      obtain ⟨entry, table⟩ := found
      obtain ⟨distinct, absent⟩ := unlink_distinct unlinked accounts.distinct
      obtain ⟨rfl, perm⟩ := ChainedTable.unlink_some unlinked
      have inTable : entry ∈ lib.allocTable.entries := perm.mem_iff.mpr List.mem_cons_self
      have later : ∀ other ∈ table.entries, other ∈ lib.allocTable.entries :=
        fun other member => perm.mem_iff.mpr (List.mem_cons_of_mem _ member)
      obtain ⟨positive, inside⟩ := accounts.sized entry inTable
      have rest : lockedExtent table.entries (mlocked.erase entry.addr)
          = lockedExtent table.entries mlocked :=
        lockedExtent_outside absent (fun addr other => by simp [other])
      have total := accounts.total
      rw [lockedExtent_perm perm, lockedExtent_cons] at total
      -- a clamped difference is the difference of natural numbers
      have clamped : (if lockSize entry.addr entry.size ≤ lib.totalLockedBytes then
            lib.totalLockedBytes - lockSize entry.addr entry.size else 0)
          = lib.totalLockedBytes - extent entry.addr entry.size := by
        rw [lockSize_eq inside]
        split <;> omega
      have spared := spares (tracks_iff.mpr (List.mem_map_of_mem inTable))
      simp only [removeAlloc, unlinked, accounts.locked entry inTable, positive, and_self,
        if_true, clamped, List.foldl_cons, List.foldl_nil, noteLock]
      refine ⟨?_, absent⟩
      refine {
        loaded := accounts.loaded
        hot := accounts.hot
        budget := accounts.budget
        distinct := distinct
        inHeld := fun other member => accounts.inHeld other (later other member)
        locked := fun other member => accounts.locked other (later other member)
        sized := fun other member => accounts.sized other (later other member)
        tracked := ?_
        total := ?_
        within := ?_
      }
      · intro addr member
        obtain ⟨other, member⟩ := Finset.mem_erase.mp member
        have known := (perm.map AllocEntry.addr).mem_iff.mp (accounts.tracked addr member)
        exact (List.mem_cons.mp known).resolve_left other
      · rw [rest]
        rcases spared with inLocked | empty
        · rw [if_pos inLocked] at total
          dsimp only
          omega
        · dsimp only
          omega
      · have within := accounts.within
        dsimp only
        omega

/-- The table after a new block: its entry is locked, and nothing is counted yet. -/
theorem push (accounts : Accounts lib held mlocked) (entry : AllocEntry)
    (locked : entry.locked = true) (positive : 0 < entry.size)
    (inside : entry.addr + entry.size + 4095 < 2 ^ 64)
    (fresh : entry.addr ∉ lib.allocTable.entries.map AllocEntry.addr)
    : Accounts { lib with allocTable := lib.allocTable.push entry } (insert entry.addr held)
        mlocked := by
  have perm := lib.allocTable.entries_push entry
  have cases_entry {other : AllocEntry} (member : other ∈ (lib.allocTable.push entry).entries)
      : other = entry ∨ other ∈ lib.allocTable.entries :=
    List.mem_cons.mp (perm.mem_iff.mp member)
  have unlocked : entry.addr ∉ mlocked := fun member => fresh (accounts.tracked _ member)
  refine {
    loaded := accounts.loaded
    hot := accounts.hot
    budget := accounts.budget
    distinct := (perm.map AllocEntry.addr).nodup_iff.mpr
      (List.nodup_cons.mpr ⟨fresh, accounts.distinct⟩)
    inHeld := ?_
    locked := ?_
    sized := ?_
    tracked := ?_
    total := ?_
    within := accounts.within
  }
  · intro other member
    rcases cases_entry member with rfl | older
    · exact Finset.mem_insert_self _ _
    · exact Finset.mem_insert_of_mem (accounts.inHeld other older)
  · intro other member
    rcases cases_entry member with rfl | older
    · exact locked
    · exact accounts.locked other older
  · intro other member
    rcases cases_entry member with rfl | older
    · exact ⟨positive, inside⟩
    · exact accounts.sized other older
  · intro addr member
    exact (perm.map AllocEntry.addr).mem_iff.mpr
      (List.mem_cons_of_mem _ (accounts.tracked addr member))
  · rw [lockedExtent_perm perm, lockedExtent_cons, if_neg unlocked, Nat.zero_add]
    exact accounts.total

/-- The counters for the statistics do not matter. -/
theorem counters (accounts : Accounts lib held mlocked) (allocCount pagesSkipped pagesLocked : Int)
    : Accounts { lib with allocCount, pagesSkipped, pagesLocked } held mlocked :=
  ⟨accounts.loaded, accounts.hot, accounts.budget, accounts.distinct, accounts.inHeld,
    accounts.locked, accounts.sized, accounts.tracked, accounts.total, accounts.within⟩

/-- One more locked block adds its extent. -/
theorem lockedExtent_insert (accounts : Accounts lib held mlocked) {entry : AllocEntry}
    (member : entry ∈ lib.allocTable.entries) (unlocked : entry.addr ∉ mlocked)
    : lockedExtent lib.allocTable.entries (insert entry.addr mlocked)
      = lockedExtent lib.allocTable.entries mlocked + extent entry.addr entry.size := by
  have perm := List.perm_cons_erase member
  have distinct := (perm.map AllocEntry.addr).nodup_iff.mp accounts.distinct
  rw [List.map_cons, List.nodup_cons] at distinct
  have rest : lockedExtent (lib.allocTable.entries.erase entry) (insert entry.addr mlocked)
      = lockedExtent (lib.allocTable.entries.erase entry) mlocked :=
    lockedExtent_outside distinct.1 (fun addr other => by simp [other])
  rw [lockedExtent_perm perm, lockedExtent_perm perm, lockedExtent_cons, lockedExtent_cons, rest,
    if_pos (Finset.mem_insert_self _ _), if_neg unlocked]
  omega

/-- `try_mlock` on a tracked block adds its extent when the kernel locks it, and the guard
keeps the sum within the budget.
-/
theorem lock (accounts : Accounts lib held mlocked) {entry : AllocEntry}
    (member : entry ∈ lib.allocTable.entries) (unlocked : entry.addr ∉ mlocked)
    (small : entry.size < 2 ^ 63) (answer : Bool)
    : Accounts (tryMlock lib entry.addr entry.size answer).1 held
        ((tryMlock lib entry.addr entry.size answer).2.foldl noteLock mlocked) := by
  obtain ⟨positive, inside⟩ := accounts.sized entry member
  have bound := extent_le entry.addr entry.size
  have budget := accounts.budget
  have within := accounts.within
  have megabytes : mlockBudgetMb * 1024 * 1024 = 10485760 := rfl
  rw [megabytes] at budget
  unfold tryMlock
  rw [if_neg positive.ne', lockSize_eq inside]
  dsimp only
  split
  · exact accounts.counters _ _ _
  split
  · exact accounts.counters _ _ _
  case isFalse room =>
      cases answer with
      | false => exact accounts.counters _ _ _
      | true =>
          have exactSum : (lib.totalLockedBytes + extent entry.addr entry.size) % 2 ^ 64
              = lib.totalLockedBytes + extent entry.addr entry.size :=
            Nat.mod_eq_of_lt (by omega)
          rw [exactSum] at room ⊢
          refine {
            loaded := accounts.loaded
            hot := accounts.hot
            budget := accounts.budget
            distinct := accounts.distinct
            inHeld := accounts.inHeld
            locked := accounts.locked
            sized := accounts.sized
            tracked := ?_
            total := ?_
            within := ?_
          }
          · intro addr inLocked
            rcases Finset.mem_insert.mp inLocked with rfl | older
            · exact List.mem_map_of_mem member
            · exact accounts.tracked addr older
          · simp only [if_true, List.foldl_cons, List.foldl_nil, noteLock]
            rw [accounts.lockedExtent_insert member unlocked, ← accounts.total]
          · simp only [if_true]
            omega

/-- Tracking a new block of the program. -/
theorem track (accounts : Accounts lib held mlocked) {ptr : Option Addr} {size : Nat}
    (fresh : ∀ addr ∈ ptr, addr ∉ lib.allocTable.entries.map AllocEntry.addr)
    (fits : ∀ addr ∈ ptr, addr + size + 4095 < 2 ^ 64 ∧ size < 2 ^ 63) (replies : Replies)
    : Accounts (track lib ptr size replies).1 (hold held ptr)
        ((track lib ptr size replies).2.foldl noteLock mlocked) := by
  cases ptr with
  | none => simpa [Mlock.track, recordAlloc, hold] using accounts
  | some addr =>
      have unrecorded : Accounts lib (insert addr held) mlocked :=
        accounts.reheld (fun entry member =>
          Finset.mem_insert_of_mem (accounts.inHeld entry member))
      have hot : decide (lib.hotPages ≠ []) = true := decide_eq_true accounts.hot
      rw [Mlock.track, if_pos accounts.loaded]
      simp only [recordAlloc, hold, hot, if_true]
      split
      · exact unrecorded
      case isFalse large =>
          cases replies.entry with
          | none => exact unrecorded
          | some loc =>
              obtain ⟨inside, small⟩ := fits addr rfl
              have positive : 0 < size := by omega
              have pushed := accounts.push ⟨loc, addr, size, 0, true⟩ rfl positive
                inside (fresh addr rfl)
              have member :=
                (lib.allocTable.entries_push ⟨loc, addr, size, 0, true⟩).mem_iff.mpr
                List.mem_cons_self
              have unlocked : addr ∉ mlocked :=
                fun inLocked => fresh addr rfl (accounts.tracked addr inLocked)
              exact pushed.lock member unlocked small replies.mlock

/-- The account is carried by every operation that takes no block without a lock out of the
table while bytes count as locked.
-/
theorem carried
    : Carried
        (fun lib mlocked ptr => lib.tracks ptr = true
          → ptr ∈ mlocked ∨ lib.totalLockedBytes = 0)
        Accounts where
  loaded accounts := accounts.loaded
  inHeld accounts := accounts.inHeld
  release accounts absent := accounts.release absent
  remove accounts spares := accounts.remove _ spares
  track accounts fresh fits replies := accounts.track fresh fits replies

end Accounts

-----------------------------------------------------------------------------------------
-- Whole runs
-----------------------------------------------------------------------------------------

namespace World

/-- Every operation that spares the blocks without a lock keeps the account. -/
theorem step_accounts {world : World} {call : Call}
    (accounts : Accounts world.lib world.held world.mlocked) (backed : world.Backed call)
    (spares : world.SparesUnlocked call)
    : Accounts (world.step call).lib (world.step call).held (world.step call).mlocked :=
  Accounts.carried.step accounts backed spares

/-- Behind the constructor nothing is tracked and nothing is locked. -/
theorem initial_accounts {content : List Char} {held : Finset Addr}
    (listed : (initial content held).lib.hotPages ≠ [])
    : Accounts (initial content held).lib held ∅ where
  loaded := rfl
  hot := listed
  budget := rfl
  distinct := by simp [initial, loadHotPages, unloaded, ChainedTable.entries_empty]
  inHeld := by simp [initial, loadHotPages, unloaded, ChainedTable.entries_empty]
  locked := by simp [initial, loadHotPages, unloaded, ChainedTable.entries_empty]
  sized := by simp [initial, loadHotPages, unloaded, ChainedTable.entries_empty]
  tracked := by simp
  total := by simp [initial, loadHotPages, unloaded, ChainedTable.entries_empty, lockedExtent,
    weightWhere]
  within := Nat.zero_le _

/-- In a run that takes no block out of the table on which `mlock` did not succeed, the counter
is always the extent of the locked blocks, and they fit the budget.
-/
theorem run_accounted (content : List Char) (held : Finset Addr)
    (listed : (initial content held).lib.hotPages ≠ []) (calls : List Call)
    (run : Along step (fun world call => world.Backed call ∧ world.SparesUnlocked call)
      (initial content held) calls)
    : (calls.foldl step (initial content held)).Accounted := by
  let kept (world : World) : Prop := Accounts world.lib world.held world.mlocked
  have start : kept (initial content held) := initial_accounts listed
  have each (world : World) (call : Call) (accounts : kept world)
      (given : world.Backed call ∧ world.SparesUnlocked call)
      : kept (world.step call) :=
    step_accounts accounts given.1 given.2
  have final := run.invariant step each start
  exact ⟨final.total, final.total ▸ final.within⟩

/-- A hot page list of one page. -/
def oneHotPage : List Char := "0x7f1234567000\n".toList

/-- A block that is locked, and one on which `mlock` fails. -/
def lockedThenRefused : List Call :=
  [⟨⟨some 65536, some 32, true⟩, .malloc 8192⟩,
    ⟨⟨some 131072, some 64, false⟩, .malloc 8192⟩]

theorem run_accounted_lockedThenRefused
    : (lockedThenRefused.foldl step (initial oneHotPage ∅)).Accounted :=
  run_accounted oneHotPage ∅ (by decide) lockedThenRefused (by decide)

/-- A tracked block with a lock has its extent counted. -/
theorem extent_le_lockedExtent {entries : List AllocEntry} {mlocked : Finset Addr}
    {entry : AllocEntry} (member : entry ∈ entries) (inLocked : entry.addr ∈ mlocked)
    : extent entry.addr entry.size ≤ lockedExtent entries mlocked := by
  have kept : entry ∈ entries.filter (fun entry => decide (entry.addr ∈ mlocked)) :=
    List.mem_filter.mpr ⟨member, decide_eq_true inLocked⟩
  unfold lockedExtent weightWhere
  exact List.le_sum_of_mem (List.mem_map.mpr ⟨entry, kept, rfl⟩)

/-- The same two blocks, and the second one freed. -/
def refusedFreed : List Call :=
  lockedThenRefused ++ [⟨⟨none, none, true⟩, .free (some 131072)⟩]

/-- Freeing the block without a lock empties the counter while the other one stays locked. -/
theorem refusedFreed_unaccounted
    : Along step Backed (initial oneHotPage ∅) refusedFreed
      ∧ (refusedFreed.foldl step (initial oneHotPage ∅)).lib.totalLockedBytes = 0
      ∧ ¬ (refusedFreed.foldl step (initial oneHotPage ∅)).Accounted := by
  refine ⟨by decide, by decide, fun accounted => ?_⟩
  have stays : ⟨32, 65536, 8192, 0, true⟩
      ∈ (refusedFreed.foldl step (initial oneHotPage ∅)).lib.allocTable.entries :=
    ChainedTable.mem_entries.mpr (by decide)
  have locked : 65536 ∈ (refusedFreed.foldl step (initial oneHotPage ∅)).mlocked := by decide
  have counted := extent_le_lockedExtent stays locked
  rw [← accounted.1] at counted
  exact absurd counted (by decide)

end World

end Kumf.Mlock
