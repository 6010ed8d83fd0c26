import Kumf.Mlock.Accounts

/-! A `realloc` of a tracked block that fails. The hook has taken the entry out of the table,
the lock off the pages and the extent off the counter before it asks libc, and puts nothing
back: the block stays valid, untracked and unlocked.
-/

namespace Kumf.Mlock

open Kumf.Library
open Kumf.Interc (Addr Op hold heldAfter)

/-- A process behind the constructor; the list of hot pages may be missing. -/
def World.started (file : Option (List Char)) (held : Finset Addr) : World where
  lib := loadHotPages file unloaded
  held := held
  mlocked := ∅

/-- The entry of an address. -/
def Globals.entryOf (globals : Globals) (addr : Addr) : Option AllocEntry :=
  globals.allocTable.entries.find? (fun entry => entry.addr = addr)

/-- What a failed `realloc` owes the program about its block. -/
structure World.KeepsBlock (before after : World) (p : Addr) : Prop where
  entry : after.lib.entryOf p = before.lib.entryOf p
  locked : p ∈ after.mlocked ↔ p ∈ before.mlocked
  charged : after.lib.totalLockedBytes = before.lib.totalLockedBytes

-----------------------------------------------------------------------------------------
-- The table, the pointers of the program and the locks
-----------------------------------------------------------------------------------------

/-- What every operation keeps, with and without hot pages: one entry for each block, held by
the program, and a lock only on a block whose entry says so.
-/
structure Tracked (lib : Globals) (held mlocked : Finset Addr) : Prop where
  loaded : lib.hotPagesLoaded = true
  distinct : (lib.allocTable.entries.map AllocEntry.addr).Nodup
  inHeld : ∀ entry ∈ lib.allocTable.entries, entry.addr ∈ held
  locked
    : ∀ addr ∈ mlocked,
        ∃ entry ∈ lib.allocTable.entries,
          entry.addr = addr ∧ entry.locked = true ∧ 0 < entry.size

/-- `remove_alloc` finds no entry, one without a lock, or one with a lock. -/
inductive RemoveStep (lib : Globals) (ptr : Addr) : Globals × List Event → Prop
  | missing (unlinked : lib.allocTable.unlink ptr = none) : RemoveStep lib ptr (lib, [])
  | plain (entry : AllocEntry) (table : AllocTable)
    (unlinked : lib.allocTable.unlink ptr = some (entry, table))
    (unlocked : ¬ (entry.locked = true ∧ 0 < entry.size))
    : RemoveStep lib ptr ({ lib with allocTable := table }, [.libcFree entry.loc])
  | locked (entry : AllocEntry) (table : AllocTable) (total : Nat)
    (unlinked : lib.allocTable.unlink ptr = some (entry, table))
    : RemoveStep lib ptr
        ({ lib with allocTable := table, totalLockedBytes := total },
          [.munlock entry.addr (pageStart entry.addr) (lockSize entry.addr entry.size),
            .libcFree entry.loc])

theorem removeAlloc_step (lib : Globals) (ptr : Addr)
    : RemoveStep lib ptr (removeAlloc lib ptr) := by
  unfold removeAlloc
  cases unlinked : lib.allocTable.unlink ptr with
  | none => exact .missing unlinked
  | some found =>
      obtain ⟨entry, table⟩ := found
      dsimp only
      split
      case isTrue => exact .locked entry table _ unlinked
      case isFalse unlocked => exact .plain entry table unlinked unlocked

/-- `try_mlock` changes counters alone, and at most locks its block. -/
structure LockStep (lib : Globals) (addr : Addr) (mlocked : Finset Addr)
    (done : Globals × List Event)
    : Prop where
  table : done.1.allocTable = lib.allocTable
  loaded : done.1.hotPagesLoaded = lib.hotPagesLoaded
  locks
    : done.2.foldl noteLock mlocked = mlocked
      ∨ done.2.foldl noteLock mlocked = insert addr mlocked

theorem tryMlock_step (lib : Globals) (addr : Addr) (size : Nat) (answer : Bool)
    (mlocked : Finset Addr)
    : LockStep lib addr mlocked (tryMlock lib addr size answer) := by
  unfold tryMlock
  dsimp only
  split
  · exact ⟨rfl, rfl, .inl rfl⟩
  · split
    · exact ⟨rfl, rfl, .inl rfl⟩
    · split
      · exact ⟨rfl, rfl, .inl rfl⟩
      · cases answer with
        | false => exact ⟨rfl, rfl, .inl rfl⟩
        | true => exact ⟨rfl, rfl, .inr rfl⟩

namespace Tracked

variable {lib : Globals} {held mlocked : Finset Addr}

theorem reheld (tracked : Tracked lib held mlocked) {other : Finset Addr}
    (kept : ∀ entry ∈ lib.allocTable.entries, entry.addr ∈ other)
    : Tracked lib other mlocked :=
  { tracked with inHeld := kept }

/-- The program gives up a pointer that is not in the table. -/
theorem release (tracked : Tracked lib held mlocked) {ptr : Addr}
    (absent : ptr ∉ lib.allocTable.entries.map AllocEntry.addr)
    : Tracked lib (held.erase ptr) mlocked := by
  refine tracked.reheld (fun entry member => Finset.mem_erase.mpr ⟨?_, ?_⟩)
  · exact fun same => absent (List.mem_map.mpr ⟨entry, member, same⟩)
  · exact tracked.inHeld entry member

/-- Taking an entry out of the table, with any lock on its block. -/
theorem unlink (tracked : Tracked lib held mlocked) {ptr : Addr} {entry : AllocEntry}
    {table : AllocTable} (unlinked : lib.allocTable.unlink ptr = some (entry, table)) (total : Nat)
    {others : Finset Addr} (fewer : ∀ addr ∈ others, addr ∈ mlocked ∧ addr ≠ ptr)
    : Tracked { lib with allocTable := table, totalLockedBytes := total } held others
      ∧ ptr ∉ table.entries.map AllocEntry.addr := by
  obtain ⟨distinct, absent⟩ := unlink_distinct unlinked tracked.distinct
  obtain ⟨rfl, perm⟩ := ChainedTable.unlink_some unlinked
  have later : ∀ other ∈ table.entries, other ∈ lib.allocTable.entries :=
    fun other member => perm.mem_iff.mpr (List.mem_cons_of_mem _ member)
  refine ⟨⟨tracked.loaded, distinct, ?_, ?_⟩, absent⟩
  · exact fun other member => tracked.inHeld other (later other member)
  · intro addr inLocked
    obtain ⟨before, apart⟩ := fewer addr inLocked
    obtain ⟨other, member, rfl, state⟩ := tracked.locked addr before
    rcases List.mem_cons.mp (perm.mem_iff.mp member) with same | inTable
    · exact absurd (congrArg AllocEntry.addr same) apart
    · exact ⟨other, inTable, rfl, state⟩

/-- Behind `remove_alloc` the block is neither tracked nor locked. -/
theorem remove (tracked : Tracked lib held mlocked) (ptr : Addr)
    : Tracked (removeAlloc lib ptr).1 held ((removeAlloc lib ptr).2.foldl noteLock mlocked)
      ∧ ptr ∉ (removeAlloc lib ptr).1.allocTable.entries.map AllocEntry.addr
      ∧ ptr ∉ (removeAlloc lib ptr).2.foldl noteLock mlocked := by
  have step := removeAlloc_step lib ptr
  generalize removeAlloc lib ptr = done at step
  cases step with
  | missing unlinked =>
      have absent := unlink_absent unlinked
      refine ⟨tracked, absent, fun inLocked => ?_⟩
      obtain ⟨entry, inTable, same, _⟩ := tracked.locked ptr inLocked
      exact absent (List.mem_map.mpr ⟨entry, inTable, same⟩)
  | plain entry table unlinked unlocked =>
      obtain ⟨found, perm⟩ := ChainedTable.unlink_some unlinked
      have free : ptr ∉ mlocked := by
        intro inLocked
        obtain ⟨other, member, same, state⟩ := tracked.locked ptr inLocked
        have equal : other = entry := List.inj_on_of_nodup_map tracked.distinct member
          (perm.mem_iff.mpr List.mem_cons_self) (same.trans found.symm)
        exact unlocked (equal ▸ state)
      obtain ⟨after, absent⟩ := tracked.unlink unlinked lib.totalLockedBytes
        (fun addr inLocked => ⟨inLocked, fun same => free (same ▸ inLocked)⟩)
      exact ⟨after, absent, free⟩
  | locked entry table total unlinked =>
      obtain ⟨rfl, _⟩ := ChainedTable.unlink_some unlinked
      obtain ⟨after, absent⟩ := tracked.unlink unlinked total
        (fun addr (inLocked : addr ∈ mlocked.erase entry.addr) =>
          (Finset.mem_erase.mp inLocked).symm)
      exact ⟨after, absent, Finset.notMem_erase _ _⟩

theorem push (tracked : Tracked lib held mlocked) (entry : AllocEntry)
    (fresh : entry.addr ∉ lib.allocTable.entries.map AllocEntry.addr)
    : Tracked { lib with allocTable := lib.allocTable.push entry } (insert entry.addr held)
        mlocked := by
  have perm := lib.allocTable.entries_push entry
  have older
      : ∀ other ∈ lib.allocTable.entries, other ∈ (lib.allocTable.push entry).entries :=
    fun other member => perm.mem_iff.mpr (List.mem_cons_of_mem _ member)
  refine ⟨tracked.loaded, ?_, ?_, ?_⟩
  · exact (perm.map AllocEntry.addr).nodup_iff.mpr
      (List.nodup_cons.mpr ⟨fresh, tracked.distinct⟩)
  · intro other member
    rcases List.mem_cons.mp (perm.mem_iff.mp member) with rfl | inTable
    · exact Finset.mem_insert_self _ _
    · exact Finset.mem_insert_of_mem (tracked.inHeld other inTable)
  · intro addr inLocked
    obtain ⟨other, member, state⟩ := tracked.locked addr inLocked
    exact ⟨other, older other member, state⟩

/-- Locking the block of an entry that says so. -/
theorem lock (tracked : Tracked lib held mlocked) {entry : AllocEntry}
    (member : entry ∈ lib.allocTable.entries) (marked : entry.locked = true ∧ 0 < entry.size)
    (answer : Bool)
    : Tracked (tryMlock lib entry.addr entry.size answer).1 held
        ((tryMlock lib entry.addr entry.size answer).2.foldl noteLock mlocked) := by
  obtain ⟨table, loaded, locks⟩ := tryMlock_step lib entry.addr entry.size answer mlocked
  refine ⟨loaded.trans tracked.loaded, table ▸ tracked.distinct, table ▸ tracked.inHeld, ?_⟩
  rw [table]
  rcases locks with same | more
  · rw [same]
    exact tracked.locked
  · rw [more]
    intro addr inLocked
    rcases Finset.mem_insert.mp inLocked with rfl | older
    · exact ⟨entry, member, rfl, marked⟩
    · exact tracked.locked addr older

/-- Tracking a block that is new to the table. -/
theorem track (tracked : Tracked lib held mlocked) {ptr : Option Addr} (size : Nat)
    (fresh : ∀ addr ∈ ptr, addr ∉ lib.allocTable.entries.map AllocEntry.addr)
    (replies : Replies)
    : Tracked (track lib ptr size replies).1 (hold held ptr)
        ((track lib ptr size replies).2.foldl noteLock mlocked) := by
  cases ptr with
  | none => simpa [Mlock.track, recordAlloc, hold] using tracked
  | some addr =>
      have unrecorded : Tracked lib (insert addr held) mlocked :=
        tracked.reheld (fun entry member =>
          Finset.mem_insert_of_mem (tracked.inHeld entry member))
      rw [Mlock.track, if_pos tracked.loaded]
      simp only [recordAlloc, hold]
      split
      · exact unrecorded
      case isFalse large =>
          cases replies.entry with
          | none => exact unrecorded
          | some loc =>
              have pushed := tracked.push
                ⟨loc, addr, size, 0, decide (lib.hotPages ≠ [])⟩ (fresh addr rfl)
              dsimp only
              split
              case isTrue hot =>
                  have member := (lib.allocTable.entries_push
                    ⟨loc, addr, size, 0, decide (lib.hotPages ≠ [])⟩).mem_iff.mpr
                    List.mem_cons_self
                  exact pushed.lock member ⟨hot, by dsimp only; omega⟩ replies.mlock
              case isFalse => exact pushed

theorem carried : Carried (fun _ _ _ => True) Tracked where
  loaded tracked := tracked.loaded
  inHeld tracked := tracked.inHeld
  release tracked absent := tracked.release absent
  remove tracked _ := ⟨(tracked.remove _).1, (tracked.remove _).2.1⟩
  track tracked fresh _ replies := tracked.track _ fresh replies

end Tracked

-----------------------------------------------------------------------------------------
-- Whole runs
-----------------------------------------------------------------------------------------

namespace World

theorem started_tracked (file : Option (List Char)) (held : Finset Addr)
    : Tracked (started file held).lib held ∅ where
  loaded := rfl
  distinct := by simp [started, loadHotPages, unloaded, ChainedTable.entries_empty]
  inHeld := by simp [started, loadHotPages, unloaded, ChainedTable.entries_empty]
  locked := by simp

theorem run_tracked {file : Option (List Char)} {held : Finset Addr} {calls : List Call}
    (run : Along step Backed (started file held) calls)
    : Tracked (calls.foldl step (started file held)).lib (calls.foldl step (started file held)).held
        (calls.foldl step (started file held)).mlocked := by
  let kept (world : World) : Prop := Tracked world.lib world.held world.mlocked
  have each (world : World) (call : Call) (tracked : kept world) (backed : world.Backed call)
      : kept (world.step call) :=
    Tracked.carried.step tracked backed (fun _ _ => trivial)
  have start : kept (started file held) := started_tracked file held
  exact run.invariant step each start

/-- Behind a `realloc` that libc refuses, the old block has no entry and no lock. -/
theorem refused_lost {world : World} {replies : Replies} {p : Addr} {size : Nat}
    (tracked : Tracked world.lib world.held world.mlocked) (refused : replies.libc = none)
    : (world.step ⟨replies, .realloc (some p) size⟩).lib.entryOf p = none
      ∧ p ∉ (world.step ⟨replies, .realloc (some p) size⟩).mlocked := by
  obtain ⟨_, absent, free⟩ := tracked.remove p
  have after : exec world.lib ⟨replies, .realloc (some p) size⟩
      = ⟨(removeAlloc world.lib p).1, none,
          (removeAlloc world.lib p).2 ++ [.libcRealloc (some p) size none]⟩ := by
    simp [exec, realloc, refused, Mlock.track, recordAlloc]
  unfold step
  rw [after]
  constructor
  · refine List.find?_eq_none.mpr (fun entry member found => ?_)
    exact absent (List.mem_map.mpr ⟨entry, member, of_decide_eq_true found⟩)
  · rw [List.foldl_append]
    exact free

/-- In every reachable state, a `realloc` of a tracked block that libc refuses loses the entry
and the lock of the block, which the program still holds.
-/
theorem refused_realloc_loses (file : Option (List Char)) (held : Finset Addr)
    (calls : List Call) (replies : Replies) (p : Addr) (size : Nat)
    (run : Along step Backed (started file held) calls)
    (known : (calls.foldl step (started file held)).lib.tracks p = true)
    (refused : replies.libc = none) (nonempty : 0 < size)
    : let before := calls.foldl step (started file held)
      let after := before.step ⟨replies, .realloc (some p) size⟩
      ¬ before.KeepsBlock after p
        ∧ after.lib.entryOf p = none
        ∧ p ∉ after.mlocked
        ∧ p ∈ after.held := by
  have tracked := run_tracked run
  generalize calls.foldl step (started file held) = before at known tracked
  obtain ⟨lost, free⟩
      : (before.step ⟨replies, .realloc (some p) size⟩).lib.entryOf p = none
        ∧ p ∉ (before.step ⟨replies, .realloc (some p) size⟩).mlocked :=
    refused_lost tracked refused
  obtain ⟨entry, member, same⟩ := List.mem_map.mp (tracks_iff.mp known)
  refine ⟨fun keeps => ?_, lost, free, ?_⟩
  · have gone := List.find?_eq_none.mp (keeps.entry.symm.trans lost)
    exact gone entry member (decide_eq_true same)
  · have stays : p ∈ before.held := same ▸ tracked.inHeld entry member
    have answer : (exec before.lib ⟨replies, .realloc (some p) size⟩).ret = none := by
      simp [exec, realloc, refused]
    unfold step heldAfter
    rw [answer]
    simpa [nonempty.ne'] using stays

/-- A locked block of two pages, and a resize that libc refuses. -/
def lockedBlock : List Call := [⟨⟨some 65536, some 32, true⟩, .malloc 8192⟩]

def refusedResize : Call := ⟨⟨none, none, true⟩, .realloc (some 65536) 1048576⟩

theorem refused_realloc_loses_lockedBlock
    : let before := lockedBlock.foldl step (started (some oneHotPage) ∅)
      let after := before.step refusedResize
      ¬ before.KeepsBlock after 65536
        ∧ after.lib.entryOf 65536 = none
        ∧ 65536 ∉ after.mlocked
        ∧ 65536 ∈ after.held :=
  refused_realloc_loses (some oneHotPage) ∅ lockedBlock ⟨none, none, true⟩ 65536 1048576
    (by decide) (by decide) rfl (by decide)

/-- The lock and the charge of the block are gone while it is still in use. -/
theorem refusedResize_unlocks
    : Along step Backed (started (some oneHotPage) ∅) (lockedBlock ++ [refusedResize])
      ∧ (lockedBlock.foldl step (started (some oneHotPage) ∅)).lib.tracks 65536 = true
      ∧ (lockedBlock.foldl step (started (some oneHotPage) ∅)).lib.totalLockedBytes = 8192
      ∧ 65536 ∈ (lockedBlock.foldl step (started (some oneHotPage) ∅)).mlocked
      ∧ ((lockedBlock ++ [refusedResize]).foldl step
          (started (some oneHotPage) ∅)).lib.totalLockedBytes = 0
      ∧ 65536 ∉ ((lockedBlock ++ [refusedResize]).foldl step
          (started (some oneHotPage) ∅)).mlocked := by
  decide

end World

end Kumf.Mlock
