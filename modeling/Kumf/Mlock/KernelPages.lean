import Mathlib.Order.Interval.Finset.Nat
import Kumf.Mlock.LockAttempts

/-! The locks of the kernel, which are on pages and do not add up: one `munlock` takes away what
any number of calls of `mlock` have set. The pages in memory are held against the table.
-/

namespace Kumf.Mlock

open Kumf.Library
open Kumf.Interc (Addr Op hold heldAfter)

-----------------------------------------------------------------------------------------
-- Pages
-----------------------------------------------------------------------------------------

/-- The numbers of the pages of a range of addresses. -/
def pagesOf (start length : Nat) : Finset Nat :=
  Finset.Ico (start / 4096) ((start + length + 4095) / 4096)

/-- The locked pages, after a call to the kernel. A call that fails changes no lock. -/
def notePages (pages : Finset Nat) : Event → Finset Nat
  | .mlock _ start length true => pages ∪ pagesOf start length
  | .munlock _ start length => pages \ pagesOf start length
  | _ => pages

def AllocEntry.pages (entry : AllocEntry) : Finset Nat := pagesOf entry.addr entry.size

/-- What the code computes for a block are its own pages. -/
theorem pagesOf_lock {addr size : Nat} (inside : addr + size + 4095 < 2 ^ 64)
    : pagesOf (pageStart addr) (lockSize addr size) = pagesOf addr size := by
  rw [lockSize_eq inside]
  unfold pagesOf pageStart extent
  congr 1 <;> omega

/-- The pages of a block have the size that the library accounts for. -/
theorem card_pagesOf (addr size : Nat)
    : 4096 * (pagesOf addr size).card = extent addr size := by
  rw [pagesOf, Nat.card_Ico, extent, Nat.mul_comm]

/-- The library and the program, and the pages that are locked. -/
structure PagedWorld where
  world : World
  pages : Finset Nat

namespace PagedWorld

def step (paged : PagedWorld) (call : Call) : PagedWorld where
  world := paged.world.step call
  pages := (exec paged.world.lib call).events.foldl notePages paged.pages

def started (file : Option (List Char)) (held : Finset Addr) : PagedWorld where
  world := .started file held
  pages := ∅

/-- The operation takes no block out of the table that has a page in common with another one on
which `mlock` succeeded.
-/
def SparesNeighbours (paged : PagedWorld) (call : Call) : Prop :=
  ∀ ptr ∈ call.op.pointer,
    ∀ entry ∈ paged.world.lib.allocTable.entries,
      entry.addr = ptr
      → ∀ other ∈ paged.world.lib.allocTable.entries,
          other.addr ≠ ptr
          → other.addr ∈ paged.world.mlocked
          → Disjoint entry.pages other.pages

end PagedWorld

-----------------------------------------------------------------------------------------
-- The parts of an operation
-----------------------------------------------------------------------------------------

/-- A record of events that takes notice only of the calls for locks. -/
structure OnLocks {γ : Type} (note : γ → Event → γ) : Prop where
  libcMalloc : ∀ before size ret, note before (.libcMalloc size ret) = before
  libcCalloc : ∀ before nmemb size ret, note before (.libcCalloc nmemb size ret) = before
  libcRealloc : ∀ before ptr size ret, note before (.libcRealloc ptr size ret) = before
  libcFree : ∀ before ptr, note before (.libcFree ptr) = before
  refused : ∀ before block start length, note before (.mlock block start length false) = before

theorem onLocks_noteLock : OnLocks noteLock where
  libcMalloc _ _ _ := rfl
  libcCalloc _ _ _ _ := rfl
  libcRealloc _ _ _ _ := rfl
  libcFree _ _ := rfl
  refused _ _ _ _ := rfl

theorem onLocks_notePages : OnLocks notePages where
  libcMalloc _ _ _ := rfl
  libcCalloc _ _ _ _ := rfl
  libcRealloc _ _ _ _ := rfl
  libcFree _ _ := rfl
  refused _ _ _ _ := rfl

namespace Call

/-- The calls that take the old block out of the table. -/
def clearing (call : Call) (lib : Globals) : List Event :=
  match call.op.pointer with
  | some p => (removeAlloc lib p).2
  | none => []

/-- The block that is tracked at the end. -/
def tracked (call : Call) : Option Addr :=
  match call.op with
  | .free _ => none
  | _ => call.replies.libc

end Call

/-- Every hook takes the old block out, and then tracks the new one. -/
theorem exec_parts {lib : Globals} (loaded : lib.hotPagesLoaded = true) (call : Call)
    : let tracking := track (call.cleared lib) call.tracked (recordedSize call.op) call.replies
      (exec lib call).globals = tracking.1
      ∧ ∀ {γ : Type} {note : γ → Event → γ},
          OnLocks note
          → ∀ before,
            (exec lib call).events.foldl note before
              = tracking.2.foldl note ((call.clearing lib).foldl note before) := by
  have untracked (lib : Globals) (size : Nat) (replies : Replies)
      : track lib none size replies = (lib, []) := by
    unfold track
    split <;> rfl
  obtain ⟨replies, op⟩ := call
  cases op with
  | malloc sz =>
      refine ⟨rfl, fun onLocks before => ?_⟩
      simp only [exec, malloc, List.foldl_cons, onLocks.libcMalloc]
      rfl
  | calloc nmemb size =>
      refine ⟨rfl, fun onLocks before => ?_⟩
      simp only [exec, calloc, List.foldl_cons, onLocks.libcCalloc]
      rfl
  | realloc ptr size =>
      cases ptr with
      | none =>
          refine ⟨rfl, fun onLocks before => ?_⟩
          simp only [exec, realloc, List.nil_append, List.foldl_cons, onLocks.libcRealloc]
          rfl
      | some p =>
          refine ⟨rfl, fun onLocks before => ?_⟩
          simp only [exec, realloc, List.foldl_append, List.foldl_cons, onLocks.libcRealloc]
          rfl
  | free ptr =>
      dsimp only [Call.tracked]
      rw [untracked]
      cases ptr with
      | none => exact ⟨rfl, fun _ _ => rfl⟩
      | some p =>
          simp only [exec, free, if_pos loaded]
          refine ⟨rfl, fun onLocks before => ?_⟩
          simp only [List.foldl_append, List.foldl_cons, onLocks.libcFree]
          rfl

/-- What tracking a block does to the table and to the locks. -/
inductive TrackStep (lib : Globals) (ptr : Option Addr) (size : Nat) (done : Globals × List Event)
    : Prop
  | unrecorded (table : done.1.allocTable = lib.allocTable)
    (quiet : ∀ {γ : Type} {note : γ → Event → γ},
      OnLocks note → ∀ before, done.2.foldl note before = before)
    : TrackStep lib ptr size done
  | unlocked (entry : AllocEntry) (given : ptr = some entry.addr) (sized : entry.size = size)
    (table : done.1.allocTable = lib.allocTable.push entry)
    (quiet : ∀ {γ : Type} {note : γ → Event → γ},
      OnLocks note → ∀ before, done.2.foldl note before = before)
    : TrackStep lib ptr size done
  | locked (entry : AllocEntry) (given : ptr = some entry.addr) (sized : entry.size = size)
    (table : done.1.allocTable = lib.allocTable.push entry)
    (locks : ∀ {γ : Type} {note : γ → Event → γ},
      OnLocks note
      → ∀ before, done.2.foldl note before
          = note before
              (.mlock entry.addr (pageStart entry.addr) (lockSize entry.addr entry.size) true))
    : TrackStep lib ptr size done

/-- `try_mlock` leaves the table alone, and at most locks the pages of its block. -/
theorem tryMlock_locks (lib : Globals) (addr : Addr) (size : Nat) (answer : Bool)
    : (tryMlock lib addr size answer).1.allocTable = lib.allocTable
      ∧ ((∀ {γ : Type} {note : γ → Event → γ},
            OnLocks note
            → ∀ before, (tryMlock lib addr size answer).2.foldl note before = before)
        ∨ (tryMlock lib addr size answer).2
          = [.mlock addr (pageStart addr) (lockSize addr size) true]) := by
  unfold tryMlock
  dsimp only
  split
  · exact ⟨rfl, .inl (fun _ _ => rfl)⟩
  · split
    · exact ⟨rfl, .inl (fun _ _ => rfl)⟩
    · split
      · exact ⟨rfl, .inl (fun _ _ => rfl)⟩
      · cases answer with
        | false => exact ⟨rfl, .inl (fun onLocks before => onLocks.refused before _ _ _)⟩
        | true => exact ⟨rfl, .inr rfl⟩

/-- How a new block is tracked: not at all, without a lock, or with one. -/
theorem track_step (lib : Globals) (ptr : Option Addr) (size : Nat) (replies : Replies)
    : TrackStep lib ptr size (track lib ptr size replies) := by
  unfold track
  split
  case isFalse => exact .unrecorded rfl (fun _ _ => rfl)
  case isTrue =>
      cases ptr with
      | none => exact .unrecorded rfl (fun _ _ => rfl)
      | some addr =>
          simp only [recordAlloc]
          split
          case isTrue => exact .unrecorded rfl (fun _ _ => rfl)
          case isFalse =>
              cases replies.entry with
              | none =>
                  exact .unrecorded rfl (fun onLocks before => onLocks.libcMalloc before _ _)
              | some loc =>
                  let entry : AllocEntry := ⟨loc, addr, size, 0, decide (lib.hotPages ≠ [])⟩
                  dsimp only
                  split
                  case isFalse =>
                      exact .unlocked entry rfl rfl rfl
                        (fun onLocks before => onLocks.libcMalloc before _ _)
                  case isTrue =>
                      obtain ⟨table, locks⟩ := tryMlock_locks
                        { lib with allocTable := lib.allocTable.push entry } addr size replies.mlock
                      rcases locks with quiet | once
                      · refine .unlocked entry rfl rfl table (fun onLocks before => ?_)
                        rw [List.foldl_cons, onLocks.libcMalloc]
                        exact quiet onLocks before
                      · refine .locked entry rfl rfl table (fun onLocks before => ?_)
                        rw [List.foldl_cons, onLocks.libcMalloc]
                        exact congrArg (List.foldl _ before) once

-----------------------------------------------------------------------------------------
-- Blocks inside the address space
-----------------------------------------------------------------------------------------

/-- The tracked blocks lie in the address space. -/
structure Placed (lib : Globals) (held mlocked : Finset Addr) : Prop
    extends Tracked lib held mlocked where
  inside : ∀ entry ∈ lib.allocTable.entries, entry.addr + entry.size + 4095 < 2 ^ 64

/-- Taking a block out adds no entry. -/
theorem mem_removeAlloc {lib : Globals} {ptr : Addr} {entry : AllocEntry}
    (member : entry ∈ (removeAlloc lib ptr).1.allocTable.entries)
    : entry ∈ lib.allocTable.entries := by
  have steps := removeAlloc_step lib ptr
  generalize removeAlloc lib ptr = done at steps member
  cases steps with
  | missing => exact member
  | plain removed table unlinked =>
      exact (ChainedTable.unlink_some unlinked).2.mem_iff.mpr (List.mem_cons_of_mem _ member)
  | locked removed table total unlinked =>
      exact (ChainedTable.unlink_some unlinked).2.mem_iff.mpr (List.mem_cons_of_mem _ member)

/-- Tracking adds the entry of the new block at most. -/
theorem mem_track {lib : Globals} {ptr : Option Addr} {size : Nat} {replies : Replies}
    {entry : AllocEntry} (member : entry ∈ (track lib ptr size replies).1.allocTable.entries)
    : entry ∈ lib.allocTable.entries ∨ (ptr = some entry.addr ∧ entry.size = size) := by
  have pushed {other : AllocEntry} {table : AllocTable}
      (given : ptr = some other.addr) (sized : other.size = size)
      (same : table = lib.allocTable.push other) (member : entry ∈ table.entries)
      : entry ∈ lib.allocTable.entries ∨ (ptr = some entry.addr ∧ entry.size = size) := by
    rw [same] at member
    rcases List.mem_cons.mp ((lib.allocTable.entries_push other).mem_iff.mp member) with rfl | older
    · exact .inr ⟨given, sized⟩
    · exact .inl older
  cases track_step lib ptr size replies with
  | unrecorded table => exact .inl (table ▸ member)
  | unlocked other given sized table => exact pushed given sized table member
  | locked other given sized table => exact pushed given sized table member

namespace Placed

theorem carried : Carried (fun _ _ _ => True) Placed where
  loaded placed := placed.loaded
  inHeld placed := placed.inHeld
  release placed absent := ⟨placed.toTracked.release absent, placed.inside⟩
  remove placed _ :=
    ⟨⟨(placed.toTracked.remove _).1,
        fun entry member => placed.inside entry (mem_removeAlloc member)⟩,
      (placed.toTracked.remove _).2.1⟩
  track placed fresh fits replies := by
    refine ⟨placed.toTracked.track _ fresh replies, fun entry member => ?_⟩
    rcases mem_track member with older | ⟨given, sized⟩
    · exact placed.inside entry older
    · rw [sized]
      exact (fits entry.addr given).1

end Placed

-----------------------------------------------------------------------------------------
-- The locked pages against the table
-----------------------------------------------------------------------------------------

/-- Every locked page is one of a tracked block that was locked. -/
def Owned (lib : Globals) (mlocked : Finset Addr) (pages : Finset Nat) : Prop :=
  ∀ page ∈ pages,
    ∃ entry ∈ lib.allocTable.entries, entry.addr ∈ mlocked ∧ page ∈ entry.pages

/-- All pages of a tracked block that was locked are still locked. -/
def Complete (lib : Globals) (mlocked : Finset Addr) (pages : Finset Nat) : Prop :=
  ∀ entry ∈ lib.allocTable.entries, entry.addr ∈ mlocked → entry.pages ⊆ pages

section
variable {lib : Globals} {held mlocked : Finset Addr} {pages : Finset Nat}

/-- Taking a block out unlocks its own pages at least. -/
theorem Owned.remove (owned : Owned lib mlocked pages) (placed : Placed lib held mlocked)
    (ptr : Addr)
    : Owned (removeAlloc lib ptr).1 ((removeAlloc lib ptr).2.foldl noteLock mlocked)
        ((removeAlloc lib ptr).2.foldl notePages pages) := by
  have unlocks := (placed.toTracked.remove ptr).2.2
  have steps := removeAlloc_step lib ptr
  generalize removeAlloc lib ptr = done at steps unlocks
  cases steps with
  | missing => exact owned
  | plain removed table unlinked unlocked =>
      obtain ⟨rfl, perm⟩ := ChainedTable.unlink_some unlinked
      intro page inPages
      obtain ⟨entry, member, inLocked, onPage⟩ := owned page inPages
      rcases List.mem_cons.mp (perm.mem_iff.mp member) with rfl | rest
      · exact absurd inLocked unlocks
      · exact ⟨entry, rest, inLocked, onPage⟩
  | locked removed table total unlinked =>
      obtain ⟨rfl, perm⟩ := ChainedTable.unlink_some unlinked
      have inside := placed.inside removed (perm.mem_iff.mpr List.mem_cons_self)
      have distinct := (perm.map AllocEntry.addr).nodup_iff.mp placed.distinct
      rw [List.map_cons, List.nodup_cons] at distinct
      intro page inPages
      obtain ⟨before, apart⟩ := Finset.mem_sdiff.mp inPages
      rw [pagesOf_lock inside] at apart
      obtain ⟨entry, member, inLocked, onPage⟩ := owned page before
      rcases List.mem_cons.mp (perm.mem_iff.mp member) with rfl | rest
      · exact absurd onPage apart
      · refine ⟨entry, rest,
          Finset.mem_erase.mpr ⟨fun same => distinct.1 ?_, inLocked⟩, onPage⟩
        exact same ▸ List.mem_map_of_mem rest

/-- Taking a block out unlocks no page of another one, when it shares none. -/
theorem Complete.remove (complete : Complete lib mlocked pages) (placed : Placed lib held mlocked)
    {ptr : Addr}
    (spares : ∀ entry ∈ lib.allocTable.entries, entry.addr = ptr
      → ∀ other ∈ lib.allocTable.entries, other.addr ≠ ptr
      → other.addr ∈ mlocked → Disjoint entry.pages other.pages)
    : Complete (removeAlloc lib ptr).1 ((removeAlloc lib ptr).2.foldl noteLock mlocked)
        ((removeAlloc lib ptr).2.foldl notePages pages) := by
  have steps := removeAlloc_step lib ptr
  generalize removeAlloc lib ptr = done at steps
  cases steps with
  | missing => exact complete
  | plain removed table unlinked =>
      have perm := (ChainedTable.unlink_some unlinked).2
      intro entry member inLocked
      exact complete entry (perm.mem_iff.mpr (List.mem_cons_of_mem _ member)) inLocked
  | locked removed table total unlinked =>
      obtain ⟨found, perm⟩ := ChainedTable.unlink_some unlinked
      have known : removed ∈ lib.allocTable.entries := perm.mem_iff.mpr List.mem_cons_self
      intro entry member inLocked
      have older : entry ∈ lib.allocTable.entries :=
        perm.mem_iff.mpr (List.mem_cons_of_mem _ member)
      obtain ⟨other, before⟩ := Finset.mem_erase.mp inLocked
      have apart := spares removed known found entry older (found ▸ other) before
      apply Finset.subset_sdiff.mpr
      rw [pagesOf_lock (placed.inside removed known)]
      exact ⟨complete entry older before, apart.symm⟩

/-- Tracking a block. Witness: its pages are the ones that are locked, if any are. -/
theorem Owned.track (owned : Owned lib mlocked pages) {ptr : Option Addr} {size : Nat}
    {replies : Replies} (after : Placed (track lib ptr size replies).1 held
      ((track lib ptr size replies).2.foldl noteLock mlocked))
    : Owned (track lib ptr size replies).1
        ((track lib ptr size replies).2.foldl noteLock mlocked)
        ((track lib ptr size replies).2.foldl notePages pages) := by
  have inside := after.inside
  cases track_step lib ptr size replies with
  | unrecorded table quiet =>
      rw [quiet onLocks_noteLock, quiet onLocks_notePages, Owned, table]
      exact owned
  | unlocked entry given sized table quiet =>
      rw [quiet onLocks_noteLock, quiet onLocks_notePages, Owned, table]
      intro page inPages
      obtain ⟨older, member, found⟩ := owned page inPages
      exact ⟨older, (lib.allocTable.entries_push entry).mem_iff.mpr
        (List.mem_cons_of_mem _ member), found⟩
  | locked entry given sized table locks =>
      rw [table] at inside
      have pushed := lib.allocTable.entries_push entry
      have newest : entry ∈ (lib.allocTable.push entry).entries :=
        pushed.mem_iff.mpr List.mem_cons_self
      rw [locks onLocks_noteLock, locks onLocks_notePages, Owned, table]
      intro page inPages
      rcases Finset.mem_union.mp inPages with before | fresh
      · obtain ⟨older, member, inLocked, onPage⟩ := owned page before
        exact ⟨older, pushed.mem_iff.mpr (List.mem_cons_of_mem _ member),
          Finset.mem_insert_of_mem inLocked, onPage⟩
      · rw [pagesOf_lock (inside entry newest)] at fresh
        exact ⟨entry, newest, Finset.mem_insert_self _ _, fresh⟩

/-- A block that is locked is locked as a whole. -/
theorem Complete.track (complete : Complete lib mlocked pages)
    (tracked : Tracked lib held mlocked) {others : Finset Addr} {ptr : Option Addr} {size : Nat}
    {replies : Replies} (after : Placed (track lib ptr size replies).1 others
      ((track lib ptr size replies).2.foldl noteLock mlocked))
    : Complete (track lib ptr size replies).1
        ((track lib ptr size replies).2.foldl noteLock mlocked)
        ((track lib ptr size replies).2.foldl notePages pages) := by
  have inside := after.inside
  have distinct := after.distinct
  have fresh {entry : AllocEntry}
      (distinct : ((lib.allocTable.push entry).entries.map AllocEntry.addr).Nodup)
      : entry.addr ∉ mlocked := by
    intro inLocked
    obtain ⟨older, member, same, -⟩ := tracked.locked entry.addr inLocked
    have all := ((lib.allocTable.entries_push entry).map AllocEntry.addr).nodup_iff.mp distinct
    rw [List.map_cons, List.nodup_cons] at all
    exact all.1 (same ▸ List.mem_map_of_mem member)
  cases track_step lib ptr size replies with
  | unrecorded table quiet =>
      rw [quiet onLocks_noteLock, quiet onLocks_notePages, Complete, table]
      exact complete
  | unlocked entry given sized table quiet =>
      rw [table] at distinct
      rw [quiet onLocks_noteLock, quiet onLocks_notePages, Complete, table]
      intro other member inLocked
      have split := (lib.allocTable.entries_push entry).mem_iff.mp member
      rcases List.mem_cons.mp split with rfl | older
      · exact absurd inLocked (fresh distinct)
      · exact complete other older inLocked
  | locked entry given sized table locks =>
      rw [table] at inside distinct
      have pushed := lib.allocTable.entries_push entry
      rw [locks onLocks_noteLock, locks onLocks_notePages, Complete, table]
      intro other member inLocked
      rcases List.mem_cons.mp (pushed.mem_iff.mp member) with rfl | older
      · apply Finset.subset_union_right.trans' (Eq.subset ?_)
        exact (pagesOf_lock (inside other member)).symm
      · rcases Finset.mem_insert.mp inLocked with same | before
        · have all := (pushed.map AllocEntry.addr).nodup_iff.mp distinct
          rw [List.map_cons, List.nodup_cons] at all
          exact absurd (same ▸ List.mem_map_of_mem older) all.1
        · exact (complete other older before).trans Finset.subset_union_left

/-- Pages that are each owned are no more than the extents of the blocks. -/
theorem Owned.card_le (owned : Owned lib mlocked pages)
    : 4096 * pages.card ≤ lockedExtent lib.allocTable.entries mlocked := by
  have bound (entries : List AllocEntry) (pages : Finset Nat)
      (owned : ∀ page ∈ pages, ∃ entry ∈ entries,
        entry.addr ∈ mlocked ∧ page ∈ entry.pages)
      : 4096 * pages.card ≤ lockedExtent entries mlocked := by
    induction entries generalizing pages with
    | nil =>
        have empty : pages = ∅ := by
          apply Finset.eq_empty_of_forall_notMem
          intro page inPages
          obtain ⟨entry, member, -⟩ := owned page inPages
          cases member
        simp [empty]
    | cons entry entries ih =>
        rw [lockedExtent_cons]
        have rest := ih (pages \ if entry.addr ∈ mlocked then entry.pages else ∅) (by
          intro page inPages
          obtain ⟨before, apart⟩ := Finset.mem_sdiff.mp inPages
          obtain ⟨other, member, inLocked, onPage⟩ := owned page before
          rcases List.mem_cons.mp member with rfl | later
          · rw [if_pos inLocked] at apart
            exact absurd onPage apart
          · exact ⟨other, later, inLocked, onPage⟩)
        have split := Finset.card_le_card_sdiff_add_card (s := pages)
          (t := if entry.addr ∈ mlocked then entry.pages else ∅)
        have first : 4096 * (if entry.addr ∈ mlocked then entry.pages else ∅).card
            = if entry.addr ∈ mlocked then extent entry.addr entry.size else 0 := by
          split
          · exact card_pagesOf entry.addr entry.size
          · rfl
        omega
  exact bound _ pages owned

end

-----------------------------------------------------------------------------------------
-- Whole runs
-----------------------------------------------------------------------------------------

namespace PagedWorld

/-- What every operation keeps. -/
structure Sound (paged : PagedWorld) : Prop where
  placed : Placed paged.world.lib paged.world.held paged.world.mlocked
  owned : Owned paged.world.lib paged.world.mlocked paged.pages

/-- At the start no page is locked. -/
theorem started_sound (file : Option (List Char)) (held : Finset Addr)
    : (started file held).Sound where
  placed :=
    { World.started_tracked file held with
      inside := by
        simp [started, World.started, loadHotPages, unloaded, ChainedTable.entries_empty] }
  owned page member := absurd member (Finset.notMem_empty page)

variable {paged : PagedWorld} {call : Call}

/-- The table, the locked blocks and the locked pages once the old block is out of the table. -/
theorem cleared (sound : paged.Sound) (call : Call)
    : let lib := call.cleared paged.world.lib
      let events := call.clearing paged.world.lib
      Tracked lib paged.world.held (events.foldl noteLock paged.world.mlocked)
      ∧ Owned lib (events.foldl noteLock paged.world.mlocked)
          (events.foldl notePages paged.pages)
      ∧ (paged.SparesNeighbours call
        → Complete paged.world.lib paged.world.mlocked paged.pages
        → Complete lib (events.foldl noteLock paged.world.mlocked)
            (events.foldl notePages paged.pages)) := by
  dsimp only
  unfold Call.cleared Call.clearing
  cases pointer : call.op.pointer with
  | none => exact ⟨sound.placed.toTracked, sound.owned, fun _ complete => complete⟩
  | some p =>
      refine ⟨(sound.placed.toTracked.remove p).1, sound.owned.remove sound.placed p, ?_⟩
      intro spares complete
      exact complete.remove sound.placed (spares p pointer)

/-- A call keeps the account of the pages. -/
theorem step_pages (sound : paged.Sound) (backed : paged.world.Backed call)
    : (paged.step call).Sound
      ∧ (paged.SparesNeighbours call
        → Complete paged.world.lib paged.world.mlocked paged.pages
        → Complete (paged.step call).world.lib (paged.step call).world.mlocked
            (paged.step call).pages) := by
  have placed : Placed (paged.step call).world.lib (paged.step call).world.held
      (paged.step call).world.mlocked :=
    Placed.carried.step sound.placed backed (fun _ _ => trivial)
  obtain ⟨globals, folds⟩ := exec_parts sound.placed.loaded call
  obtain ⟨tracked, owned, complete⟩ := cleared sound call
  have lib : (paged.step call).world.lib = (exec paged.world.lib call).globals := rfl
  have mlocked : (paged.step call).world.mlocked
      = (exec paged.world.lib call).events.foldl noteLock paged.world.mlocked := rfl
  have pages : (paged.step call).pages
      = (exec paged.world.lib call).events.foldl notePages paged.pages := rfl
  have after := placed
  rw [lib, mlocked, globals, folds onLocks_noteLock] at after
  constructor
  · refine ⟨placed, ?_⟩
    rw [lib, mlocked, pages, globals, folds onLocks_noteLock, folds onLocks_notePages]
    exact owned.track after
  · intro spares before
    rw [lib, mlocked, pages, globals, folds onLocks_noteLock, folds onLocks_notePages]
    exact (complete spares before).track tracked after

/-- In every run the locked pages are pages of blocks that the program holds and that are locked
in the table, so that no lock outlives its block; and all pages of these are locked if no block
was taken out that shares a page with another one.
-/
theorem run_lockedPages (file : Option (List Char)) (held : Finset Addr) (calls : List Call)
    (run : Along step (fun paged call => paged.world.Backed call) (started file held) calls)
    : let last := calls.foldl step (started file held)
      (∀ page ∈ last.pages,
        ∃ entry ∈ last.world.lib.allocTable.entries,
          entry.addr ∈ last.world.held ∧ entry.addr ∈ last.world.mlocked
            ∧ page ∈ entry.pages)
      ∧ 4096 * last.pages.card
        ≤ lockedExtent last.world.lib.allocTable.entries last.world.mlocked
      ∧ (Along step SparesNeighbours (started file held) calls
        → ∀ entry ∈ last.world.lib.allocTable.entries,
            entry.addr ∈ last.world.mlocked → entry.pages ⊆ last.pages) := by
  have each (paged : PagedWorld) (call : Call) (sound : paged.Sound)
      (backed : paged.world.Backed call)
      : (paged.step call).Sound :=
    (step_pages sound backed).1
  have sound : (calls.foldl step (started file held)).Sound :=
    run.invariant step each (started_sound file held)
  refine ⟨?_, sound.owned.card_le, ?_⟩
  · intro page inPages
    obtain ⟨entry, member, inLocked, onPage⟩ := sound.owned page inPages
    exact ⟨entry, member, sound.placed.inHeld entry member, inLocked, onPage⟩
  · intro spares
    let kept (paged : PagedWorld) : Prop :=
      paged.Sound ∧ Complete paged.world.lib paged.world.mlocked paged.pages
    have keeps (paged : PagedWorld) (call : Call) (before : kept paged)
        (now : paged.world.Backed call ∧ paged.SparesNeighbours call)
        : kept (paged.step call) :=
      ⟨(step_pages before.1 now.1).1, (step_pages before.1 now.1).2 now.2 before.2⟩
    have first : kept (started file held) :=
      ⟨started_sound file held, fun entry _ inLocked => absurd inLocked (Finset.notMem_empty _)⟩
    exact (((along_and step).mpr ⟨run, spares⟩).invariant step keeps first).2

instance (paged : PagedWorld) (call : Call) : Decidable (paged.SparesNeighbours call) :=
  inferInstanceAs (Decidable (∀ ptr ∈ call.op.pointer,
    ∀ entry ∈ paged.world.lib.allocTable.entries,
      entry.addr = ptr
      → ∀ other ∈ paged.world.lib.allocTable.entries,
          other.addr ≠ ptr
          → other.addr ∈ paged.world.mlocked
          → Disjoint entry.pages other.pages))

/-- Two blocks in a row that meet on a page. -/
def neighbours : List Call :=
  [⟨⟨some 65552, some 32, true⟩, .malloc 8192⟩,
    ⟨⟨some 73760, some 64, true⟩, .malloc 8192⟩]

/-- A third block is allocated away from them, and freed again. -/
def thirdFreed : List Call :=
  neighbours
    ++ [⟨⟨some 1048592, some 96, true⟩, .malloc 8192⟩,
      ⟨⟨none, none, true⟩, .free (some 1048592)⟩]

/-- The pages of the other two stay locked. -/
theorem thirdFreed_locked
    : let last := thirdFreed.foldl step (started (some World.oneHotPage) ∅)
      (∀ entry ∈ last.world.lib.allocTable.entries,
        entry.addr ∈ last.world.mlocked → entry.pages ⊆ last.pages)
      ∧ last.world.mlocked = {65552, 73760}
      ∧ last.pages = {16, 17, 18, 19, 20} := by
  have spares : Along step SparesNeighbours (started (some World.oneHotPage) ∅) thirdFreed := by
    decide +kernel
  exact ⟨(run_lockedPages (some World.oneHotPage) ∅ thirdFreed (by decide)).2.2 spares,
    by decide, by decide⟩

def firstFreed : List Call := neighbours ++ [⟨⟨none, none, true⟩, .free (some 65552)⟩]

/-- Freeing the first one unlocks the page, which the second one needs. -/
theorem firstFreed_unlocks
    : let last := firstFreed.foldl step (started (some World.oneHotPage) ∅)
      73760 ∈ last.world.mlocked ∧ last.world.lib.tracks 73760 = true
      ∧ 18 ∈ pagesOf 73760 8192 ∧ last.pages = {19, 20} := by
  decide

end PagedWorld

end Kumf.Mlock
