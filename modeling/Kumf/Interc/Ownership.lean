import Kumf.Interc.Tracking

/-! When no bookkeeping allocation and no move of a routed block fails, the table is exact:
it records all live blocks of `numa_alloc_onnode`, and every request to a back end is about
a live block of its own.
-/

namespace Kumf.Interc

open Kumf.Library

/-- The table and the blocks in transit are all live routed blocks; the program holds them
and blocks of libc, but no entry of the table.
-/
structure Owned (entries : List AddrEntry) (transit : List (Addr × Nat)) (ledger : Ledger)
    (held : Finset Addr) : Prop extends Tracked entries transit ledger where
  complete : ∀ block ∈ ledger.numa, block ∈ blocks entries ++ transit
  apart : ∀ block ∈ ledger.numa, block.1 ∉ ledger.libc
  heldLive : ∀ addr ∈ held, addr ∈ ledger.live
  numaHeld : ∀ block ∈ ledger.numa, block.1 ∈ held
  locsDistinct : (entries.map AddrEntry.loc).Nodup
  locsLive : ∀ entry ∈ entries, entry.loc ∈ ledger.libc
  locsHidden : ∀ entry ∈ entries, entry.loc ∉ held

namespace Owned

variable {entries other : List AddrEntry} {transit : List (Addr × Nat)} {ledger : Ledger}
  {held : Finset Addr}

theorem perm (owned : Owned entries transit ledger held) (same : other.Perm entries)
    : Owned other transit ledger held where
  toTracked := owned.toTracked.perm same
  complete := by
    intro block member
    have sameAll := (same.map (fun entry => (entry.addr, entry.size))).append_right transit
    exact sameAll.mem_iff.mpr (owned.complete block member)
  apart := owned.apart
  heldLive := owned.heldLive
  numaHeld := owned.numaHeld
  locsDistinct := (same.map AddrEntry.loc).nodup_iff.mpr owned.locsDistinct
  locsLive := fun entry member => owned.locsLive entry (same.mem_iff.mp member)
  locsHidden := fun entry member => owned.locsHidden entry (same.mem_iff.mp member)

/-- A fresh address is no routed block. -/
theorem apart_insert (owned : Owned entries transit ledger held) {addr : Addr}
    (fresh : ledger.Fresh (some addr))
    : ∀ block ∈ ledger.numa, block.1 ∉ insert addr ledger.libc := by
  intro block member inLibc
  rcases Finset.mem_insert.mp inLibc with same | older
  · exact fresh addr rfl (Ledger.mem_live.mpr (.inl ⟨block.2, same ▸ member⟩))
  · exact owned.apart block member older

/-- A fresh address is no entry. -/
theorem locsHidden_insert (owned : Owned entries transit ledger held) {addr : Addr}
    (fresh : ledger.Fresh (some addr))
    : ∀ entry ∈ entries, entry.loc ∉ insert addr held := by
  intro entry member inHeld
  rcases Finset.mem_insert.mp inHeld with same | older
  · apply fresh addr rfl
    rw [← same]
    exact Ledger.mem_live.mpr (.inr (owned.locsLive entry member))
  · exact owned.locsHidden entry member older

/-- `numa_alloc_onnode` hands a fresh block to the program. -/
theorem grant (owned : Owned entries transit ledger held) {addr size : Nat}
    (fresh : ledger.Fresh (some addr))
    : Owned entries ((addr, size) :: transit) (ledger.grantNuma size (some addr))
        (insert addr held) where
  toTracked := owned.toTracked.grant fresh
  complete := by
    intro block member
    apply List.perm_middle.mem_iff.mpr
    rcases Finset.mem_insert.mp member with rfl | older
    · exact List.mem_cons_self
    · exact List.mem_cons_of_mem _ (owned.complete block older)
  apart := by
    intro block member
    rcases Finset.mem_insert.mp member with rfl | older
    · exact fun inLibc => fresh addr rfl (Ledger.mem_live.mpr (.inr inLibc))
    · exact owned.apart block older
  heldLive := by
    intro other member
    exact Ledger.mem_live_grantNuma.mpr
      ((Finset.mem_insert.mp member).imp_right (owned.heldLive other))
  numaHeld := by
    intro block member
    apply Finset.mem_insert.mpr
    rcases Finset.mem_insert.mp member with rfl | older
    · exact .inl rfl
    · exact .inr (owned.numaHeld block older)
  locsDistinct := owned.locsDistinct
  locsLive := owned.locsLive
  locsHidden := owned.locsHidden_insert fresh

/-- `record_seg` obtains an entry from libc and puts the block in transit into the table. -/
theorem record {addr size loc : Nat}
    (owned : Owned entries ((addr, size) :: transit) ledger held) (positive : 0 < size)
    (fresh : ledger.Fresh (some loc))
    : Owned (⟨loc, addr, size⟩ :: entries) transit (ledger.grantLibc (some loc)) held where
  toTracked := (owned.toTracked.record loc positive).of_numa_eq rfl
  complete := by
    intro block member
    exact List.perm_middle.mem_iff.mp (owned.complete block member)
  apart := owned.apart_insert fresh
  heldLive := by
    intro other member
    exact Ledger.mem_live_grantLibc.mpr (.inr (owned.heldLive other member))
  numaHeld := owned.numaHeld
  locsDistinct := by
    refine List.nodup_cons.mpr ⟨?_, owned.locsDistinct⟩
    intro seen
    obtain ⟨entry, member, same⟩ := List.mem_map.mp seen
    have inLibc := owned.locsLive entry member
    rw [same] at inLibc
    exact fresh loc rfl (Ledger.mem_live.mpr (.inr inLibc))
  locsLive := by
    intro entry member
    apply Finset.mem_insert.mpr
    rcases List.mem_cons.mp member with rfl | older
    · exact .inl rfl
    · exact .inr (owned.locsLive entry older)
  locsHidden := by
    intro entry member
    rcases List.mem_cons.mp member with rfl | older
    · exact fun inHeld => fresh loc rfl (owned.heldLive loc inHeld)
    · exact owned.locsHidden entry older

/-- `check_and_remove_seg` takes a block out of the table and gives the entry back. -/
theorem unlink {entry : AddrEntry} (owned : Owned (entry :: entries) transit ledger held)
    : Owned entries ((entry.addr, entry.size) :: transit) (ledger.releaseLibc entry.loc)
        held where
  toTracked := owned.toTracked.unlink.of_numa_eq rfl
  complete := by
    intro block member
    exact List.perm_middle.mem_iff.mpr (owned.complete block member)
  apart := by
    intro block member inLibc
    exact owned.apart block member (Finset.mem_of_mem_erase inLibc)
  heldLive := by
    intro other member
    refine Ledger.mem_live_releaseLibc ?_ (owned.heldLive other member)
    rintro rfl
    exact owned.locsHidden entry List.mem_cons_self member
  numaHeld := owned.numaHeld
  locsDistinct := (List.nodup_cons.mp owned.locsDistinct).2
  locsLive := by
    intro other member
    refine Finset.mem_erase.mpr ⟨?_, owned.locsLive other (List.mem_cons_of_mem _ member)⟩
    intro same
    have unseen := (List.nodup_cons.mp owned.locsDistinct).1
    exact unseen (List.mem_map.mpr ⟨other, member, same⟩)
  locsHidden := fun other member => owned.locsHidden other (List.mem_cons_of_mem _ member)

/-- `numa_free` ends a block in transit that the program gave back. -/
theorem release {addr size : Nat}
    (owned : Owned entries ((addr, size) :: transit) ledger held)
    : Owned entries transit (ledger.releaseNuma addr size) (held.erase addr) where
  toTracked := owned.toTracked.release
  complete := by
    intro block member
    obtain ⟨different, older⟩ := Finset.mem_erase.mp member
    have place := List.perm_middle.mem_iff.mp (owned.complete block older)
    exact (List.mem_cons.mp place).resolve_left different
  apart := fun block member => owned.apart block (Finset.mem_of_mem_erase member)
  heldLive := by
    intro other member
    obtain ⟨different, older⟩ := Finset.mem_erase.mp member
    exact Ledger.mem_live_releaseNuma different (owned.heldLive other older)
  numaHeld := by
    intro block member
    obtain ⟨different, older⟩ := Finset.mem_erase.mp member
    refine Finset.mem_erase.mpr ⟨?_, owned.numaHeld block older⟩
    have place := List.perm_middle.mem_iff.mp (owned.complete block older)
    exact owned.toTracked.transit_distinct block
      ((List.mem_cons.mp place).resolve_left different)
  locsDistinct := owned.locsDistinct
  locsLive := owned.locsLive
  locsHidden := by
    intro entry member inHeld
    exact owned.locsHidden entry member (Finset.mem_of_mem_erase inHeld)

/-- libc hands a fresh block to the program. -/
theorem grantLibc (owned : Owned entries transit ledger held) {addr : Addr}
    (fresh : ledger.Fresh (some addr))
    : Owned entries transit (ledger.grantLibc (some addr)) (insert addr held) where
  toTracked := owned.toTracked.of_numa_eq rfl
  complete := owned.complete
  apart := owned.apart_insert fresh
  heldLive := by
    intro other member
    exact Ledger.mem_live_grantLibc.mpr
      ((Finset.mem_insert.mp member).imp_right (owned.heldLive other))
  numaHeld := fun block member => Finset.mem_insert_of_mem (owned.numaHeld block member)
  locsDistinct := owned.locsDistinct
  locsLive := fun entry member => Finset.mem_insert_of_mem (owned.locsLive entry member)
  locsHidden := owned.locsHidden_insert fresh

/-- libc takes back a block of its own that the program held. -/
theorem releaseLibc (owned : Owned entries transit ledger held) {addr : Addr}
    (mine : addr ∈ held) (unrouted : ∀ size, (addr, size) ∉ ledger.numa)
    : Owned entries transit (ledger.releaseLibc addr) (held.erase addr) where
  toTracked := owned.toTracked.of_numa_eq rfl
  complete := owned.complete
  apart := by
    intro block member inLibc
    exact owned.apart block member (Finset.mem_of_mem_erase inLibc)
  heldLive := by
    intro other member
    obtain ⟨different, older⟩ := Finset.mem_erase.mp member
    exact Ledger.mem_live_releaseLibc different (owned.heldLive other older)
  numaHeld := by
    intro block member
    refine Finset.mem_erase.mpr ⟨?_, owned.numaHeld block member⟩
    rintro rfl
    exact unrouted block.2 member
  locsDistinct := owned.locsDistinct
  locsLive := by
    intro entry member
    refine Finset.mem_erase.mpr ⟨?_, owned.locsLive entry member⟩
    rintro rfl
    exact owned.locsHidden entry member mine
  locsHidden := by
    intro entry member inHeld
    exact owned.locsHidden entry member (Finset.mem_of_mem_erase inHeld)

/-- A pointer of the program that is no routed block is a live block of libc. -/
theorem legal_libc (owned : Owned entries transit ledger held) {addr : Addr}
    (mine : addr ∈ held) (unrouted : ∀ size, (addr, size) ∉ ledger.numa)
    : addr ∈ ledger.libc := by
  rcases Ledger.mem_live.mp (owned.heldLive addr mine) with ⟨size, inNuma⟩ | inLibc
  · exact absurd inNuma (unrouted size)
  · exact inLibc

/-- An address without an entry is no routed block. -/
theorem unrouted_of_unlink {table : AddrHash} {addr : Addr}
    (owned : Owned table.entries [] ledger held) (missing : table.unlink addr = none)
    : ∀ size, (addr, size) ∉ ledger.numa := by
  intro size inNuma
  have recorded := owned.complete _ inNuma
  rw [List.append_nil] at recorded
  obtain ⟨entry, member, same⟩ := List.mem_map.mp recorded
  exact ChainedTable.unlink_none missing entry member (Prod.mk.inj same).1

end Owned

end Kumf.Interc
