import Kumf.Interc.Ledger

/-! What the table of routed blocks keeps true in every run, failures included: it records
live blocks of `numa_alloc_onnode` only, each address once. Every operation is put together
from a few elementary changes of the table and the ledger.
-/

namespace Kumf.Interc

open Kumf.Library

/-- The blocks behind a list of entries. -/
def blocks (entries : List AddrEntry) : List (Addr × Nat) :=
  entries.map (fun entry => (entry.addr, entry.size))

@[simp] theorem blocks_cons (entry : AddrEntry) (entries : List AddrEntry)
    : blocks (entry :: entries) = (entry.addr, entry.size) :: blocks entries :=
  rfl

/-- The entries and the blocks in transit, taken out of the table or not yet in it, are
live and have addresses of their own.
-/
structure Tracked (entries : List AddrEntry) (transit : List (Addr × Nat)) (ledger : Ledger)
    : Prop where
  live : ∀ block ∈ blocks entries ++ transit, block ∈ ledger.numa
  distinct : ((blocks entries ++ transit).map Prod.fst).Nodup
  sized : ∀ block ∈ blocks entries, 0 < block.2

namespace Tracked

variable {entries other : List AddrEntry} {transit : List (Addr × Nat)} {ledger after : Ledger}

theorem perm (tracked : Tracked entries transit ledger) (same : other.Perm entries)
    : Tracked other transit ledger := by
  have sameBlocks : (blocks other).Perm (blocks entries) := same.map _
  have sameAll := sameBlocks.append_right transit
  constructor
  · intro block member
    exact tracked.live block (sameAll.mem_iff.mp member)
  · exact (sameAll.map Prod.fst).nodup_iff.mpr tracked.distinct
  · intro block member
    exact tracked.sized block (sameBlocks.mem_iff.mp member)

/-- Changes of libc's blocks alone do not matter. -/
theorem of_numa_eq (tracked : Tracked entries transit ledger) (same : after.numa = ledger.numa)
    : Tracked entries transit after := by
  refine ⟨?_, tracked.distinct, tracked.sized⟩
  intro block member
  rw [same]
  exact tracked.live block member

/-- A fresh block of `numa_alloc_onnode` is in transit at first. -/
theorem grant (tracked : Tracked entries transit ledger) {addr size : Nat}
    (fresh : ledger.Fresh (some addr))
    : Tracked entries ((addr, size) :: transit) (ledger.grantNuma size (some addr)) := by
  have swap : (blocks entries ++ (addr, size) :: transit).Perm
      ((addr, size) :: (blocks entries ++ transit)) := List.perm_middle
  have unseen : addr ∉ (blocks entries ++ transit).map Prod.fst := by
    intro seen
    obtain ⟨⟨_, size⟩, member, rfl⟩ := List.mem_map.mp seen
    exact fresh _ rfl (Ledger.mem_live.mpr (.inl ⟨size, tracked.live _ member⟩))
  constructor
  · intro block member
    apply Finset.mem_insert.mpr
    rcases List.mem_cons.mp (swap.mem_iff.mp member) with same | older
    · exact .inl same
    · exact .inr (tracked.live block older)
  · apply (swap.map Prod.fst).nodup_iff.mpr
    exact List.nodup_cons.mpr ⟨unseen, tracked.distinct⟩
  · exact tracked.sized

/-- `record_seg` moves a block from transit into the table. -/
theorem record {addr size : Nat} (tracked : Tracked entries ((addr, size) :: transit) ledger)
    (loc : Addr) (positive : 0 < size)
    : Tracked (⟨loc, addr, size⟩ :: entries) transit ledger := by
  have swap : (blocks (⟨loc, addr, size⟩ :: entries) ++ transit).Perm
      (blocks entries ++ (addr, size) :: transit) := List.perm_middle.symm
  constructor
  · intro block member
    exact tracked.live block (swap.mem_iff.mp member)
  · exact (swap.map Prod.fst).nodup_iff.mpr tracked.distinct
  · intro block member
    rcases List.mem_cons.mp member with rfl | older
    · exact positive
    · exact tracked.sized block older

/-- `check_and_remove_seg` moves it back. -/
theorem unlink {entry : AddrEntry} (tracked : Tracked (entry :: entries) transit ledger)
    : Tracked entries ((entry.addr, entry.size) :: transit) ledger := by
  have swap : (blocks entries ++ (entry.addr, entry.size) :: transit).Perm
      (blocks (entry :: entries) ++ transit) := List.perm_middle
  constructor
  · intro block member
    exact tracked.live block (swap.mem_iff.mp member)
  · exact (swap.map Prod.fst).nodup_iff.mpr tracked.distinct
  · intro block member
    exact tracked.sized block (List.mem_cons_of_mem _ member)

/-- A block in transit can be forgotten. -/
theorem forget {block : Addr × Nat} (tracked : Tracked entries (block :: transit) ledger)
    : Tracked entries transit ledger := by
  have part : (blocks entries ++ transit).Sublist (blocks entries ++ block :: transit) :=
    (List.sublist_cons_self block transit).append_left _
  refine ⟨?_, tracked.distinct.sublist (part.map Prod.fst), tracked.sized⟩
  intro other member
  exact tracked.live other (part.subset member)

/-- The address of a block in transit is not that of any other block. -/
theorem transit_distinct {addr size : Nat}
    (tracked : Tracked entries ((addr, size) :: transit) ledger)
    : ∀ block ∈ blocks entries ++ transit, block.1 ≠ addr := by
  have swap : (blocks entries ++ (addr, size) :: transit).Perm
      ((addr, size) :: (blocks entries ++ transit)) := List.perm_middle
  have nodup := (swap.map Prod.fst).nodup_iff.mp tracked.distinct
  have unseen := (List.nodup_cons.mp nodup).1
  intro block member same
  exact unseen (List.mem_map.mpr ⟨block, member, same⟩)

/-- `numa_free` ends a block in transit. -/
theorem release {addr size : Nat} (tracked : Tracked entries ((addr, size) :: transit) ledger)
    : Tracked entries transit (ledger.releaseNuma addr size) := by
  have kept := tracked.forget
  refine ⟨?_, kept.distinct, kept.sized⟩
  intro block member
  apply Finset.mem_erase.mpr
  refine ⟨?_, kept.live block member⟩
  rintro rfl
  exact tracked.transit_distinct _ member rfl

end Tracked

-----------------------------------------------------------------------------------------
-- The shared block in terms of the elementary changes
-----------------------------------------------------------------------------------------

/-- The shared block and the fall back to libc keep the table sound, whatever they are
answered.
-/
theorem RouteStep.tracked {site : CallSite} {replies : Replies} {globals : Globals} {sz : Nat}
    {routed : Outcome} {asked : Event} {transit : List (Addr × Nat)} {ledger : Ledger}
    (routing : RouteStep site replies globals sz routed) (asks : asked.AsksLibc replies.libc)
    (tracked : Tracked globals.addrHash.entries transit ledger)
    (granted : Along Ledger.apply Ledger.Grants ledger
      (routed.orLibc replies.libc asked).events)
    : Tracked (routed.orLibc replies.libc asked).globals.addrHash.entries transit
        ((routed.orLibc replies.libc asked).events.foldl Ledger.apply ledger) := by
  cases routing with
  | @recorded addr loc node after selected _ _ _ _ pushed =>
      have positive : 0 < sz := Nat.zero_lt_of_lt selected.2.1
      have inTable : Tracked (⟨loc, addr, sz⟩ :: globals.addrHash.entries) transit
          (ledger.grantNuma sz (some addr)) :=
        (tracked.grant granted.1).record loc positive
      simp only [Outcome.orLibc, pushed, List.foldl_cons, List.foldl_nil, Ledger.apply]
      exact (inTable.perm (ChainedTable.entries_push _ _)).of_numa_eq (by simp)
  | @unrecorded addr node after _ _ _ _ _ same =>
      have live : Tracked globals.addrHash.entries transit
          (ledger.grantNuma sz (some addr)) :=
        (tracked.grant granted.1).forget
      simp only [Outcome.orLibc, same, List.foldl_cons, List.foldl_nil, Ledger.apply]
      exact live.of_numa_eq (by simp)
  | refused _ _ _ _ same =>
      simp only [Outcome.orLibc, same, List.cons_append, List.nil_append, List.foldl_cons,
        List.foldl_nil, asks.apply]
      exact tracked.of_numa_eq (by simp [Ledger.apply, Ledger.grantNuma])
  | unrouted _ _ _ same =>
      simp only [Outcome.orLibc, same, List.nil_append, List.foldl_cons, List.foldl_nil,
        asks.apply]
      exact tracked.of_numa_eq (by simp)

/-- They do not change the mode, never reset the flag, and set it with the first block. -/
theorem RouteStep.flags {site : CallSite} {replies : Replies} {globals : Globals} {sz : Nat}
    {routed : Outcome} {asked : Event} (routing : RouteStep site replies globals sz routed)
    (used : globals.recorded ≠ [] → globals.routingEverUsed = true)
    : (routed.orLibc replies.libc asked).globals.mode = globals.mode
      ∧ ((routed.orLibc replies.libc asked).globals.recorded ≠ []
        → (routed.orLibc replies.libc asked).globals.routingEverUsed = true) := by
  cases routing with
  | recorded _ _ _ setup marked _ => exact ⟨setup.mode, fun _ => marked⟩
  | unrecorded _ _ _ setup marked _ => exact ⟨setup.mode, fun _ => marked⟩
  | refused _ _ setup kept same =>
      refine ⟨setup.mode, fun recorded => kept (used ?_)⟩
      simpa only [Outcome.orLibc, Globals.recorded, same] using recorded
  | unrouted _ setup kept same =>
      refine ⟨setup.mode, fun recorded => kept (used ?_)⟩
      simpa only [Outcome.orLibc, Globals.recorded, same] using recorded

/-- The table and the flag of a library between two operations; a block that stays in
transit has been lost.
-/
structure Globals.Tracks (globals : Globals) (transit : List (Addr × Nat)) (ledger : Ledger)
    : Prop where
  active : globals.mode ≠ .passive
  tracked : Tracked globals.addrHash.entries transit ledger
  used : globals.recorded ≠ [] → globals.routingEverUsed = true

namespace Globals

variable {globals : Globals} {transit : List (Addr × Nat)} {ledger : Ledger} {p : Addr}

/-- Taking a routed block out of the table, with its entry given back to libc. -/
theorem Tracks.unlinked {entry : AddrEntry} {smaller : AddrHash}
    (tracks : globals.Tracks transit ledger)
    (unlinked : globals.addrHash.unlink p = some (entry, smaller))
    : Tracked smaller.entries ((p, entry.size) :: transit) (ledger.releaseLibc entry.loc)
      ∧ ({ globals with addrHash := smaller }.recorded ≠ []
        → globals.routingEverUsed = true) := by
  obtain ⟨rfl, perm⟩ := ChainedTable.unlink_some unlinked
  have taken := (tracks.tracked.perm perm.symm).unlink
  refine ⟨taken.of_numa_eq (by simp), ?_⟩
  intro _
  apply tracks.used
  intro empty
  rw [List.map_eq_nil_iff.mp empty] at perm
  exact absurd perm.symm.eq_nil (List.cons_ne_nil _ _)

/-- A lost block is not found again. -/
theorem Tracks.unlink_lost {n : Nat} (tracks : globals.Tracks ((p, n) :: transit) ledger)
    : globals.addrHash.unlink p = none := by
  cases unlinked : globals.addrHash.unlink p with
  | none => rfl
  | some found =>
      obtain ⟨entry, smaller⟩ := found
      obtain ⟨same, perm⟩ := ChainedTable.unlink_some unlinked
      have member : entry ∈ globals.addrHash.entries := perm.mem_iff.mpr List.mem_cons_self
      have inTable : (entry.addr, entry.size) ∈ blocks globals.addrHash.entries :=
        List.mem_map.mpr ⟨entry, member, rfl⟩
      exact absurd same (tracks.tracked.transit_distinct _ (List.mem_append_left _ inTable))

end Globals

namespace World

theorem Start.tracks {world : World} (start : world.Start)
    : world.lib.Tracks [] world.ledger := by
  refine ⟨start.active, ?_, ?_⟩
  · rw [start.untracked]
    exact ⟨by simp [blocks], by simp [blocks], by simp [blocks]⟩
  · intro recorded
    exact absurd (by simp [Globals.recorded, start.untracked]) recorded

/-- The inner `malloc` of a `realloc` runs with the entry gone and the old block in transit. -/
theorem tracks_inner {world : World} {call : Call} {transit : List (Addr × Nat)}
    {p : Addr} {size : Nat} {entry : AddrEntry} {smaller : AddrHash} {routed : Outcome}
    (tracks : world.lib.Tracks transit world.ledger)
    (unlinked : world.lib.addrHash.unlink p = some (entry, smaller))
    (routing : RouteStep call.site call.replies { world.lib with addrHash := smaller } size
      routed)
    (backed : Along Ledger.apply Ledger.Grants (world.ledger.releaseLibc entry.loc)
      (routed.orLibc call.replies.libc (.libcMalloc size call.replies.libc)).events)
    : (routed.orLibc call.replies.libc (.libcMalloc size call.replies.libc)).globals.Tracks
        ((p, entry.size) :: transit)
        ((routed.orLibc call.replies.libc (.libcMalloc size call.replies.libc)).events.foldl
          Ledger.apply (world.ledger.releaseLibc entry.loc)) := by
  obtain ⟨taken, used⟩ := tracks.unlinked unlinked
  obtain ⟨mode, marked⟩ := routing.flags used
  exact ⟨by rw [mode]; exact tracks.active, routing.tracked (.malloc _) taken backed, marked⟩

/-- Every operation keeps the table sound, by cases on what it does. -/
theorem step_tracks {world : World} {call : Call} {transit : List (Addr × Nat)}
    (tracks : world.lib.Tracks transit world.ledger) (backed : world.Backed call)
    : (world.step call).lib.Tracks transit (world.step call).ledger := by
  have done := exec_step call tracks.active tracks.tracked.sized
  unfold Backed events at backed
  unfold step events
  revert done backed
  generalize exec world.lib call = outcome
  intro backed done
  dsimp only
  cases done with
  | allocated _ _ routing asks =>
      obtain ⟨mode, used⟩ := routing.flags tracks.used
      exact ⟨by rw [mode]; exact tracks.active,
        routing.tracked asks tracks.tracked backed, used⟩
  | ignored _ => exact tracks
  | freed _ _ =>
      exact ⟨tracks.active, tracks.tracked.of_numa_eq (by simp [Ledger.apply]), tracks.used⟩
  | resized _ _ =>
      exact ⟨tracks.active, tracks.tracked.of_numa_eq (by simp [Ledger.apply]), tracks.used⟩
  | freedRouted _ unlinked =>
      obtain ⟨taken, used⟩ := tracks.unlinked unlinked
      exact ⟨tracks.active, taken.release, used⟩
  | moved _ unlinked routing result given =>
      have granted := ((along_append Ledger.apply).mp backed.2).1
      rw [result] at granted
      have inTransit := tracks_inner tracks unlinked routing granted
      rw [← result] at inTransit
      refine ⟨inTransit.active, ?_, inTransit.used⟩
      rw [List.foldl_cons, List.foldl_append]
      exact inTransit.tracked.release
  | failed _ unlinked routing result refused =>
      have granted := backed.2
      rw [result] at granted
      have lost := tracks_inner tracks unlinked routing granted
      rw [← result] at lost
      exact ⟨lost.active, lost.tracked.forget, lost.used⟩

end World

end Kumf.Interc
