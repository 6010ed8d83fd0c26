import Kumf.Interc.Tracking

/-! A `realloc` of a routed block that fails has taken the block out of the table already,
and nothing puts it back: whatever follows, `free` and `realloc` pass it to libc.
-/

namespace Kumf.Interc.World

open Kumf.Library

/-- What a failed `realloc` owes the program about its old block: the entry is still there,
and a later `free` or successful `realloc` releases the block through `numa_free` without
showing it to libc.
-/
structure KeepsBlock (world : World) (p : Addr) (n : Nat) : Prop where
  recorded : (p, n) ∈ world.lib.recorded
  freed
    : ∀ next,
        next.op = .free (some p)
        → .numaFree p n ∈ world.events next ∧ .libcFree p ∉ world.events next
  resized
    : ∀ next size,
        next.op = .realloc (some p) size
        → (exec world.lib next).ret ≠ none
        → .numaFree p n ∈ world.events next
          ∧ ∀ ret, .libcRealloc p size ret ∉ world.events next

/-- A lost block goes to libc. -/
structure LosesBlock (world : World) (p : Addr) : Prop where
  unrecorded : ∀ n, (p, n) ∉ world.lib.recorded
  freed : ∀ next, next.op = .free (some p) → world.events next = [.libcFree p]
  resized
    : ∀ next size,
        next.op = .realloc (some p) size
        → world.events next = [.libcRealloc p size next.replies.libc]

theorem LosesBlock.not_keepsBlock {world : World} {p : Addr} (loses : world.LosesBlock p)
    (n : Nat)
    : ¬ world.KeepsBlock p n :=
  fun keeps => loses.unrecorded n keeps.recorded

/-- An address without an entry is passed to libc. -/
theorem losesBlock_of_tracks {world : World} {p : Addr} {n : Nat}
    (tracks : world.lib.Tracks [(p, n)] world.ledger)
    : world.LosesBlock p := by
  have missing := tracks.unlink_lost
  constructor
  · intro m recorded
    obtain ⟨entry, member, same⟩ := List.mem_map.mp recorded
    exact ChainedTable.unlink_none missing entry member (Prod.mk.inj same).1
  · intro next op
    rw [events, exec, op]
    simp only [free, if_neg tracks.active]
    split
    · rfl
    · simp [checkAndRemoveSeg, missing]
  · intro next size op
    rw [events, exec, op]
    simp [realloc, tracks.active, checkAndRemoveSeg, missing]

/-- A failing `realloc` of a recorded block leaves it in transit for good. -/
theorem tracks_of_refused {world : World} {call : Call} {p : Addr} {n size : Nat}
    (tracks : world.lib.Tracks [] world.ledger) (backed : world.Backed call)
    (recorded : (p, n) ∈ world.lib.recorded) (op : call.op = .realloc (some p) size)
    (refused : (exec world.lib call).ret = none)
    : (world.step call).lib.Tracks [(p, n)] (world.step call).ledger := by
  have done := exec_step call tracks.active tracks.tracked.sized
  unfold Backed events at backed
  unfold step events
  revert done backed refused
  generalize exec world.lib call = outcome
  intro backed refused done
  dsimp only
  cases done with
  | allocated noPointer _ _ _ =>
      rw [op] at noPointer
      cases noPointer
  | ignored other =>
      rw [op] at other
      cases other
  | freed other _ =>
      rw [op] at other
      cases other
  | freedRouted other _ =>
      rw [op] at other
      cases other
  | resized same missing =>
      rw [op] at same
      cases same
      obtain ⟨entry, member, found⟩ := List.mem_map.mp recorded
      exact absurd (Prod.mk.inj found).1 (ChainedTable.unlink_none missing entry member)
  | moved => cases refused
  | @failed _ _ entry smaller _ _ same unlinked routing result _ =>
      rw [op] at same
      cases same
      have granted := backed.2
      rw [result] at granted
      have lost := tracks_inner tracks unlinked routing granted
      rw [← result] at lost
      have taken := (tracks.unlinked unlinked).1
      obtain ⟨address, perm⟩ := ChainedTable.unlink_some unlinked
      have samePerm : (blocks world.lib.addrHash.entries).Perm
          (blocks (entry :: smaller.entries)) := perm.map _
      have found := samePerm.mem_iff.mp recorded
      rw [blocks_cons] at found
      rcases List.mem_cons.mp found with sameBlock | stillThere
      · obtain ⟨rfl, rfl⟩ := Prod.mk.inj sameBlock
        exact lost
      · exact absurd rfl (taken.transit_distinct _ (List.mem_append_left _ stillThere))

/-- In every run, a `realloc` of a recorded block that answers null breaks its promise, and
the block is passed to libc in every continuation. Witness: the run invariant with the
block in transit.
-/
theorem run_refused_realloc_loses (world : World) (start : world.Start)
    (calls later : List Call) (call : Call) (p : Addr) (n size : Nat)
    (run : Along step Backed world (calls ++ call :: later))
    (recorded : (p, n) ∈ (calls.foldl step world).lib.recorded)
    (op : call.op = .realloc (some p) size)
    (refused : (exec (calls.foldl step world).lib call).ret = none)
    : ¬ ((calls.foldl step world).step call).KeepsBlock p n
      ∧ (later.foldl step ((calls.foldl step world).step call)).LosesBlock p := by
  obtain ⟨before, backed, after⟩ := (along_append step).mp run
  have tracks : (calls.foldl step world).lib.Tracks [] (calls.foldl step world).ledger :=
    before.invariant step (fun _ _ => step_tracks) start.tracks
  have lost := tracks_of_refused tracks backed recorded op refused
  refine ⟨(losesBlock_of_tracks lost).not_keepsBlock n, ?_⟩
  apply losesBlock_of_tracks
  have kept (world : World) (next : Call)
      (tracks : world.lib.Tracks [(p, n)] world.ledger) (backed : world.Backed next)
      : (world.step next).lib.Tracks [(p, n)] (world.step next).ledger :=
    step_tracks tracks backed
  exact after.invariant step kept lost

/-- A routed block whose move finds no memory. -/
def shortage : List Call := [.idle ⟨some 65536, some 32, none⟩ (.malloc 8192)]

def refusedMove : Call := .idle ⟨none, some 48, none⟩ (.realloc (some 65536) 16384)

theorem shortage_recorded
    : (65536, 8192) ∈ (shortage.foldl step (unused [⟨8192, 0, 1⟩])).lib.recorded :=
  List.mem_map.mpr ⟨⟨32, 65536, 8192⟩, ChainedTable.mem_entries.mpr (by decide), rfl⟩

theorem run_refused_realloc_loses_shortage
    : ¬ ((shortage.foldl step (unused [⟨8192, 0, 1⟩])).step refusedMove).KeepsBlock 65536 8192
      ∧ (([] : List Call).foldl step
          ((shortage.foldl step (unused [⟨8192, 0, 1⟩])).step refusedMove)).LosesBlock 65536 :=
  run_refused_realloc_loses (unused [⟨8192, 0, 1⟩]) (unused_start _) shortage [] refusedMove
    65536 8192 16384 (by decide) shortage_recorded rfl (by decide)

/-- After a refused move of a routed block, the next `free` hands the block to libc. -/
theorem refusedMove_freed_by_libc
    : (unused [⟨8192, 0, 1⟩]).Start
      ∧ Along step Backed (unused [⟨8192, 0, 1⟩]) (shortage ++ [refusedMove])
      ∧ (65536, 8192) ∈ (shortage.foldl step (unused [⟨8192, 0, 1⟩])).lib.recorded
      ∧ (exec (shortage.foldl step (unused [⟨8192, 0, 1⟩])).lib refusedMove).ret = none
      ∧ ¬ ((shortage.foldl step (unused [⟨8192, 0, 1⟩])).step refusedMove).KeepsBlock
          65536 8192 := by
  refine ⟨unused_start _, by decide, shortage_recorded, by decide, fun keeps => ?_⟩
  have freed := keeps.freed (.idle ⟨none, none, none⟩ (.free (some 65536))) rfl
  exact absurd freed (by decide)

end Kumf.Interc.World
