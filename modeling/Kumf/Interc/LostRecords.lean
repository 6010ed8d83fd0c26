import Kumf.Interc.FailedRealloc
import Kumf.Interc.OwnedRuns

/-! `record_seg` answers nothing when libc refuses an entry, and the hook hands the block out
all the same. A run stays clear of this, and shows libc no routed block, exactly when libc
grants every entry asked for and no move of a routed block is refused.
-/

namespace Kumf.Interc

open Kumf.Library

/-- libc is not shown a live block of `numa_alloc_onnode`. -/
def Ledger.Spares (ledger : Ledger) : Event → Prop
  | .libcFree ptr => ptr ∉ ledger.numa.image Prod.fst
  | .libcRealloc ptr _ _ => ptr ∉ ledger.numa.image Prod.fst
  | _ => True

instance (ledger : Ledger) : DecidablePred ledger.Spares
  | .numaAllocOnnode _ _ _ => isTrue trivial
  | .numaFree _ _ => isTrue trivial
  | .libcMalloc _ _ => isTrue trivial
  | .libcCalloc _ _ _ => isTrue trivial
  | .libcRealloc ptr _ _ => inferInstanceAs (Decidable (ptr ∉ ledger.numa.image Prod.fst))
  | .libcFree ptr => inferInstanceAs (Decidable (ptr ∉ ledger.numa.image Prod.fst))
  | .memcpy _ _ _ => isTrue trivial

/-- What is legal spares the routed blocks. -/
theorem Ledger.spares_of_legal {ledger : Ledger} {event : Event} (legal : ledger.Legal event)
    : ledger.Spares event := by
  have spared {ptr : Addr} (unrouted : ∀ size, (ptr, size) ∉ ledger.numa)
      : ptr ∉ ledger.numa.image Prod.fst := by
    intro routed
    obtain ⟨⟨addr, size⟩, live, rfl⟩ := Finset.mem_image.mp routed
    exact unrouted size live
  cases event with
  | libcFree ptr => exact spared legal.2
  | libcRealloc ptr size ret => exact spared legal.2
  | _ => trivial

/-- Without routed blocks there is nothing to spare. -/
theorem Ledger.spares_of_unused {ledger : Ledger} (unused : ledger.numa = ∅) (event : Event)
    : ledger.Spares event := by
  cases event <;> simp [Ledger.Spares, unused]

-----------------------------------------------------------------------------------------
-- When an entry is refused and when a move is
-----------------------------------------------------------------------------------------

/-- The size with which an operation enters the block that `malloc` and `calloc` share. -/
def Globals.requested (globals : Globals) (op : Op) : Option Nat :=
  if globals.mode = .passive then
    none
  else
    match op with
    | .malloc sz => some sz
    | .calloc nmemb size => some (nmemb * size % 2 ^ 64)
    | .realloc none size => some size
    | .realloc (some p) size => if (globals.addrHash.unlink p).isSome then some size else none
    | .free _ => none

/-- A block is routed, and `libc_malloc` answers `record_seg` with null. -/
def Globals.LacksEntry (globals : Globals) (call : Call) : Prop :=
  ∃ sz, globals.requested call.op = some sz
    ∧ globals.Routes call.site.caller sz
    ∧ call.replies.numa ≠ none
    ∧ call.replies.entry = none

/-- A recorded block is to move, and neither back end has room for it. -/
def Globals.RefusesMove (globals : Globals) (call : Call) : Prop :=
  ∃ p size, call.op = .realloc (some p) size
    ∧ globals.requested call.op = some size
    ∧ call.replies.libc = none
    ∧ (globals.Routes call.site.caller size → call.replies.numa = none)

section
variable {site : CallSite} {replies : Replies} {globals : Globals} {sz : Nat}
  {routed : Outcome} {asked : Event}

/-- The shared block loses a record when a routed block gets no entry. -/
theorem RouteStep.losesRecord_iff (routing : RouteStep site replies globals sz routed)
    (asks : asked.AsksLibc replies.libc) {after : List Event}
    (quiet : losesRecord after = false)
    : losesRecord ((routed.orLibc replies.libc asked).events ++ after) = true
      ↔ globals.Routes site.caller sz ∧ replies.numa ≠ none ∧ replies.entry = none := by
  have kept (entry : replies.entry ≠ none)
      : losesRecord ((routed.orLibc replies.libc asked).events ++ after) = false :=
    (routing.records asks entry after).trans quiet
  cases routing with
  | recorded selected granted entry _ _ _ =>
      rw [kept (by simp [entry])]
      simp [entry]
  | unrecorded selected granted entry _ _ _ =>
      simp [Outcome.orLibc, losesRecord, selected, granted, entry]
  | refused selected denied _ _ _ =>
      cases asks <;> simp [Outcome.orLibc, losesRecord, denied, quiet]
  | unrouted skipped _ _ _ =>
      cases asks <;> simp [Outcome.orLibc, losesRecord, skipped, quiet]

/-- The shared block and libc together have nothing to give. -/
theorem RouteStep.ret_eq_none_iff (routing : RouteStep site replies globals sz routed)
    : (routed.orLibc replies.libc asked).ret = none
      ↔ replies.libc = none ∧ (globals.Routes site.caller sz → replies.numa = none) := by
  cases routing with
  | recorded selected granted _ _ _ _ => simp [Outcome.orLibc, selected, granted]
  | unrecorded selected granted _ _ _ _ => simp [Outcome.orLibc, selected, granted]
  | refused _ denied _ _ _ => simp [Outcome.orLibc, denied]
  | unrouted skipped _ _ _ => simp [Outcome.orLibc, skipped]

end

section
variable {globals : Globals} {call : Call}

/-- The same of the shared block as the hooks call it. -/
theorem losesRecord_tryRoute_iff (site : CallSite) (replies : Replies) (globals : Globals)
    (sz : Nat) {asked : Event} (asks : asked.AsksLibc replies.libc)
    : losesRecord ((tryRoute site replies globals sz).orLibc replies.libc asked).events = true
      ↔ globals.Routes site.caller sz ∧ replies.numa ≠ none ∧ replies.entry = none := by
  have whole := (tryRoute_step site replies globals sz).losesRecord_iff asks
    (show losesRecord [] = false from rfl)
  rwa [List.append_nil] at whole

/-- A `free` loses no record. -/
theorem losesRecord_free {site : CallSite} {replies : Replies} {ptr : Option Addr}
    (active : globals.mode ≠ .passive) (sized : ∀ block ∈ globals.recorded, 0 < block.2)
    : losesRecord (exec globals ⟨site, replies, .free ptr⟩).events = false := by
  have done := exec_step ⟨site, replies, .free ptr⟩ active sized
  revert done
  generalize exec globals ⟨site, replies, .free ptr⟩ = outcome
  intro done
  cases done with
  | allocated _ notFree _ _ => exact absurd rfl (notFree ptr)
  | ignored _ => simp [losesRecord]
  | freed _ _ => simp [losesRecord]
  | freedRouted _ _ => simp [losesRecord]
  | resized op _ => cases op
  | moved op _ _ _ _ => cases op
  | failed op _ _ _ _ => cases op

/-- A `realloc` of a recorded block enters the shared block like a `malloc`. -/
theorem losesRecord_realloc_iff {site : CallSite} {replies : Replies} {p : Addr} {size : Nat}
    (active : globals.mode ≠ .passive) (sized : ∀ block ∈ globals.recorded, 0 < block.2)
    : losesRecord (exec globals ⟨site, replies, .realloc (some p) size⟩).events = true
      ↔ (globals.addrHash.unlink p).isSome = true
        ∧ globals.Routes site.caller size ∧ replies.numa ≠ none ∧ replies.entry = none := by
  simp only [exec, realloc, if_neg active]
  cases unlinked : globals.addrHash.unlink p with
  | none => simp [checkAndRemoveSeg, unlinked, losesRecord]
  | some found =>
      obtain ⟨entry, smaller⟩ := found
      have positive := size_pos_of_unlink sized unlinked
      have stillActive : { globals with addrHash := smaller }.mode ≠ .passive := active
      have routing := tryRoute_step site replies { globals with addrHash := smaller } size
      have lost {after : List Event} (quiet : losesRecord after = false) :=
        routing.losesRecord_iff (.malloc size) quiet
      simp only [checkAndRemoveSeg, unlinked, if_pos positive, malloc_eq stillActive,
        Option.isSome_some, true_and]
      split
      case h_1 newAddr _ =>
          rw [List.singleton_append]
          exact lost (by split <;> rfl)
      case h_2 =>
          have alone := lost (show losesRecord [] = false from rfl)
          rw [List.append_nil] at alone
          exact alone

/-- The calls of an operation show a lost entry exactly when one is lacking. -/
theorem losesRecord_exec_iff (active : globals.mode ≠ .passive)
    (sized : ∀ block ∈ globals.recorded, 0 < block.2)
    : losesRecord (exec globals call).events = true ↔ globals.LacksEntry call := by
  obtain ⟨site, replies, op⟩ := call
  unfold Globals.LacksEntry Globals.requested
  simp only [if_neg active]
  cases op with
  | malloc sz =>
      simp only [exec, malloc_eq active, Option.some.injEq, exists_eq_left']
      exact losesRecord_tryRoute_iff site replies globals sz (.malloc sz)
  | calloc nmemb size =>
      simp only [exec, calloc, if_neg active, Option.some.injEq, exists_eq_left']
      exact losesRecord_tryRoute_iff site replies globals _ (.calloc nmemb size)
  | free ptr => simp [losesRecord_free active sized]
  | realloc ptr size =>
      cases ptr with
      | none =>
          simp only [exec, realloc, if_neg active, malloc_eq active, Option.some.injEq,
            exists_eq_left']
          exact losesRecord_tryRoute_iff site replies globals size (.malloc size)
      | some p =>
          rw [losesRecord_realloc_iff active sized]
          simp

end

namespace World

/-- The library before its first routed block, in any mode and with any rules. -/
structure Unrouted (world : World) : Prop where
  untracked : world.lib.addrHash.entries = []
  numa : world.ledger.numa = ∅
  held : world.held ⊆ world.ledger.libc

/-- A call with a pointer that the program holds, and fresh answers. -/
structure Lawful (world : World) (call : Call) : Prop where
  backed : world.Backed call
  mine : ∀ p, call.op.pointer = some p → p ∈ world.held

/-- libc grants the entry that a routed block needs, and a recorded block that is to move
finds room.
-/
structure Supplied (world : World) (call : Call) : Prop where
  entry : ¬ world.lib.LacksEntry call
  move : ¬ world.lib.RefusesMove call

/-- The table has an entry for every block that `numa_alloc_onnode` handed out. -/
def Covered (world : World) : Prop := ∀ block ∈ world.ledger.numa, block ∈ world.lib.recorded

/-- An exact table covers all routed blocks. -/
theorem Tidy.covered {world : World} (tidy : world.Tidy) : world.Covered := by
  intro block live
  simpa [Globals.recorded, blocks] using tidy.owned.complete block live

-----------------------------------------------------------------------------------------
-- PASSIVE mode
-----------------------------------------------------------------------------------------

/-- A library in PASSIVE mode that never routed a block. -/
structure Idle (world : World) : Prop where
  passive : world.lib.mode = .passive
  numa : world.ledger.numa = ∅

/-- A library that routes nothing goes on without routing. -/
theorem step_idle {world : World} (idle : world.Idle) (call : Call)
    : (world.step call).Idle := by
  obtain ⟨passive, numa⟩ := idle
  obtain ⟨site, replies, op⟩ := call
  unfold step events
  cases op with
  | malloc sz => constructor <;> simp [exec, malloc, passive, numa, Ledger.apply]
  | calloc nmemb size => constructor <;> simp [exec, calloc, passive, numa, Ledger.apply]
  | realloc ptr size =>
      cases ptr <;> constructor <;> simp [exec, realloc, passive, numa, Ledger.apply]
  | free ptr => cases ptr <;> constructor <;> simp [exec, free, passive, numa, Ledger.apply]

/-- Without routed blocks all are covered. -/
theorem Idle.covered {world : World} (idle : world.Idle) : world.Covered := by
  intro block live
  rw [idle.numa] at live
  exact absurd live (Finset.notMem_empty block)

/-- Without routing nothing needs an entry. -/
theorem Idle.supplied {world : World} (idle : world.Idle) (call : Call)
    : world.Supplied call := by
  constructor
  · rintro ⟨sz, requested, _⟩
    simp [Globals.requested, idle.passive] at requested
  · rintro ⟨p, size, _, requested, _⟩
    simp [Globals.requested, idle.passive] at requested

/-- Without routed blocks every call spares them. -/
theorem Idle.spares {world : World} (idle : world.Idle) (call : Call)
    : Along Ledger.apply Ledger.Spares world.ledger (world.events call) := by
  have spares := Ledger.spares_of_unused idle.numa
  have passive := idle.passive
  obtain ⟨site, replies, op⟩ := call
  unfold events
  cases op with
  | malloc sz =>
      simp only [exec, malloc, passive, if_true]
      exact ⟨spares _, trivial⟩
  | calloc nmemb size =>
      simp only [exec, calloc, passive, if_true]
      exact ⟨spares _, trivial⟩
  | realloc ptr size =>
      cases ptr <;> simp only [exec, realloc, passive, if_true] <;> exact ⟨spares _, trivial⟩
  | free ptr =>
      cases ptr with
      | none => trivial
      | some p =>
          simp only [exec, free, passive, if_true]
          exact ⟨spares _, trivial⟩

-----------------------------------------------------------------------------------------
-- The other modes, one operation
-----------------------------------------------------------------------------------------

section
variable {world : World} {call : Call} {p : Addr} {size : Nat}

/-- The move of a recorded block is refused when both back ends refuse. -/
theorem ret_realloc_eq_none_iff (tidy : world.Tidy) (op : call.op = .realloc (some p) size)
    (found : (world.lib.addrHash.unlink p).isSome)
    : (exec world.lib call).ret = none
      ↔ call.replies.libc = none
        ∧ (world.lib.Routes call.site.caller size → call.replies.numa = none) := by
  have done := exec_step call tidy.tracks.active tidy.tracks.tracked.sized
  revert done
  generalize exec world.lib call = outcome
  intro done
  cases done with
  | allocated noPointer _ _ _ =>
      rw [op] at noPointer
      cases noPointer
  | ignored other =>
      rw [op] at other
      cases other
  | freed other _ =>
      rw [op] at other
      cases other
  | freedRouted other _ =>
      rw [op] at other
      cases other
  | resized same missing =>
      rw [op] at same
      cases same
      rw [missing] at found
      cases found
  | moved same unlinked routing result given
  | failed same unlinked routing result given =>
      -- whether the move has failed or not, the result is that of the routing
      rw [op] at same
      cases same
      have refused : (Outcome.orLibc _ _ (.libcMalloc size call.replies.libc)).ret = none ↔ _ :=
        routing.ret_eq_none_iff
      rw [← result, given] at refused
      exact refused

/-- A `realloc` asks for a block of its own when it finds an entry. -/
theorem requested_realloc (active : world.lib.mode ≠ .passive)
    (op : call.op = .realloc (some p) size)
    : world.lib.requested call.op = some size ↔ (world.lib.addrHash.unlink p).isSome := by
  simp [Globals.requested, active, op, Option.isSome_iff_ne_none]

/-- A call with its entries and its room records its blocks. -/
theorem Lawful.recording (lawful : world.Lawful call) (tidy : world.Tidy)
    (supplied : world.Supplied call)
    : world.Recording call := by
  refine ⟨lawful.backed, lawful.mine, ?_, ?_⟩
  · have loses : losesRecord (exec world.lib call).events = true ↔ world.lib.LacksEntry call :=
      losesRecord_exec_iff tidy.tracks.active tidy.tracks.tracked.sized
    exact eq_false_of_ne_true (fun lost => supplied.entry (loses.mp lost))
  · intro p size n op live refused
    have found : (world.lib.addrHash.unlink p).isSome := by
      cases unlinked : world.lib.addrHash.unlink p with
      | some _ => rfl
      | none =>
          obtain ⟨entry, member, same⟩ := List.mem_map.mp (tidy.covered _ live)
          exact absurd (Prod.mk.inj same).1 (ChainedTable.unlink_none unlinked entry member)
    have empty := (ret_realloc_eq_none_iff tidy op found).mp refused
    exact supplied.move
      ⟨p, size, op, (requested_realloc tidy.tracks.active op).mpr found, empty⟩

/-- An address that is no routed block has no entry. -/
theorem Tidy.unrecorded (tidy : world.Tidy) (unrouted : ∀ n, (p, n) ∉ world.ledger.numa)
    : (p, size) ∉ world.lib.recorded := by
  intro recorded
  exact unrouted size (tidy.owned.live _ (List.mem_append_left _ recorded))

/-- A refused entry leaves the new block without one. -/
theorem uncovered_of_lacksEntry (tidy : world.Tidy) (lawful : world.Lawful call)
    (lacks : world.lib.LacksEntry call)
    : ¬ (world.step call).Covered := by
  have loses := (losesRecord_exec_iff tidy.tracks.active tidy.tracks.tracked.sized).mpr lacks
  have done := exec_step call tidy.tracks.active tidy.tracks.tracked.sized
  have backed := lawful.backed
  unfold Backed events at backed
  unfold step events
  revert loses done backed
  generalize exec world.lib call = outcome
  intro loses done backed covered
  cases done with
  | @allocated sz _ _ op notFree routing asks =>
      cases routing with
      | recorded => cases loses
      | @unrecorded addr node after selected granted entry setup used same =>
          have new : ∀ n, (addr, n) ∉ world.ledger.numa :=
            fun n live => backed.1 addr rfl (Ledger.mem_live.mpr (.inl ⟨n, live⟩))
          have recorded : (addr, sz) ∈ after.recorded :=
            covered (addr, sz) (Finset.mem_insert_self _ _)
          rw [Globals.recorded, same] at recorded
          exact tidy.unrecorded new recorded
      | refused => cases asks <;> cases loses
      | unrouted => cases asks <;> cases loses
  | ignored op => cases loses
  | freed op unseen => cases loses
  | freedRouted op unlinked => cases loses
  | resized op missing => cases loses
  | @moved p size found smaller routed inner newAddr op unlinked routing result given =>
      obtain ⟨address, perm⟩ := ChainedTable.unlink_some unlinked
      rw [result] at given loses backed covered
      cases routing with
      | recorded => cases loses
      | refused => cases loses
      | unrouted => cases loses
      | @unrecorded addr node after selected granted entry setup used same =>
          have new : ∀ n, (addr, n) ∉ world.ledger.numa :=
            fun n live => backed.2.1 addr rfl (Ledger.mem_live.mpr (.inl ⟨n, live⟩))
          have different : (addr, size) ≠ (p, found.size) := by
            intro same
            exact new found.size ((Prod.mk.inj same).1 ▸ (tidy.unlink unlinked).2.2)
          have recorded : (addr, size) ∈ after.recorded :=
            covered (addr, size) (Finset.mem_erase.mpr ⟨different, Finset.mem_insert_self _ _⟩)
          rw [Globals.recorded, same] at recorded
          obtain ⟨entry, member, block⟩ := List.mem_map.mp recorded
          refine tidy.unrecorded new (List.mem_map.mpr ⟨entry, ?_, block⟩)
          exact perm.mem_iff.mpr (List.mem_cons_of_mem _ member)
  | @failed p size found smaller routed inner op unlinked routing result refused =>
      rw [result] at refused loses
      cases routing with
      | recorded => cases loses
      | unrecorded => cases refused
      | refused => cases loses
      | unrouted => cases loses

/-- A refused move leaves the old block without its entry. -/
theorem uncovered_of_refusesMove (tidy : world.Tidy) (lawful : world.Lawful call)
    (refuses : world.lib.RefusesMove call)
    : ¬ (world.step call).Covered := by
  obtain ⟨p, size, op, requested, empty⟩ := refuses
  have found := (requested_realloc tidy.tracks.active op).mp requested
  have refused := (ret_realloc_eq_none_iff tidy op found).mpr empty
  obtain ⟨⟨entry, smaller⟩, unlinked⟩ := Option.isSome_iff_exists.mp found
  have recorded := tidy.covered _ (tidy.unlink unlinked).2.2
  have lost := tracks_of_refused tidy.tracks lawful.backed recorded op refused
  intro covered
  have live := lost.tracked.live (p, entry.size) (List.mem_append_right _ List.mem_cons_self)
  exact (losesBlock_of_tracks lost).unrecorded entry.size (covered _ live)

end

-----------------------------------------------------------------------------------------
-- Runs
-----------------------------------------------------------------------------------------

/-- At the start nothing is routed, by rules or so far. -/
theorem Unrouted.idle_or_tidy {world : World} (unrouted : world.Unrouted)
    : world.Idle ∨ world.Tidy := by
  by_cases passive : world.lib.mode = .passive
  · exact .inl ⟨passive, unrouted.numa⟩
  · exact .inr (Start.tidy ⟨passive, unrouted.untracked, unrouted.numa, unrouted.held⟩)

/-- A lawful call with its entries keeps either of them. -/
theorem step_idle_or_tidy {world : World} {call : Call} (ready : world.Idle ∨ world.Tidy)
    (steady : world.Lawful call ∧ world.Supplied call)
    : (world.step call).Idle ∨ (world.step call).Tidy := by
  rcases ready with idle | tidy
  · exact .inl (step_idle idle call)
  · exact .inr (step_tidy tidy (steady.1.recording tidy steady.2))

/-- One operation covers every routed block and shows libc none when it is supplied. -/
theorem step_covered {world : World} {call : Call} (ready : world.Idle ∨ world.Tidy)
    (steady : world.Lawful call ∧ world.Supplied call)
    : (world.step call).Covered
      ∧ Along Ledger.apply Ledger.Spares world.ledger (world.events call) := by
  rcases ready with idle | tidy
  · exact ⟨(step_idle idle call).covered, idle.spares call⟩
  · have recording := steady.1.recording tidy steady.2
    refine ⟨(step_tidy tidy recording).covered, ?_⟩
    exact (step_owned tidy recording).2.imp Ledger.apply
      (fun _ _ legal => Ledger.spares_of_legal legal)

/-- An operation that leaves every routed block covered was supplied. -/
theorem supplied_of_covered {world : World} {call : Call} (ready : world.Idle ∨ world.Tidy)
    (lawful : world.Lawful call) (covered : (world.step call).Covered)
    : world.Supplied call := by
  rcases ready with idle | tidy
  · exact idle.supplied call
  · exact ⟨fun lacks => uncovered_of_lacksEntry tidy lawful lacks covered,
      fun refuses => uncovered_of_refusesMove tidy lawful refuses covered⟩

/-- A run never leaves a routed block without its entry, and never shows libc one, exactly
when libc grants every entry that a routed block needs and no recorded block is refused its
move. Witness: the invariant `Tidy`, which one lost entry breaks for good.
-/
theorem run_covered_iff (world : World) (unrouted : world.Unrouted) (calls : List Call)
    (run : Along step Lawful world calls)
    : Along step (fun world call => (world.step call).Covered) world calls
        ∧ Along Ledger.apply Ledger.Spares world.ledger (outputs step events world calls)
      ↔ Along step Supplied world calls := by
  constructor
  · rintro ⟨covered, -⟩
    have ready := unrouted.idle_or_tidy
    clear unrouted
    induction calls generalizing world with
    | nil => trivial
    | cons call rest ih =>
        have supplied := supplied_of_covered ready run.1 covered.1
        have next := step_idle_or_tidy ready ⟨run.1, supplied⟩
        exact ⟨supplied, ih (world.step call) run.2 covered.2 next⟩
  · intro supplied
    have steady := (along_and step).mpr ⟨run, supplied⟩
    have kept := fun world call => @step_idle_or_tidy world call
    refine ⟨?_, ?_⟩
    · exact steady.imp_of_invariant step kept
        (fun _ _ ready steady => (step_covered ready steady).1) unrouted.idle_or_tidy
    · apply along_outputs step events Ledger.apply World.ledger (fun _ _ => rfl)
      exact steady.imp_of_invariant step kept
        (fun _ _ ready steady => (step_covered ready steady).2) unrouted.idle_or_tidy

theorem unused_unrouted (sizeRules : List SizeRule) : (unused sizeRules).Unrouted where
  untracked := ChainedTable.entries_empty
  numa := rfl
  held := Finset.Subset.refl _

/-- Each call of a run with its pointers held. -/
theorem growth_lawful : Along step Lawful (unused [⟨8192, 0, 1⟩]) growth :=
  growth_admissible.imp step (fun _ _ admissible => ⟨admissible.backed, admissible.mine⟩)

/-- A block that grows through both back ends. -/
theorem run_covered_iff_growth
    : Along step (fun world call => (world.step call).Covered) (unused [⟨8192, 0, 1⟩]) growth
        ∧ Along Ledger.apply Ledger.Spares (unused [⟨8192, 0, 1⟩]).ledger
          (outputs step events (unused [⟨8192, 0, 1⟩]) growth)
      ↔ Along step Supplied (unused [⟨8192, 0, 1⟩]) growth :=
  run_covered_iff (unused [⟨8192, 0, 1⟩]) (unused_unrouted _) growth growth_lawful

/-- A routed block whose entry libc refuses, and which the program then frees. -/
def unlisted : List Call :=
  [ .idle ⟨some 65536, none, none⟩ (.malloc 8192),
    .idle ⟨none, none, none⟩ (.free (some 65536)) ]

/-- The block goes to `libc_free`. -/
theorem unlisted_freed_by_libc
    : (unused [⟨8192, 0, 1⟩]).Unrouted
      ∧ Along step Lawful (unused [⟨8192, 0, 1⟩]) unlisted
      ∧ outputs step events (unused [⟨8192, 0, 1⟩]) unlisted
        = [.numaAllocOnnode 8192 1 (some 65536), .libcMalloc entrySize none, .libcFree 65536]
      ∧ ¬ Along Ledger.apply Ledger.Spares (unused [⟨8192, 0, 1⟩]).ledger
          (outputs step events (unused [⟨8192, 0, 1⟩]) unlisted) := by
  refine ⟨unused_unrouted _, ⟨⟨by decide, ?_⟩, ⟨by decide, ?_⟩, trivial⟩, by decide,
    by decide⟩
  · intro _ noPointer
    cases noPointer
  · intro _ same
    cases same
    decide

end World

end Kumf.Interc
