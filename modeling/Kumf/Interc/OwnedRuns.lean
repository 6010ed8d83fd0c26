import Kumf.Interc.Ownership

/-! Runs of the library in which no bookkeeping allocation and no move of a routed block
fails: each operation keeps the table exact and asks the back ends for legal things only.
-/

namespace Kumf.Interc

open Kumf.Library

/-- A routed block was granted, and libc refused its entry. -/
def losesRecord : List Event → Bool
  | .numaAllocOnnode _ _ (some _) :: .libcMalloc _ none :: _ => true
  | _ :: rest => losesRecord rest
  | [] => false

section
variable {site : CallSite} {replies : Replies} {globals : Globals} {sz : Nat}
  {routed : Outcome} {asked : Event} {transit : List (Addr × Nat)} {ledger : Ledger}
  {held : Finset Addr}

/-- An answer of libc, null or fresh, goes to the program. -/
theorem Owned.grantReply {entries : List AddrEntry} (owned : Owned entries transit ledger held)
    {reply : Option Addr} (fresh : ledger.Fresh reply)
    : Owned entries transit (ledger.grantLibc reply) (hold held reply) := by
  cases reply with
  | none => exact owned
  | some addr => exact owned.grantLibc fresh

theorem Owned.not_held {entries : List AddrEntry} (owned : Owned entries transit ledger held)
    {reply : Option Addr} (fresh : ledger.Fresh reply)
    : ∀ addr ∈ reply, addr ∉ held :=
  fun addr given inHeld => fresh addr given (owned.heldLive addr inHeld)

/-- `libc_realloc` moves a block of libc, keeps it in place or refuses. -/
theorem Owned.resize {entries : List AddrEntry} (owned : Owned entries transit ledger held)
    {p : Addr} {size : Nat} {ret : Option Addr} (mine : p ∈ held)
    (unrouted : ∀ size, (p, size) ∉ ledger.numa)
    (granted : ledger.Grants (.libcRealloc p size ret))
    : Owned entries transit (ledger.resizeLibc p size ret)
        (if ret = none ∧ size ≠ 0 then held else hold (held.erase p) ret) := by
  cases ret with
  | none =>
      by_cases zero : size = 0
      · simp only [Ledger.resizeLibc, zero, ne_eq, not_true_eq_false, and_false, if_true,
          if_false]
        exact owned.releaseLibc mine unrouted
      · simp only [Ledger.resizeLibc, zero, ne_eq, not_false_eq_true, and_self, if_true,
          if_false]
        exact owned
  | some addr =>
      have fresh : (ledger.releaseLibc p).Fresh (some addr) := by
        rintro _ ⟨⟩ live
        rcases granted with inPlace | fresh
        · cases inPlace
          rcases Ledger.mem_live.mp live with ⟨sz, inNuma⟩ | inLibc
          · exact unrouted sz inNuma
          · exact Finset.notMem_erase _ _ inLibc
        · apply fresh addr rfl
          apply Ledger.mem_live.mpr
          rcases Ledger.mem_live.mp live with inNuma | inLibc
          · exact .inl inNuma
          · exact .inr (Finset.mem_of_mem_erase inLibc)
      have released := owned.releaseLibc mine unrouted
      simpa [Ledger.resizeLibc, hold] using released.grantLibc fresh

/-- The shared block and the fall back to libc keep the table exact if the entry for a
routed block can be had. Witness: the four ways of `RouteStep`.
-/
theorem RouteStep.owned (routing : RouteStep site replies globals sz routed)
    (asks : asked.AsksLibc replies.libc)
    (records : losesRecord (routed.orLibc replies.libc asked).events = false)
    (owned : Owned globals.addrHash.entries transit ledger held)
    (granted : Along Ledger.apply Ledger.Grants ledger
      (routed.orLibc replies.libc asked).events)
    : Owned (routed.orLibc replies.libc asked).globals.addrHash.entries transit
        ((routed.orLibc replies.libc asked).events.foldl Ledger.apply ledger)
        (hold held (routed.orLibc replies.libc asked).ret)
      ∧ ∀ addr ∈ (routed.orLibc replies.libc asked).ret, addr ∉ held := by
  cases routing with
  | @recorded addr loc node after selected _ _ _ _ pushed =>
      obtain ⟨fresh, freshEntry, _⟩ := granted
      have positive : 0 < sz := Nat.zero_lt_of_lt selected.2.1
      have inTransit : Owned globals.addrHash.entries ((addr, sz) :: transit)
          (ledger.grantNuma sz (some addr)) (insert addr held) :=
        owned.grant fresh
      have inTable := inTransit.record positive freshEntry
      refine ⟨?_, owned.not_held fresh⟩
      simp only [Outcome.orLibc, pushed]
      exact inTable.perm (ChainedTable.entries_push _ _)
  | unrecorded => cases records
  | refused _ _ _ _ same =>
      obtain ⟨_, grantedAsked, _⟩ := granted
      have fresh := asks.fresh grantedAsked
      refine ⟨?_, owned.not_held fresh⟩
      simp only [Outcome.orLibc, same, List.cons_append, List.nil_append, List.foldl_cons,
        List.foldl_nil, asks.apply]
      exact owned.grantReply fresh
  | unrouted _ _ _ same =>
      have fresh := asks.fresh granted.1
      refine ⟨?_, owned.not_held fresh⟩
      simp only [Outcome.orLibc, same, List.nil_append, List.foldl_cons, List.foldl_nil,
        asks.apply]
      exact owned.grantReply fresh

/-- With an entry at hand, they leave no block without one. -/
theorem RouteStep.records (routing : RouteStep site replies globals sz routed)
    (asks : asked.AsksLibc replies.libc) (entry : replies.entry ≠ none) (after : List Event)
    : losesRecord ((routed.orLibc replies.libc asked).events ++ after) = losesRecord after := by
  cases routing with
  | recorded => rfl
  | unrecorded _ _ missing _ _ _ => exact absurd missing entry
  | refused => cases asks <;> rfl
  | unrouted => cases asks <;> rfl

/-- They release nothing. -/
theorem RouteStep.legal (routing : RouteStep site replies globals sz routed)
    (asks : asked.AsksLibc replies.libc) (ledger : Ledger)
    : Along Ledger.apply Ledger.Legal ledger (routed.orLibc replies.libc asked).events := by
  cases routing with
  | recorded => exact ⟨trivial, trivial, trivial⟩
  | unrecorded => exact ⟨trivial, trivial, trivial⟩
  | refused => exact ⟨trivial, asks.legal _, trivial⟩
  | unrouted => exact ⟨asks.legal _, trivial⟩

end

theorem losesRecord_cons (event : Event) {rest : List Event}
    (loses : losesRecord rest = true)
    : losesRecord (event :: rest) = true := by
  unfold losesRecord
  split
  · rfl
  case h_2 same => exact (List.cons.inj same).2 ▸ loses
  case h_3 empty => cases empty

/-- What is lost in the first part of a list of events is lost in the whole. -/
theorem losesRecord_append {front : List Event} (back : List Event)
    (loses : losesRecord front = true)
    : losesRecord (front ++ back) = true := by
  induction front using losesRecord.induct with
  | case1 => rfl
  | case2 event rest other ih =>
      rw [losesRecord.eq_2 _ _ other] at loses
      exact losesRecord_cons event (ih loses)
  | case3 => cases loses

/-- Where no record is lost, none is lost in between. -/
theorem losesRecord_between {first : Event} {middle back : List Event}
    (records : losesRecord (first :: (middle ++ back)) = false)
    : losesRecord middle = false := by
  by_contra loses
  have whole := losesRecord_cons first
    (losesRecord_append back (eq_true_of_ne_false loses))
  rw [records] at whole
  cases whole

namespace World

/-- A call with a pointer that the program holds, fresh answers, an entry for `record_seg`
and no failing move of a routed block.
-/
structure Admissible (world : World) (call : Call) : Prop where
  backed : world.Backed call
  mine : ∀ p, call.op.pointer = some p → p ∈ world.held
  entry : call.replies.entry ≠ none
  moves : ∀ p size n, call.op = .realloc (some p) size → (p, n) ∈ world.ledger.numa →
    (exec world.lib call).ret ≠ none

/-- A call whose routed blocks get their entries. The other answers of the back ends for an
entry do not matter.
-/
structure Recording (world : World) (call : Call) : Prop where
  backed : world.Backed call
  mine : ∀ p, call.op.pointer = some p → p ∈ world.held
  records : losesRecord (world.events call) = false
  moves : ∀ p size n, call.op = .realloc (some p) size → (p, n) ∈ world.ledger.numa →
    (exec world.lib call).ret ≠ none

/-- The invariant between two operations. -/
structure Tidy (world : World) : Prop where
  tracks : world.lib.Tracks [] world.ledger
  owned : Owned world.lib.addrHash.entries [] world.ledger world.held

theorem Start.tidy {world : World} (start : world.Start) : world.Tidy := by
  have noBlock : ∀ block : Addr × Nat, block ∉ world.ledger.numa := by
    intro block
    rw [start.numa]
    exact Finset.notMem_empty block
  refine ⟨start.tracks, start.tracks.tracked, ?_, ?_, ?_, ?_, ?_, ?_, ?_⟩
  · exact fun block member => absurd member (noBlock block)
  · exact fun block member => absurd member (noBlock block)
  · exact fun addr member => Ledger.mem_live.mpr (.inr (start.held member))
  · exact fun block member => absurd member (noBlock block)
  · simp [start.untracked]
  · simp [start.untracked]
  · simp [start.untracked]

/-- Without routing ever used, or without an entry, an address is no routed block. -/
theorem Tidy.unrouted {world : World} (tidy : world.Tidy) {p : Addr}
    (unseen : world.lib.routingEverUsed = false ∨ world.lib.addrHash.unlink p = none)
    : ∀ size, (p, size) ∉ world.ledger.numa := by
  rcases unseen with unused | missing
  · intro size inNuma
    have recorded := tidy.owned.complete _ inNuma
    rw [List.append_nil] at recorded
    have used := tidy.tracks.used (List.ne_nil_of_mem recorded)
    rw [unused] at used
    cases used
  · exact tidy.owned.unrouted_of_unlink missing

/-- What a `free` or `realloc` that finds an entry does first. -/
theorem Tidy.unlink {world : World} (tidy : world.Tidy) {p : Addr} {entry : AddrEntry}
    {smaller : AddrHash} (unlinked : world.lib.addrHash.unlink p = some (entry, smaller))
    : Owned smaller.entries [(p, entry.size)] (world.ledger.releaseLibc entry.loc) world.held
      ∧ world.ledger.Legal (.libcFree entry.loc)
      ∧ (p, entry.size) ∈ world.ledger.numa := by
  obtain ⟨rfl, perm⟩ := ChainedTable.unlink_some unlinked
  have owned := tidy.owned.perm perm.symm
  have first : entry ∈ entry :: smaller.entries := List.mem_cons_self
  have inLibc := owned.locsLive entry first
  refine ⟨owned.unlink, ⟨inLibc, ?_⟩, ?_⟩
  · intro size inNuma
    exact owned.apart _ inNuma inLibc
  · refine owned.live _ (List.mem_append_left _ ?_)
    rw [blocks_cons]
    exact List.mem_cons_self

/-- An entry for every request is one for each routed block. -/
theorem Admissible.recording {world : World} {call : Call} (tidy : world.Tidy)
    (admissible : world.Admissible call)
    : world.Recording call := by
  obtain ⟨backed, mine, entry, moves⟩ := admissible
  refine ⟨backed, mine, ?_, moves⟩
  have done := exec_step call tidy.tracks.active tidy.tracks.tracked.sized
  unfold events
  revert done
  generalize exec world.lib call = outcome
  intro done
  cases done with
  | allocated op notFree routing asks =>
      have records := routing.records asks entry []
      rwa [List.append_nil] at records
  | ignored op => rfl
  | freed op unseen => rfl
  | freedRouted op unlinked => rfl
  | resized op missing => rfl
  | moved op unlinked routing result given =>
      rw [result]
      exact routing.records (.malloc _) entry _
  | @failed p size _ _ _ _ op unlinked routing result refused =>
      rw [result]
      have records := routing.records (.malloc size) entry []
      rwa [List.append_nil] at records

/-- Every operation that records its blocks keeps the table exact and asks for legal things
only.
-/
theorem step_owned {world : World} {call : Call} (tidy : world.Tidy)
    (recording : world.Recording call)
    : Owned (world.step call).lib.addrHash.entries [] (world.step call).ledger
        (world.step call).held
      ∧ Along Ledger.apply Ledger.Legal world.ledger (world.events call) := by
  obtain ⟨backed, mine, records, moves⟩ := recording
  have done := exec_step call tidy.tracks.active tidy.tracks.tracked.sized
  unfold Backed events at backed
  unfold events at records
  unfold step events
  revert backed records moves done
  generalize exec world.lib call = outcome
  intro backed records moves done
  dsimp only
  cases done with
  | allocated op notFree routing asks =>
      rw [heldAfter_allocated op notFree]
      exact ⟨(routing.owned asks records tidy.owned backed).1, routing.legal asks _⟩
  | ignored op =>
      rw [op]
      exact ⟨tidy.owned, trivial⟩
  | @freed p op unseen =>
      have held := mine p (by rw [op]; rfl)
      have unrouted := tidy.unrouted unseen
      rw [op]
      exact ⟨tidy.owned.releaseLibc held unrouted,
        ⟨tidy.owned.legal_libc held unrouted, unrouted⟩, trivial⟩
  | @freedRouted p found smaller op unlinked =>
      obtain ⟨owned, legal, live⟩ := tidy.unlink unlinked
      rw [op]
      exact ⟨owned.release, legal, live, trivial⟩
  | @resized p size op missing =>
      have held := mine p (by rw [op]; rfl)
      have unrouted := tidy.unrouted (.inr missing)
      rw [op]
      exact ⟨tidy.owned.resize held unrouted backed.1,
        ⟨tidy.owned.legal_libc held unrouted, unrouted⟩, trivial⟩
  | @moved p size found smaller routed inner newAddr op unlinked routing result given =>
      obtain ⟨owned, legal, _⟩ := tidy.unlink unlinked
      have held := mine p (by rw [op]; rfl)
      have granted := ((along_append Ledger.apply).mp backed.2).1
      have quiet := routing.legal (.malloc size) (world.ledger.releaseLibc found.loc)
      have kept := losesRecord_between records
      rw [result] at granted kept
      obtain ⟨allocated, unheld⟩ := routing.owned (.malloc size) kept owned granted
      rw [← result] at allocated unheld quiet
      rw [given] at allocated unheld
      have live := allocated.live (p, found.size)
        (List.mem_append_right _ List.mem_cons_self)
      have different : newAddr ≠ p := by
        rintro rfl
        exact unheld newAddr rfl held
      refine ⟨?_, legal, (along_append Ledger.apply).mpr ⟨quiet, ⟨?_, live, trivial⟩⟩⟩
      · have moved := allocated.release
        rw [hold, Finset.erase_insert_of_ne different] at moved
        rw [op, List.foldl_cons, List.foldl_append]
        exact moved
      · refine ⟨found.size, ?_, live⟩
        split
        · exact Nat.le_refl _
        · exact Nat.le_of_not_lt (by assumption)
  | @failed p size found smaller routed inner op unlinked routing result refused =>
      exact absurd rfl (moves p size found.size op (tidy.unlink unlinked).2.2)

theorem step_tidy {world : World} {call : Call} (tidy : world.Tidy)
    (recording : world.Recording call)
    : (world.step call).Tidy :=
  ⟨step_tracks tidy.tracks recording.backed, (step_owned tidy recording).1⟩

/-- After every admissible run the table records exactly the live routed blocks, each once
and with its size, all of them held by the program; and along the run every `numa_free` is
about a live block with its size while no live routed block reaches libc. Witness: the
invariant `Tidy` over the run.
-/
theorem run_table_exact (world : World) (start : world.Start) (calls : List Call)
    (run : Along step Admissible world calls)
    : ((calls.foldl step world).lib.recorded.map Prod.fst).Nodup
      ∧ (∀ block, block ∈ (calls.foldl step world).lib.recorded
          ↔ block ∈ (calls.foldl step world).ledger.numa)
      ∧ (∀ block ∈ (calls.foldl step world).ledger.numa,
          block.1 ∈ (calls.foldl step world).held)
      ∧ Along Ledger.apply Ledger.Legal world.ledger (outputs step events world calls) := by
  have tidy : (calls.foldl step world).Tidy :=
    run.invariant step (fun _ _ tidy admissible => step_tidy tidy (admissible.recording tidy))
      start.tidy
  have owned := tidy.owned
  refine ⟨?_, ?_, owned.numaHeld, ?_⟩
  · simpa [Globals.recorded, blocks] using owned.distinct
  · intro block
    constructor
    · intro recorded
      exact owned.live block (List.mem_append_left _ recorded)
    · intro live
      simpa [Globals.recorded, blocks] using owned.complete block live
  · apply along_outputs step events Ledger.apply World.ledger (fun _ _ => rfl)
    exact run.imp_of_invariant step
      (fun _ _ tidy admissible => step_tidy tidy (admissible.recording tidy))
      (fun _ _ tidy admissible => (step_owned tidy (admissible.recording tidy)).2) start.tidy

/-- A routed block that grows, moves and is freed. -/
def growth : List Call :=
  [ .idle ⟨some 65536, some 32, none⟩ (.malloc 8192),
    .idle ⟨some 131072, some 48, none⟩ (.realloc (some 65536) 16384),
    .idle ⟨none, some 64, none⟩ (.free (some 131072)) ]

theorem growth_admissible : Along step Admissible (unused [⟨8192, 0, 1⟩]) growth := by
  refine ⟨⟨by decide, ?_, by decide, ?_⟩, ⟨by decide, ?_, by decide, ?_⟩,
    ⟨by decide, ?_, by decide, ?_⟩, trivial⟩
  · intro _ noPointer
    cases noPointer
  · intro _ _ _ noMove
    cases noMove
  · intro _ same
    cases same
    decide
  · intro _ _ _ same _
    cases same
    decide
  · intro _ same
    cases same
    decide
  · intro _ _ _ noMove
    cases noMove

theorem run_table_exact_growth
    : ((growth.foldl step (unused [⟨8192, 0, 1⟩])).lib.recorded.map Prod.fst).Nodup
      ∧ (∀ block, block ∈ (growth.foldl step (unused [⟨8192, 0, 1⟩])).lib.recorded
          ↔ block ∈ (growth.foldl step (unused [⟨8192, 0, 1⟩])).ledger.numa)
      ∧ (∀ block ∈ (growth.foldl step (unused [⟨8192, 0, 1⟩])).ledger.numa,
          block.1 ∈ (growth.foldl step (unused [⟨8192, 0, 1⟩])).held)
      ∧ Along Ledger.apply Ledger.Legal (unused [⟨8192, 0, 1⟩]).ledger
          (outputs step events (unused [⟨8192, 0, 1⟩]) growth) :=
  run_table_exact (unused [⟨8192, 0, 1⟩]) (unused_start _) growth growth_admissible

end World

end Kumf.Interc
