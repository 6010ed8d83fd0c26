import Kumf.Interc.Ledger
import Kumf.Library.LinkedChain
import Kumf.Library.Runs

/-! The table of routed blocks as threads share it: `record_seg` and `check_and_remove_seg` load
and store by load and store, with nothing that keeps two threads apart.
-/

namespace Kumf.Interc

open Kumf.Library

namespace SharedTable

/-- `addr_hash` and the entries behind it. An entry holds an address and a size. -/
abbrev Memory := Chains (Fin addrHashSize) Addr (Addr × Nat)

abbrev Pointer := Place (Fin addrHashSize) Addr

/-- A call on the table. That of `record_seg` comes with the answer of `libc_malloc`, whose memory
holds some pointer where `next` will be.
-/
inductive TableCall where
  | recordSeg (addr : Addr) (size : Nat) (reply : Option Addr) (junk : Option Addr)
  | checkAndRemoveSeg (addr : Addr)
  deriving DecidableEq, Repr

def TableCall.addr : TableCall → Addr
  | .recordSeg addr _ _ _ => addr
  | .checkAndRemoveSeg addr => addr

def TableCall.bucket (call : TableCall) : Fin addrHashSize := addrHashFn call.addr

/-- Where a thread is in its call, with its local variables: what it does next. -/
inductive Pc where
  /-- `e->next = addr_hash[h]` -/
  | fill (e : Addr)
  /-- `addr_hash[h] = e` -/
  | publish (e : Addr)
  /-- `while (*pp)` -/
  | test (pp : Pointer)
  /-- `e = *pp` -/
  | load (pp : Pointer)
  /-- `if (e->addr == addr)`, then `sz = e->size` or `pp = &e->next` -/
  | compare (pp : Pointer) (e : Addr)
  /-- the value of `e->next` -/
  | follow (pp : Pointer) (e : Addr) (sz : Nat)
  /-- `*pp = e->next` -/
  | unlink (pp : Pointer) (e : Addr) (sz : Nat) (next : Option Addr)
  /-- `libc_free(e)` and `return sz` -/
  | release (e : Addr) (sz : Nat)
  deriving DecidableEq, Repr

/-- What a thread goes on with: the next place in the code, or the returned size (0 for
`record_seg`).
-/
abbrev Next := Memory × (Pc ⊕ Nat)

/-- The call up to its first access to shared memory. The new entry is not shared yet. -/
def enter (memory : Memory) : TableCall → Next
  | .recordSeg _ _ none _ => (memory, .inr 0)
  | .recordSeg addr size (some e) junk =>
      (memory.setCell e (some ⟨(addr, size), junk⟩), .inl (.fill e))
  | .checkAndRemoveSeg addr => (memory, .inl (.test (.slot (addrHashFn addr))))

/-- One access; there is no result when the memory is no entry. -/
def advance (call : TableCall) (memory : Memory) : Pc → Option Next
  | .fill e =>
      (memory.setNext e (memory.heads call.bucket)).map (fun after => (after, .inl (.publish e)))
  | .publish e => some (memory.setHead call.bucket (some e), .inr 0)
  | .test pp =>
      (memory.read pp).map (fun pointer =>
        (memory, if pointer = none then .inr 0 else .inl (.load pp)))
  | .load pp =>
      (memory.read pp).join.map (fun e => (memory, .inl (.compare pp e)))
  | .compare pp e =>
      (memory.cells e).map (fun cell =>
        (memory,
          if cell.value.1 = call.addr then .inl (.follow pp e cell.value.2)
          else .inl (.test (.next e))))
  | .follow pp e sz =>
      (memory.cells e).map (fun cell => (memory, .inl (.unlink pp e sz cell.next)))
  | .unlink pp e sz next =>
      (memory.write next pp).map (fun after => (after, .inl (.release e sz)))
  | .release e sz => (memory.cells e).map (fun _ => (memory.setCell e none, .inr sz))

/-- The shared memory, the calls under way, and the calls that have returned, with their results in
the order of their returns. `faulted` says that some access met memory that is no entry.
-/
structure System where
  memory : Memory
  threads : Nat → Option (TableCall × Pc)
  returned : List (TableCall × Nat)
  faulted : Bool

inductive Action where
  | call (thread : Nat) (call : TableCall)
  | step (thread : Nat)
  deriving DecidableEq, Repr

/-- A thread goes on. -/
def System.proceed (system : System) (thread : Nat) (call : TableCall) : Next → System
  | (memory, .inl pc) =>
      { system with
        memory
        threads := Function.update system.threads thread (some (call, pc)) }
  | (memory, .inr ret) =>
      { system with
        memory
        threads := Function.update system.threads thread none
        returned := system.returned ++ [(call, ret)] }

def System.act (system : System) : Action → System
  | .call thread call => system.proceed thread call (enter system.memory call)
  | .step thread =>
      match system.threads thread with
      | none => system
      | some (call, pc) =>
          match advance call system.memory pc with
          | none => { system with faulted := true }
          | some next => system.proceed thread call next

def Action.thread : Action → Nat
  | .call thread _ => thread
  | .step thread => thread

def System.initial (memory : Memory) : System where
  memory
  threads := fun _ => none
  returned := []
  faulted := false

/-- `libc_malloc` returns memory that is no entry. -/
def FreshEntry (memory : Memory) : TableCall → Prop
  | .recordSeg _ _ (some e) _ => memory.cells e = none
  | _ => True

/-- A thread that begins a call has finished the one before, and nobody else is at work in its
bucket.
-/
def Orderly (system : System) : Action → Prop
  | .call thread call =>
      system.threads thread = none
      ∧ (∀ other running pc, system.threads other = some (running, pc)
        → running.bucket ≠ call.bucket)
      ∧ FreshEntry system.memory call
  | .step _ => True

/-- The whole call at once, as the hooks are modelled. -/
def atOnce (globals : Globals) : TableCall → Globals × Nat
  | .recordSeg addr size reply _ => ((recordSeg globals addr size reply).1, 0)
  | .checkAndRemoveSeg addr =>
      ((checkAndRemoveSeg globals addr).2.1, (checkAndRemoveSeg globals addr).1)

/-- The calls that have returned, made one after the other. -/
def replay (globals : Globals) (returned : List (TableCall × Nat)) : Globals :=
  returned.foldl (fun globals done => (atOnce globals done.1).1) globals

-----------------------------------------------------------------------------------------
-- One bucket
-----------------------------------------------------------------------------------------

/-- An entry in memory: its place, and the block that it records. -/
abbrev Item := Addr × (Addr × Nat)

def bucketOf (block : Addr × Nat) : Fin addrHashSize := addrHashFn block.1

/-- What a whole call makes of the chain of its bucket, and what it returns. -/
def outcome (chain : List Item) : TableCall → List Item × Nat
  | .recordSeg _ _ none _ => (chain, 0)
  | .recordSeg addr size (some e) _ => ((e, addr, size) :: chain, 0)
  | .checkAndRemoveSeg addr =>
      match unlinkFirst (fun item => item.2.1 = addr) chain with
      | none => (chain, 0)
      | some (found, kept) => (kept, found.2.2)

/-- A walk stands behind entries of other blocks. -/
structure Passed (memory : Memory) (chain : List Item) (addr : Addr) (front back : List Item)
    : Prop where
  split : chain = front ++ back
  others : ∀ item ∈ front, item.2.1 ≠ addr
  chained : Chains.Chained bucketOf memory (addrHashFn addr) chain

/-- The memory of a bucket while a call is at work in it. The chain is that before the call. -/
inductive Busy (memory : Memory) (chain : List Item) : TableCall → Pc → Prop where
  | fill {addr size e junk next}
      (linked : Chains.Linked memory.cells (memory.heads (addrHashFn addr)) chain none)
      (owns : Chains.Owns bucketOf memory (addrHashFn addr) (e :: chain.map Prod.fst))
      (cell : memory.cells e = some ⟨(addr, size), next⟩)
      : Busy memory chain (.recordSeg addr size (some e) junk) (.fill e)
  | publish {addr size e junk}
      (linked : Chains.Linked memory.cells (memory.heads (addrHashFn addr)) chain none)
      (owns : Chains.Owns bucketOf memory (addrHashFn addr) (e :: chain.map Prod.fst))
      (cell : memory.cells e = some ⟨(addr, size), memory.heads (addrHashFn addr)⟩)
      : Busy memory chain (.recordSeg addr size (some e) junk) (.publish e)
  | test {addr front back} (passed : Passed memory chain addr front back)
      : Busy memory chain (.checkAndRemoveSeg addr)
          (.test (Chains.placeBehind (addrHashFn addr) front))
  | load {addr front item rest} (passed : Passed memory chain addr front (item :: rest))
      : Busy memory chain (.checkAndRemoveSeg addr)
          (.load (Chains.placeBehind (addrHashFn addr) front))
  | compare {addr front item rest} (passed : Passed memory chain addr front (item :: rest))
      : Busy memory chain (.checkAndRemoveSeg addr)
          (.compare (Chains.placeBehind (addrHashFn addr) front) item.1)
  | follow {addr front e size rest}
      (passed : Passed memory chain addr front ((e, addr, size) :: rest))
      : Busy memory chain (.checkAndRemoveSeg addr)
          (.follow (Chains.placeBehind (addrHashFn addr) front) e size)
  | unlink {addr front e size rest}
      (passed : Passed memory chain addr front ((e, addr, size) :: rest))
      : Busy memory chain (.checkAndRemoveSeg addr)
          (.unlink (Chains.placeBehind (addrHashFn addr) front) e size (Chains.pointerTo rest))
  | release {addr front e size rest}
      (split : chain = front ++ (e, addr, size) :: rest)
      (others : ∀ item ∈ front, item.2.1 ≠ addr)
      (linked : Chains.Linked memory.cells (memory.heads (addrHashFn addr)) (front ++ rest) none)
      (owns : Chains.Owns bucketOf memory (addrHashFn addr) (chain.map Prod.fst))
      : Busy memory chain (.checkAndRemoveSeg addr) (.release e size)

/-- How a thread goes on from a bucket. -/
def Lands (chain : List Item) (call : TableCall) : Next → Prop
  | (memory, .inl pc) => Busy memory chain call pc
  | (memory, .inr ret) =>
      Chains.Chained bucketOf memory call.bucket (outcome chain call).1
      ∧ ret = (outcome chain call).2

/-- The other buckets are left alone. -/
def LeavesOthers (before after : Memory) (bucket : Fin addrHashSize) : Prop :=
  ∀ other, other ≠ bucket → Chains.SameSlot bucketOf before after other

section
variable {memory after : Memory} {chain : List Item} {call : TableCall} {pc : Pc}

/-- No change leaves all other buckets. -/
theorem LeavesOthers.refl (bucket : Fin addrHashSize) : LeavesOthers memory memory bucket :=
  fun _ _ => ⟨rfl, fun _ _ _ => Iff.rfl⟩

/-- A walk stands where it stood when nothing in its bucket has changed. -/
theorem Passed.frame {addr : Addr} {front back : List Item}
    (passed : Passed memory chain addr front back)
    (same : Chains.SameSlot bucketOf memory after (addrHashFn addr))
    : Passed after chain addr front back :=
  { passed with chained := same.chained passed.chained }

/-- A call does not notice what happens in other buckets. -/
theorem Busy.frame (busy : Busy memory chain call pc)
    (same : Chains.SameSlot bucketOf memory after call.bucket)
    : Busy after chain call pc := by
  cases busy with
  | fill linked owns cell =>
      have entry := (same.cell owns List.mem_cons_self).trans cell
      exact .fill (same.linked owns (fun _ member => List.mem_cons_of_mem _ member) linked)
        (same.owns owns) entry
  | @publish addr _ _ _ linked owns cell =>
      have head : after.heads (addrHashFn addr) = memory.heads (addrHashFn addr) := same.head
      refine .publish (same.linked owns (fun _ member => List.mem_cons_of_mem _ member) linked)
        (same.owns owns) ?_
      rw [head]
      exact (same.cell owns List.mem_cons_self).trans cell
  | test passed => exact .test (passed.frame same)
  | load passed => exact .load (passed.frame same)
  | compare passed => exact .compare (passed.frame same)
  | follow passed => exact .follow (passed.frame same)
  | unlink passed => exact .unlink (passed.frame same)
  | release split others linked owns =>
      refine .release split others (same.linked owns ?_ linked) (same.owns owns)
      rw [split]
      intro loc member
      simp only [List.map_append, List.map_cons, List.mem_append, List.mem_cons] at member ⊢
      tauto

/-- A removal that finds nothing changes nothing. -/
theorem outcome_missing {addr : Addr} (others : ∀ item ∈ chain, item.2.1 ≠ addr)
    : outcome chain (.checkAndRemoveSeg addr) = (chain, 0) := by
  have refused : ∀ item ∈ chain, decide (item.2.1 = addr) = false :=
    fun item member => decide_eq_false (others item member)
  have missing := unlinkFirst_append refused []
  rw [List.append_nil] at missing
  simp only [outcome, missing]
  rfl

/-- A removal takes the first entry of its address. -/
theorem outcome_found {addr e : Addr} {size : Nat} {front rest : List Item}
    (others : ∀ item ∈ front, item.2.1 ≠ addr)
    : outcome (front ++ (e, addr, size) :: rest) (.checkAndRemoveSeg addr)
      = (front ++ rest, size) := by
  have refused : ∀ item ∈ front, decide (item.2.1 = addr) = false :=
    fun item member => decide_eq_false (others item member)
  have found := unlinkFirst_append refused ((e, addr, size) :: rest)
  simp only [outcome, found]
  simp [unlinkFirst]

/-- The walk reads a pointer to what is left. -/
theorem Passed.read {addr : Addr} {front back : List Item}
    (passed : Passed memory chain addr front back)
    : memory.read (Chains.placeBehind (addrHashFn addr) front) = some (Chains.pointerTo back) := by
  apply Chains.read_placeBehind
  rw [← passed.split]
  exact passed.chained.linked

/-- The walk finds the next entry in its cell. -/
theorem Passed.item {addr : Addr} {front rest : List Item} {item : Item}
    (passed : Passed memory chain addr front (item :: rest))
    : memory.cells item.1 = some ⟨item.2, Chains.pointerTo rest⟩ := by
  have linked := passed.chained.linked
  rw [passed.split] at linked
  obtain ⟨_, _, _, next, cell, behind⟩ := Chains.linked_append.mp linked
  rw [cell, behind.pointer]

/-- An access finds its entry, and leaves the bucket as the next one expects it. -/
def Succeeds (memory : Memory) (chain : List Item) (call : TableCall) (pc : Pc) : Prop :=
  ∃ next,
    advance call memory pc = some next
    ∧ Lands chain call next
    ∧ LeavesOthers memory next.1 call.bucket

/-- The new entry points to the chain. -/
theorem fill_succeeds {addr e : Addr} {size : Nat} {junk next : Option Addr}
    (linked : Chains.Linked memory.cells (memory.heads (addrHashFn addr)) chain none)
    (owns : Chains.Owns bucketOf memory (addrHashFn addr) (e :: chain.map Prod.fst))
    (cell : memory.cells e = some ⟨(addr, size), next⟩)
    : Succeeds memory chain (.recordSeg addr size (some e) junk) (.fill e) := by
  have relinked
      : Chains.Relinked memory
          (memory.setCell e (some ⟨(addr, size), memory.heads (addrHashFn addr)⟩))
          (addrHashFn addr) [e] :=
    Chains.relinked_setCell cell _
  have absent : e ∉ chain.map Prod.fst := (List.nodup_cons.mp owns.nodup).1
  have stepped : advance (.recordSeg addr size (some e) junk) memory (.fill e)
      = some (memory.setCell e (some ⟨(addr, size), memory.heads (addrHashFn addr)⟩),
          .inl (.publish e)) := by
    rw [advance, Chains.setNext, cell]
    rfl
  refine ⟨_, stepped, Busy.publish (linked.update absent) (relinked.owns owns) ?_, ?_⟩
  · exact Function.update_self e _ memory.cells
  · intro other different
    apply relinked.sameSlot owns _ different
    intro loc member
    rw [List.mem_singleton.mp member]
    exact List.mem_cons_self

/-- The slot points to the new entry. -/
theorem publish_succeeds {addr e : Addr} {size : Nat} {junk : Option Addr}
    (linked : Chains.Linked memory.cells (memory.heads (addrHashFn addr)) chain none)
    (owns : Chains.Owns bucketOf memory (addrHashFn addr) (e :: chain.map Prod.fst))
    (cell : memory.cells e = some ⟨(addr, size), memory.heads (addrHashFn addr)⟩)
    : Succeeds memory chain (.recordSeg addr size (some e) junk) (.publish e) := by
  have relinked
      : Chains.Relinked memory (memory.setHead (addrHashFn addr) (some e)) (addrHashFn addr) [] :=
    Chains.relinked_setHead _
  refine ⟨_, rfl, ⟨⟨?_, relinked.owns owns⟩, rfl⟩, ?_⟩
  · exact ⟨Function.update_self _ _ memory.heads, _, cell, linked⟩
  · intro other different
    exact relinked.sameSlot owns (fun _ member => absurd member List.not_mem_nil) different

/-- A walk at the end of the chain returns, and goes on in front of an entry. -/
theorem test_succeeds {addr : Addr} {front back : List Item}
    (passed : Passed memory chain addr front back)
    : Succeeds memory chain (.checkAndRemoveSeg addr)
        (.test (Chains.placeBehind (addrHashFn addr) front)) := by
  refine ⟨_, by rw [advance, passed.read]; rfl, ?_, .refl _⟩
  cases back with
  | nil =>
      have all : ∀ item ∈ chain, item.2.1 ≠ addr := by
        rw [passed.split, List.append_nil]
        exact passed.others
      constructor
      · rw [outcome_missing all]
        exact passed.chained
      · rw [outcome_missing all]
  | cons item rest => exact Busy.load passed

/-- The entry is the one that is looked for, or the walk passes it. -/
theorem compare_succeeds {addr : Addr} {front rest : List Item} {item : Item}
    (passed : Passed memory chain addr front (item :: rest))
    : Succeeds memory chain (.checkAndRemoveSeg addr)
        (.compare (Chains.placeBehind (addrHashFn addr) front) item.1) := by
  obtain ⟨e, block, size⟩ := item
  by_cases same : block = addr
  · subst same
    exact ⟨(memory, .inl (.follow _ e size)), by simp [advance, passed.item, TableCall.addr],
      Busy.follow passed, .refl _⟩
  · have further : Passed memory chain addr (front ++ [(e, block, size)]) rest := by
      refine ⟨by rw [passed.split, List.append_cons], ?_, passed.chained⟩
      intro item member
      rcases List.mem_append.mp member with before | last
      · exact passed.others item before
      · rw [List.mem_singleton.mp last]
        exact same
    have place := Chains.placeBehind_concat (addrHashFn addr) front (e, block, size)
    have moved := Busy.test further
    rw [place] at moved
    exact ⟨(memory, .inl (.test (.next e))),
      by simp [advance, passed.item, TableCall.addr, same], moved, .refl _⟩

/-- The place behind the passed entries points past the one that was found. -/
theorem unlink_succeeds {addr e : Addr} {size : Nat} {front rest : List Item}
    (passed : Passed memory chain addr front ((e, addr, size) :: rest))
    : Succeeds memory chain (.checkAndRemoveSeg addr)
        (.unlink (Chains.placeBehind (addrHashFn addr) front) e size
          (Chains.pointerTo rest)) := by
  have linked := passed.chained.linked
  have owns := passed.chained.owns
  rw [passed.split] at linked
  obtain ⟨_, _, _, next, cell, behind⟩ := Chains.linked_append.mp linked
  have nodup := owns.nodup
  rw [passed.split, List.map_append] at nodup
  obtain ⟨after, written, leading, relinked⟩ :=
    @Chains.write_placeBehind _ _ _ _ _ _ _ _ _ (Chains.pointerTo rest) nodup.of_append_left
      linked
  have within : ∀ loc ∈ front.map Prod.fst, loc ∈ chain.map Prod.fst := by
    rw [passed.split, List.map_append]
    exact fun loc member => List.mem_append_left _ member
  refine ⟨_, by rw [advance, written]; rfl, ?_, ?_⟩
  · refine Busy.release passed.split passed.others ?_ (relinked.owns owns)
    apply Chains.linked_append.mpr
    refine ⟨_, leading, ?_⟩
    rw [← behind.pointer]
    apply behind.congr
    intro loc member
    apply relinked.cells
    intro again
    apply (List.nodup_append.mp nodup).2.2 loc again loc _ rfl
    exact List.mem_cons_of_mem _ member
  · exact fun other different => relinked.sameSlot owns within different

/-- The entry that was taken out is freed. -/
theorem release_succeeds {addr e : Addr} {size : Nat} {front rest : List Item}
    (split : chain = front ++ (e, addr, size) :: rest)
    (others : ∀ item ∈ front, item.2.1 ≠ addr)
    (linked
      : Chains.Linked memory.cells (memory.heads (addrHashFn addr)) (front ++ rest) none)
    (owns : Chains.Owns bucketOf memory (addrHashFn addr) (chain.map Prod.fst))
    : Succeeds memory chain (.checkAndRemoveSeg addr) (.release e size) := by
  have locs : chain.map Prod.fst = front.map Prod.fst ++ e :: rest.map Prod.fst := by
    rw [split, List.map_append]
    rfl
  obtain ⟨cell, found, belongs⟩ := (owns.mem_iff e).mp (by simp [locs])
  rw [locs] at owns
  have absent : e ∉ (front ++ rest).map Prod.fst := by
    rw [List.map_append]
    exact (List.nodup_middle.mp owns.nodup).notMem
  refine ⟨(memory.setCell e none, .inr size), by rw [advance, found]; rfl, ⟨?_, ?_⟩, ?_⟩
  · rw [split, outcome_found others]
    refine ⟨linked.update absent, ?_⟩
    rw [List.map_append]
    exact owns.free
  · rw [split, outcome_found others]
  · intro other different
    apply Chains.sameSlot_setCell different
    · intro old same
      cases found.symm.trans same
      exact belongs
    · intro new member
      cases member

/-- Every access of a call succeeds. -/
theorem advance_succeeds (busy : Busy memory chain call pc)
    : Succeeds memory chain call pc := by
  cases busy with
  | fill linked owns cell => exact fill_succeeds linked owns cell
  | publish linked owns cell => exact publish_succeeds linked owns cell
  | test passed => exact test_succeeds passed
  | @load addr front item rest passed =>
      exact ⟨(memory, .inl (.compare _ item.1)), by rw [advance, passed.read]; rfl,
        Busy.compare passed, .refl _⟩
  | compare passed => exact compare_succeeds passed
  | @follow addr front e size rest passed =>
      exact ⟨(memory, .inl (.unlink _ e size _)), by rw [advance, passed.item]; rfl,
        Busy.unlink passed, .refl _⟩
  | unlink passed => exact unlink_succeeds passed
  | release split others linked owns => exact release_succeeds split others linked owns

/-- The first part of a call, in a bucket where nobody is at work. -/
theorem enter_lands (chained : Chains.Chained bucketOf memory call.bucket chain)
    (fresh : FreshEntry memory call)
    : Lands chain call (enter memory call)
      ∧ LeavesOthers memory (enter memory call).1 call.bucket := by
  cases call with
  | recordSeg addr size reply junk =>
      cases reply with
      | none => exact ⟨⟨chained, rfl⟩, .refl _⟩
      | some e =>
          have unused : memory.cells e = none := fresh
          have absent : e ∉ chain.map Prod.fst := by
            intro member
            obtain ⟨cell, found, -⟩ := (chained.owns.mem_iff e).mp member
            cases unused.symm.trans found
          constructor
          · exact Busy.fill (chained.linked.update absent) (chained.owns.alloc unused rfl)
              (Function.update_self e _ memory.cells)
          · intro other different
            apply Chains.sameSlot_setCell different
            · intro old found
              cases unused.symm.trans found
            · rintro new ⟨⟩
              rfl
  | checkAndRemoveSeg addr =>
      have start : Passed memory chain addr [] chain := ⟨rfl, nofun, chained⟩
      exact ⟨Busy.test start, .refl _⟩

end

-----------------------------------------------------------------------------------------
-- The whole table
-----------------------------------------------------------------------------------------

/-- The entries of a bucket, with their places. -/
def chainOf (globals : Globals) (bucket : Fin addrHashSize) : List Item :=
  (globals.addrHash.chain bucket).map (fun entry => (entry.loc, entry.addr, entry.size))

/-- A call at once does in its bucket what it does to the chain, and nothing elsewhere. -/
theorem atOnce_outcome (globals : Globals) (call : TableCall)
    : chainOf (atOnce globals call).1 call.bucket = (outcome (chainOf globals call.bucket) call).1
      ∧ (atOnce globals call).2 = (outcome (chainOf globals call.bucket) call).2
      ∧ ∀ other, other ≠ call.bucket
        → chainOf (atOnce globals call).1 other = chainOf globals other := by
  cases call with
  | recordSeg addr size reply junk =>
      cases reply with
      | none => exact ⟨rfl, rfl, fun _ _ => rfl⟩
      | some e =>
          refine ⟨?_, rfl, ?_⟩
          · have grown : (globals.addrHash.push ⟨e, addr, size⟩).chain (addrHashFn addr)
                = ⟨e, addr, size⟩ :: globals.addrHash.chain (addrHashFn addr) :=
              Function.update_self _ _ _
            exact congrArg (List.map _) grown
          · intro other different
            exact congrArg (List.map _) (Function.update_of_ne different _ _)
  | checkAndRemoveSeg addr =>
      have walk : unlinkFirst (fun item : Item => item.2.1 = addr)
          (chainOf globals (addrHashFn addr)) = _ :=
        unlinkFirst_map (fun entry : AddrEntry => (entry.loc, entry.addr, entry.size))
          (globals.addrHash.chain (addrHashFn addr))
      simp only [atOnce, checkAndRemoveSeg, outcome, TableCall.bucket, TableCall.addr]
      rw [walk]
      unfold ChainedTable.unlink
      split
      case h_1 missing =>
          split at missing
          case h_1 walked => simp [walked]
          case h_2 => cases missing
      case h_2 found smaller unlinked =>
          split at unlinked
          case h_1 => cases unlinked
          case h_2 entry kept walked =>
              obtain ⟨rfl, rfl⟩ := Prod.mk.inj (Option.some.inj unlinked)
              simp only [walked, Option.map_some]
              refine ⟨?_, trivial, fun other different => ?_⟩
              · exact congrArg (List.map _) (Function.update_self _ _ _)
              · exact congrArg (List.map _) (Function.update_of_ne different _ _)

/-- The system against the calls that have returned, made one after the other. -/
structure Follows (globals : Globals) (system : System) : Prop where
  sound : system.faulted = false
  apart
    : ∀ left right one other pc at_,
      system.threads left = some (one, pc)
      → system.threads right = some (other, at_)
      → one.bucket = other.bucket
      → left = right
  busy
    : ∀ thread call pc,
      system.threads thread = some (call, pc)
      → Busy system.memory (chainOf globals call.bucket) call pc
  idle
    : ∀ bucket,
      (∀ thread call pc, system.threads thread = some (call, pc) → call.bucket ≠ bucket)
      → Chains.Chained bucketOf system.memory bucket (chainOf globals bucket)

/-- What the calls have returned is what they return one after the other. -/
def Truthful (globals : Globals) (returned : List (TableCall × Nat)) : Prop :=
  Along (fun globals done => (atOnce globals done.1).1)
    (fun globals done => done.2 = (atOnce globals done.1).2) globals returned

section
variable {start : Globals} {system : System} {call : TableCall}

/-- The threads when one of them goes on. -/
theorem threads_goOn {thread other : Nat} {pc at_ : Pc} {running : TableCall}
    (now
      : Function.update system.threads thread (some (call, pc)) other = some (running, at_))
    : (other = thread ∧ running = call ∧ at_ = pc)
      ∨ (other ≠ thread ∧ system.threads other = some (running, at_)) := by
  by_cases same : other = thread
  · rw [same, Function.update_self] at now
    cases now
    exact .inl ⟨same, rfl, rfl⟩
  · rw [Function.update_of_ne same] at now
    exact .inr ⟨same, now⟩

/-- The threads when one of them returns. -/
theorem threads_return {thread other : Nat} {at_ : Pc} {running : TableCall}
    (now : Function.update system.threads thread none other = some (running, at_))
    : other ≠ thread ∧ system.threads other = some (running, at_) := by
  by_cases same : other = thread
  · rw [same, Function.update_self] at now
    cases now
  · rw [Function.update_of_ne same] at now
    exact ⟨same, now⟩

/-- No thread but one is at work in the bucket of a call, and that one only there. -/
structure Alone (system : System) (thread : Nat) (bucket : Fin addrHashSize) : Prop where
  others
    : ∀ other running pc,
      system.threads other = some (running, pc) → running.bucket = bucket → other = thread
  mine : ∀ running pc, system.threads thread = some (running, pc) → running.bucket = bucket

/-- Where one call has a bucket for itself, every other is in another. -/
theorem Alone.elsewhere {thread other : Nat} {bucket : Fin addrHashSize} {running : TableCall}
    {pc : Pc} (alone : Alone system thread bucket) (different : other ≠ thread)
    (at_ : system.threads other = some (running, pc))
    : running.bucket ≠ bucket :=
  fun same => different (alone.others other running pc at_ same)

/-- A bucket without threads, when the one that is at work elsewhere may have moved. -/
theorem Alone.nobody {thread : Nat} {bucket unused : Fin addrHashSize}
    (alone : Alone system thread bucket) (apart : bucket ≠ unused)
    {moved : Option (TableCall × Pc)}
    (nobody
      : ∀ other running pc,
        Function.update system.threads thread moved other = some (running, pc)
        → running.bucket ≠ unused)
    : ∀ other running pc, system.threads other = some (running, pc)
      → running.bucket ≠ unused := by
  intro other running pc before
  by_cases same : other = thread
  · rw [same] at before
    rw [alone.mine running pc before]
    exact apart
  · exact nobody other running pc ((Function.update_of_ne same _ _).trans before)

section
variable {thread : Nat} (follows : Follows (replay start system.returned) system)
  (alone : Alone system thread call.bucket) {memory : Memory}
  (others : LeavesOthers system.memory memory call.bucket)

include follows alone others in
/-- A call that goes on in a bucket of its own keeps the system in step. -/
theorem Follows.goOn {pc : Pc}
    (busy : Busy memory (chainOf (replay start system.returned) call.bucket) call pc)
    : Follows (replay start system.returned)
        (system.proceed thread call (memory, .inl pc)) := by
  refine ⟨follows.sound, ?_, ?_, ?_⟩
  · intro left right one other atOne atOther inLeft inRight bucket
    rcases threads_goOn inLeft with ⟨isLeft, sameOne, -⟩ | ⟨notLeft, beforeLeft⟩
    · rcases threads_goOn inRight with ⟨isRight, -, -⟩ | ⟨notRight, beforeRight⟩
      · rw [isLeft, isRight]
      · rw [sameOne] at bucket
        exact absurd bucket.symm (alone.elsewhere notRight beforeRight)
    · rcases threads_goOn inRight with ⟨isRight, sameOther, -⟩ | ⟨notRight, beforeRight⟩
      · rw [sameOther] at bucket
        exact absurd bucket (alone.elsewhere notLeft beforeLeft)
      · exact follows.apart left right one other _ _ beforeLeft beforeRight bucket
  · intro other running at_ now
    rcases threads_goOn now with ⟨-, rfl, rfl⟩ | ⟨different, before⟩
    · exact busy
    · exact (follows.busy other running at_ before).frame
        (others running.bucket (alone.elsewhere different before))
  · intro bucket nobody
    have notMine : call.bucket ≠ bucket := nobody thread call pc (Function.update_self _ _ _)
    apply (others bucket (Ne.symm notMine)).chained
    exact follows.idle bucket (alone.nobody notMine nobody)

/-- A call that returns is replayed last. -/
theorem replay_concat (ret : Nat)
    : replay start (system.returned ++ [(call, ret)])
      = (atOnce (replay start system.returned) call).1 := by
  rw [replay, List.foldl_append]
  rfl

include follows alone others in
/-- A call that returns keeps the system in step with the calls that have returned. -/
theorem Follows.finish {ret : Nat}
    (chained
      : Chains.Chained bucketOf memory call.bucket
          (outcome (chainOf (replay start system.returned) call.bucket) call).1)
    : Follows (replay start (system.returned ++ [(call, ret)]))
        (system.proceed thread call (memory, .inr ret)) := by
  obtain ⟨chain, -, kept⟩ := atOnce_outcome (replay start system.returned) call
  rw [replay_concat]
  refine ⟨follows.sound, ?_, ?_, ?_⟩
  · intro left right one other atOne atOther inLeft inRight bucket
    exact follows.apart left right one other _ _ (threads_return inLeft).2
      (threads_return inRight).2 bucket
  · intro other running at_ now
    obtain ⟨different, before⟩ := threads_return now
    have far := alone.elsewhere different before
    rw [kept running.bucket far]
    exact (follows.busy other running at_ before).frame (others running.bucket far)
  · intro bucket nobody
    by_cases same : bucket = call.bucket
    · rw [same, chain]
      exact chained
    · rw [kept bucket same]
      apply (others bucket same).chained
      exact follows.idle bucket (alone.nobody (Ne.symm same) nobody)

include follows alone in
/-- A thread that goes on in a bucket of its own keeps the system in step. -/
theorem Follows.proceed (truthful : Truthful start system.returned) {next : Next}
    (lands : Lands (chainOf (replay start system.returned) call.bucket) call next)
    (others : LeavesOthers system.memory next.1 call.bucket)
    : Follows (replay start (system.proceed thread call next).returned)
        (system.proceed thread call next)
      ∧ Truthful start (system.proceed thread call next).returned := by
  obtain ⟨memory, pc | ret⟩ := next
  · exact ⟨follows.goOn alone others lands, truthful⟩
  · obtain ⟨chained, result⟩ := lands
    obtain ⟨-, answer, -⟩ := atOnce_outcome (replay start system.returned) call
    refine ⟨follows.finish alone others chained,
      (along_append _).mpr ⟨truthful, ?_, trivial⟩⟩
    exact result.trans answer.symm

end

/-- Every action keeps the system in step with the calls made one after the other. -/
theorem Follows.act (follows : Follows (replay start system.returned) system)
    (truthful : Truthful start system.returned) {action : Action}
    (orderly : Orderly system action)
    : Follows (replay start (system.act action).returned) (system.act action)
      ∧ Truthful start (system.act action).returned := by
  cases action with
  | call thread call =>
      obtain ⟨free, nobody, fresh⟩ := orderly
      obtain ⟨lands, others⟩ := enter_lands
        (follows.idle call.bucket (fun other running pc at_ => nobody other running pc at_)) fresh
      have alone : Alone system thread call.bucket := by
        constructor
        · exact fun other running pc at_ same => absurd same (nobody other running pc at_)
        · intro running pc at_
          cases free.symm.trans at_
      exact follows.proceed alone truthful lands others
  | step thread =>
      cases at_ : system.threads thread with
      | none =>
          have still : system.act (.step thread) = system := by simp [System.act, at_]
          rw [still]
          exact ⟨follows, truthful⟩
      | some running =>
          obtain ⟨call, pc⟩ := running
          obtain ⟨next, advanced, lands, others⟩ :=
            advance_succeeds (follows.busy thread call pc at_)
          have goes : system.act (.step thread) = system.proceed thread call next := by
            simp [System.act, at_, advanced]
          have alone : Alone system thread call.bucket := by
            constructor
            · exact fun other running pc inOther same =>
                follows.apart other thread running call pc _ inOther at_ same
            · intro running pc mine
              cases at_.symm.trans mine
              rfl
          rw [goes]
          exact follows.proceed alone truthful lands others

end

/-- A call that goes on moves no other. -/
theorem proceed_other (system : System) {thread other : Nat} (call : TableCall) (next : Next)
    (different : other ≠ thread)
    : (system.proceed thread call next).threads other = system.threads other := by
  obtain ⟨memory, pc | ret⟩ := next
  · exact Function.update_of_ne different _ _
  · exact Function.update_of_ne different _ _

/-- A thread is where its own actions have brought it. -/
theorem foldl_act_other {actions : List Action} (system : System) {other : Nat}
    (different : ∀ action ∈ actions, other ≠ action.thread)
    : (actions.foldl System.act system).threads other = system.threads other := by
  induction actions generalizing system with
  | nil => rfl
  | cons action rest ih =>
      have apart := different action List.mem_cons_self
      rw [List.foldl_cons,
        ih _ (fun later member => different later (List.mem_cons_of_mem _ member))]
      cases action with
      | call thread call => exact proceed_other system call _ apart
      | step thread =>
          rw [System.act]
          split
          · rfl
          · split
            · rfl
            · exact proceed_other system _ _ apart

/-- As long as no two calls are at work in one bucket, the accesses of any number of threads may
come in any order: none of them meets memory that is no entry, every call returns what it returns
when the calls are made one after the other, in the order of their returns, and where nobody is at
work the bucket holds exactly the entries that are left then.
-/
theorem run_sharedTable (globals : Globals) (memory : Memory)
    (stored : ∀ bucket, Chains.Chained bucketOf memory bucket (chainOf globals bucket))
    (actions : List Action) (run : Along System.act Orderly (System.initial memory) actions)
    : let last := actions.foldl System.act (System.initial memory)
      last.faulted = false
      ∧ Truthful globals last.returned
      ∧ ∀ bucket,
        (∀ thread call pc, last.threads thread = some (call, pc) → call.bucket ≠ bucket)
        → Chains.Chained bucketOf last.memory bucket
            (chainOf (replay globals last.returned) bucket) := by
  have start : Follows (replay globals (System.initial memory).returned) (System.initial memory)
      ∧ Truthful globals (System.initial memory).returned :=
    ⟨⟨rfl, nofun, nofun, fun bucket _ => stored bucket⟩, trivial⟩
  have kept (system : System) (action : Action)
      (before : Follows (replay globals system.returned) system
        ∧ Truthful globals system.returned)
      (orderly : Orderly system action)
      : Follows (replay globals (system.act action).returned) (system.act action)
        ∧ Truthful globals (system.act action).returned :=
    before.1.act before.2 orderly
  obtain ⟨follows, truthful⟩ := Along.invariant System.act kept start run
  exact ⟨follows.sound, truthful, follows.idle⟩

/-- A library that routes, without entries so far. -/
def emptyTable : Globals where
  mode := .routing
  rules := .initial
  routingEverUsed := true
  addrHash := .empty
  locals := fun _ => {}

def emptyMemory : Memory := ⟨fun _ => none, fun _ => none⟩

/-- Two threads record a block each, access by access in turn; then one of them removes its block
while the other one records a third.
-/
def inTurn : List Action :=
  [.call 1 (.recordSeg 0x1000 8192 (some 0x100) none),
    .call 2 (.recordSeg 0x2000 8192 (some 0x200) none), .step 1, .step 2, .step 2, .step 1,
    .call 1 (.checkAndRemoveSeg 0x1000), .call 2 (.recordSeg 0x3000 4096 (some 0x300) none),
    .step 1, .step 2, .step 1, .step 1, .step 2, .step 1, .step 1, .step 1]

/-- Two threads call in the example. -/
theorem inTurn_thread {count other : Nat} {running : TableCall} {pc : Pc}
    (at_ : ((inTurn.take count).foldl System.act (System.initial emptyMemory)).threads other
      = some (running, pc))
    : other = 1 ∨ other = 2 := by
  by_contra neither
  obtain ⟨notOne, notTwo⟩ := not_or.mp neither
  have known : ∀ action ∈ inTurn, action.thread = 1 ∨ action.thread = 2 := by decide
  rw [foldl_act_other] at at_
  · cases at_
  · intro action member
    rcases known action (List.mem_of_mem_take member) with one | two
    · rwa [one]
    · rwa [two]

/-- No thread is at a bucket that neither of the two is at. -/
theorem inTurn_apart (count : Nat) (bucket : Fin addrHashSize)
    (first : ∀ running pc,
      ((inTurn.take count).foldl System.act (System.initial emptyMemory)).threads 1
        = some (running, pc) → running.bucket ≠ bucket)
    (second : ∀ running pc,
      ((inTurn.take count).foldl System.act (System.initial emptyMemory)).threads 2
        = some (running, pc) → running.bucket ≠ bucket)
    (other : Nat) (running : TableCall) (pc : Pc)
    (at_ : ((inTurn.take count).foldl System.act (System.initial emptyMemory)).threads other
      = some (running, pc))
    : running.bucket ≠ bucket := by
  rcases inTurn_thread at_ with rfl | rfl
  · exact first running pc at_
  · exact second running pc at_

theorem inTurn_sharedTable
    : let last := inTurn.foldl System.act (System.initial emptyMemory)
      last.returned
        = [(.recordSeg 0x2000 8192 (some 0x200) none, 0),
            (.recordSeg 0x1000 8192 (some 0x100) none, 0),
            (.recordSeg 0x3000 4096 (some 0x300) none, 0), (.checkAndRemoveSeg 0x1000, 8192)]
      ∧ last.faulted = false
      ∧ Chains.Chained bucketOf last.memory (addrHashFn 0x1000) []
      ∧ Chains.Chained bucketOf last.memory (addrHashFn 0x3000) [(0x300, 0x3000, 4096)] := by
  have stored : ∀ bucket,
      Chains.Chained bucketOf emptyMemory bucket (chainOf emptyTable bucket) :=
    fun bucket => ⟨rfl, List.nodup_nil, by simp [emptyMemory, chainOf, emptyTable,
      ChainedTable.empty]⟩
  have run : Along System.act Orderly (System.initial emptyMemory) inTurn := by
    refine ⟨⟨rfl, inTurn_apart 0 _ ?_ ?_, rfl⟩, ⟨rfl, inTurn_apart 1 _ ?_ ?_, rfl⟩,
      trivial,
      trivial, trivial, trivial, ⟨rfl, inTurn_apart 6 _ ?_ ?_, trivial⟩,
      ⟨rfl, inTurn_apart 7 _ ?_ ?_, rfl⟩, trivial, trivial, trivial, trivial, trivial, trivial,
      trivial, trivial, trivial⟩
    all_goals
      intro running pc at_
      cases at_
      try decide
  obtain ⟨sound, -, idle⟩ := run_sharedTable emptyTable emptyMemory stored inTurn run
  have done (bucket : Fin addrHashSize) := by
    refine idle bucket (inTurn_apart 16 bucket ?_ ?_)
    all_goals
      intro running pc at_
      cases at_
  exact ⟨rfl, sound, done (addrHashFn 0x1000), done (addrHashFn 0x3000)⟩

/-- Without that condition an entry can be lost: two threads that both read a bucket before they
write it both return, and the bucket leads to the entry of the second one only.
-/
theorem overlap_loses_entry (system : System) {one two : Nat} (apart : one ≠ two)
    (addr block : Addr) (size length : Nat) (e later : Addr) (junk rest : Option Addr)
    (sameBucket : addrHashFn block = addrHashFn addr) (distinct : e ≠ later) (chain : List Item)
    (linked : Chains.Linked system.memory.cells (system.memory.heads (addrHashFn addr)) chain none)
    (fresh : ∀ item ∈ chain, item.1 ≠ e ∧ item.1 ≠ later)
    : let last := [.call one (.recordSeg addr size (some e) junk),
          .call two (.recordSeg block length (some later) rest),
          .step one, .step two, .step one, .step two].foldl System.act system
      last.threads one = none
      ∧ last.threads two = none
      ∧ Chains.Linked last.memory.cells (last.memory.heads (addrHashFn addr))
          ((later, block, length) :: chain) none
      ∧ e ∉ ((later, block, length) :: chain).map Prod.fst := by
  have absent : e ∉ chain.map Prod.fst ∧ later ∉ chain.map Prod.fst := by
    constructor
    all_goals
      intro member
      obtain ⟨item, inChain, same⟩ := List.mem_map.mp member
      simp [fresh item inChain] at same
  simp [System.act, enter, System.proceed, advance, Chains.setNext, Chains.setCell, Chains.setHead,
    TableCall.bucket, TableCall.addr, sameBucket, apart, apart.symm, distinct, distinct.symm]
  refine ⟨⟨rfl, _, Function.update_self later _ _, ?_⟩, ?_⟩
  · exact (((linked.update absent.1).update absent.2).update absent.1).update absent.2
  · intro block length member
    exact absent.1 (List.mem_map_of_mem member)

end SharedTable

end Kumf.Interc
