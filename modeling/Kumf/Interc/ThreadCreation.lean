import Kumf.Interc.ThreadNodes
import Kumf.Library.Runs
import Mathlib.Data.List.Perm.Basic

/-! `pthread_create` and `thread_entry_wrapper`: the wrapper records between them, and what a
call that fails leaves behind. The node is taken before the outcome of the call is known, and
only a thread that starts frees its record.
-/

namespace Kumf.Interc

open Kumf.Library

/-- `struct thread_wrap_args` -/
structure ThreadWrapArgs where
  startRoutine : Addr
  arg : Option Addr
  assignedNode : Option Int
  deriving DecidableEq, Repr

/-- A thread from its creation on: it waits with the pointer to its record, then it runs the
routine of the program at its home node.
-/
inductive Thread where
  | waiting (record : Addr)
  | running (start : Addr) (arg : Option Addr) (homeNode : Option Int)
  deriving DecidableEq, Repr

/-- The counters, the wrapper records that are not freed, and the threads in the order of
their creation.
-/
structure ThreadState where
  spread : SpreadState := {}
  records : List (Addr × ThreadWrapArgs) := []
  threads : List Thread := []
  deriving DecidableEq, Repr

/-- A call of `pthread_create`, with the answers of `libc_malloc` and `libc_pthread_create`. -/
structure CreateCall where
  start : Addr
  arg : Option Addr
  wrapper : Option Addr
  error : Int
  deriving DecidableEq, Repr

def enomem : Int := 12

/-- `pthread_create`: what it returns and the state behind it. -/
def pthreadCreate (topology : Topology) (affinity : Affinity) (state : ThreadState)
    (call : CreateCall)
    : Int × ThreadState :=
  match affinity.mode with
  | .passive | .batch => (call.error, state)
  | .perThread | .routing =>
      let (node, spread) := getNextNode topology affinity state.spread
      match call.wrapper with
      | none => (enomem, { state with spread })
      | some w =>
          let records := (w, ⟨call.start, call.arg, node⟩) :: state.records
          let threads :=
            if call.error = 0 then state.threads ++ [.waiting w] else state.threads
          (call.error, ⟨spread, records, threads⟩)

/-- `thread_entry_wrapper`, on the thread with this number. -/
def threadEntryWrapper (state : ThreadState) (index : Nat) : ThreadState :=
  match state.threads[index]? with
  | some (.waiting w) =>
      match state.records.lookup w with
      | some record =>
          { state with
            records := state.records.eraseP (fun entry => entry.1 == w)
            threads :=
              state.threads.set index
                (.running record.startRoutine record.arg record.assignedNode) }
      | none => state
  | _ => state

inductive ThreadEvent where
  | create (call : CreateCall)
  | enter (index : Nat)
  deriving DecidableEq, Repr

def threadStep (topology : Topology) (affinity : Affinity) (state : ThreadState)
    : ThreadEvent → ThreadState
  | .create call => (pthreadCreate topology affinity state call).2
  | .enter index => threadEntryWrapper state index

def threadRun (topology : Topology) (affinity : Affinity) (events : List ThreadEvent)
    : ThreadState :=
  events.foldl (threadStep topology affinity) {}

/-- The call returns an error. -/
def CreateCall.Fails (call : CreateCall) : Prop := call.wrapper = none ∨ call.error ≠ 0

instance (call : CreateCall) : Decidable call.Fails :=
  inferInstanceAs (Decidable (_ ∨ _))

/-- `libc_malloc` does not answer with a block in use. -/
def ThreadState.Fresh (state : ThreadState) : ThreadEvent → Prop
  | .create call => ∀ w, call.wrapper = some w → w ∉ state.records.map Prod.fst
  | .enter _ => True

/-- The node of a thread: what its record says until it runs. -/
def ThreadState.nodeOf (state : ThreadState) : Thread → Option Int
  | .waiting w => (state.records.lookup w).bind ThreadWrapArgs.assignedNode
  | .running _ _ homeNode => homeNode

/-- A thread that waits has the node of its record. -/
theorem ThreadState.nodeOf_waiting (state : ThreadState) (w : Addr)
    : state.nodeOf (.waiting w) = (state.records.lookup w).bind ThreadWrapArgs.assignedNode :=
  rfl

def Thread.record? : Thread → Option Addr
  | .waiting w => some w
  | .running _ _ _ => none

/-- The node that the call with this number gets where no call fails. -/
def nodeOfCall (topology : Topology) (affinity : Affinity) (number : Nat) : Option Int :=
  (getNextNode topology affinity (spreadAfter topology affinity number)).1

/-- Failed calls leave nothing behind: the counters stay, the threads get the nodes of a run
without failures, and the records in use are those of threads that have not started.
-/
structure FailuresUndone (topology : Topology) (affinity : Affinity) (events : List ThreadEvent)
    : Prop where
  unmoved
    : ∀ front call back,
        events = front ++ .create call :: back
        → call.Fails
        → (threadRun topology affinity (front ++ [.create call])).spread
          = (threadRun topology affinity front).spread
  nodes
    : ∀ number thread,
        (threadRun topology affinity events).threads[number]? = some thread
        → (threadRun topology affinity events).nodeOf thread
          = nodeOfCall topology affinity number
  freed
    : ((threadRun topology affinity events).records.map Prod.fst).Perm
        ((threadRun topology affinity events).threads.filterMap Thread.record?)

-----------------------------------------------------------------------------------------
-- What one event does
-----------------------------------------------------------------------------------------

/-- The three outcomes of a call: no record, a record and no thread, both. -/
inductive CreateStep (topology : Topology) (affinity : Affinity) (state : ThreadState)
    (call : CreateCall)
    : ThreadState → Prop
  | noWrapper (denied : call.wrapper = none)
    : CreateStep topology affinity state call
        { state with spread := (getNextNode topology affinity state.spread).2 }
  | refused (w : Addr) (granted : call.wrapper = some w) (failed : call.error ≠ 0)
    : CreateStep topology affinity state call
        ⟨(getNextNode topology affinity state.spread).2,
          (w, ⟨call.start, call.arg, (getNextNode topology affinity state.spread).1⟩)
            :: state.records,
          state.threads⟩
  | created (w : Addr) (granted : call.wrapper = some w) (succeeded : call.error = 0)
    : CreateStep topology affinity state call
        ⟨(getNextNode topology affinity state.spread).2,
          (w, ⟨call.start, call.arg, (getNextNode topology affinity state.spread).1⟩)
            :: state.records,
          state.threads ++ [.waiting w]⟩

/-- A thread starts with its record, or nothing happens. -/
inductive EnterStep (state : ThreadState) (index : Nat) : ThreadState → Prop
  | idle : EnterStep state index state
  | started (w : Addr) (record : ThreadWrapArgs)
    (waits : state.threads[index]? = some (.waiting w))
    (found : state.records.lookup w = some record)
    : EnterStep state index
        { state with
          records := state.records.eraseP (fun entry => entry.1 == w)
          threads :=
            state.threads.set index
              (.running record.startRoutine record.arg record.assignedNode) }

/-- What the entry of a thread does. -/
theorem threadEntryWrapper_step (state : ThreadState) (index : Nat)
    : EnterStep state index (threadEntryWrapper state index) := by
  unfold threadEntryWrapper
  split
  case h_1 w waits =>
      split
      case h_1 record found => exact .started w record waits found
      case h_2 => exact .idle
  case h_2 => exact .idle

section
variable (topology : Topology) {affinity : Affinity}

/-- What the creation of a thread does. -/
theorem pthreadCreate_step (placing : affinity.mode = .perThread ∨ affinity.mode = .routing)
    (state : ThreadState) (call : CreateCall)
    : CreateStep topology affinity state call (pthreadCreate topology affinity state call).2 := by
  have placed : (pthreadCreate topology affinity state call).2
      = match call.wrapper with
        | none => { state with spread := (getNextNode topology affinity state.spread).2 }
        | some w =>
            ⟨(getNextNode topology affinity state.spread).2,
              (w, ⟨call.start, call.arg, (getNextNode topology affinity state.spread).1⟩)
                :: state.records,
              if call.error = 0 then state.threads ++ [.waiting w] else state.threads⟩ := by
    unfold pthreadCreate
    rcases placing with mode | mode <;> rw [mode] <;> dsimp only <;> split <;> rfl
  rw [placed]
  split
  case h_1 denied => exact .noWrapper denied
  case h_2 w granted =>
      by_cases succeeded : call.error = 0
      · rw [if_pos succeeded]
        exact .created w granted succeeded
      · rw [if_neg succeeded]
        exact .refused w granted succeeded

/-- Every call moves a counter. -/
theorem getNextNode_moves (affinity : Affinity) (state : SpreadState)
    : (getNextNode topology affinity state).2 ≠ state := by
  have moves (n : Int) : toInt32 (n + 1) ≠ n := by
    unfold toInt32
    omega
  unfold getNextNode
  split
  · exact fun same => moves _ (congrArg SpreadState.globalThreadSeq same)
  · exact fun same => moves _ (congrArg SpreadState.nextNodeRr same)

/-- Every creation moves the spreading on, also one that fails. -/
theorem pthreadCreate_spread (placing : affinity.mode = .perThread ∨ affinity.mode = .routing)
    (state : ThreadState) (call : CreateCall)
    : (pthreadCreate topology affinity state call).2.spread
      = (getNextNode topology affinity state.spread).2 := by
  have step := pthreadCreate_step topology placing state call
  generalize (pthreadCreate topology affinity state call).2 = next at step
  cases step <;> rfl

end

-----------------------------------------------------------------------------------------
-- The records in use
-----------------------------------------------------------------------------------------

/-- The record that a refused call leaves behind. -/
def ThreadEvent.leaked : ThreadEvent → Option Addr
  | .create call => if call.error = 0 then none else call.wrapper
  | .enter _ => none

/-- A started thread no longer waits. -/
theorem waiting_set {threads : List Thread} {index : Nat} {w : Addr}
    (waits : threads[index]? = some (.waiting w)) (start : Addr) (arg : Option Addr)
    (homeNode : Option Int)
    : (threads.filterMap Thread.record?).Perm
        (w :: (threads.set index (.running start arg homeNode)).filterMap Thread.record?) := by
  obtain ⟨inside, thread⟩ := List.getElem?_eq_some_iff.mp waits
  have split : threads = threads.take index ++ .waiting w :: threads.drop (index + 1) := by
    rw [← thread, List.getElem_cons_drop, List.take_append_drop]
  have replaced : threads.set index (.running start arg homeNode)
      = threads.take index ++ .running start arg homeNode :: threads.drop (index + 1) :=
    List.set_eq_take_append_cons_drop.trans (if_pos inside)
  rw [replaced]
  nth_rewrite 1 [split]
  rw [List.filterMap_append, List.filterMap_append]
  exact List.perm_middle

/-- The record that is erased is the only one missing. -/
theorem map_eraseP_perm {records : List (Addr × ThreadWrapArgs)} {w : Addr}
    (used : w ∈ records.map Prod.fst)
    : (records.map Prod.fst).Perm
        (w :: (records.eraseP (fun entry => entry.1 == w)).map Prod.fst) := by
  obtain ⟨found, member, its⟩ := List.mem_map.mp used
  have matching : (found.1 == w) = true := beq_iff_eq.mpr its
  obtain ⟨entry, front, back, _, same, split, erased⟩ :=
    List.exists_of_eraseP (p := fun entry => entry.1 == w) member matching
  rw [erased, split, List.map_append, List.map_append, ← eq_of_beq same]
  exact List.perm_middle

section
variable {topology : Topology} {affinity : Affinity}

/-- The records in use are those of waiting threads and those that refused calls left. -/
theorem threadRun_records (placing : affinity.mode = .perThread ∨ affinity.mode = .routing)
    (events : List ThreadEvent)
    : ((threadRun topology affinity events).records.map Prod.fst).Perm
        ((threadRun topology affinity events).threads.filterMap Thread.record?
          ++ events.filterMap ThreadEvent.leaked) := by
  induction events using List.reverseRecOn with
  | nil => exact .nil
  | append_singleton front event ih =>
      unfold threadRun at ih ⊢
      rw [List.foldl_append, List.foldl_cons, List.foldl_nil, List.filterMap_append]
      generalize front.foldl (threadStep topology affinity) {} = state at ih
      cases event with
      | create call =>
          have step := pthreadCreate_step topology placing state call
          unfold threadStep
          dsimp only
          generalize (pthreadCreate topology affinity state call).2 = next at step
          cases step with
          | noWrapper denied => simpa [ThreadEvent.leaked, denied] using ih
          | refused w granted failed =>
              simp only [List.filterMap_cons, ThreadEvent.leaked, if_neg failed, granted,
                List.map_cons, List.filterMap_nil]
              rw [← List.append_assoc]
              exact (ih.cons w).trans (List.perm_append_singleton w _).symm
          | created w granted succeeded =>
              simp only [List.filterMap_cons, ThreadEvent.leaked, if_pos succeeded,
                List.map_cons, List.filterMap_nil, List.filterMap_append, Thread.record?,
                List.append_nil, List.append_assoc, List.singleton_append]
              exact (ih.cons w).trans List.perm_middle.symm
      | enter index =>
          have step := threadEntryWrapper_step state index
          unfold threadStep
          dsimp only
          generalize threadEntryWrapper state index = next at step
          simp only [List.filterMap_cons, ThreadEvent.leaked, List.filterMap_nil,
            List.append_nil]
          cases step with
          | idle => exact ih
          | started w record waits found =>
              have waiting := waiting_set waits record.startRoutine record.arg record.assignedNode
              have used : w ∈ state.records.map Prod.fst := by
                apply ih.mem_iff.mpr
                exact List.mem_append_left _ (waiting.mem_iff.mpr List.mem_cons_self)
              refine ((map_eraseP_perm used).symm.trans (ih.trans ?_)).cons_inv
              exact waiting.append_right _

end

-----------------------------------------------------------------------------------------
-- Runs without failures
-----------------------------------------------------------------------------------------

/-- No two threads wait for one record. -/
theorem waiting_unique {threads : List Thread}
    (distinct : (threads.filterMap Thread.record?).Nodup) {w : Addr} {i j : Nat}
    (first : threads[i]? = some (.waiting w)) (second : threads[j]? = some (.waiting w))
    : i = j := by
  have apart := List.pairwise_iff_getElem.mp (List.pairwise_filterMap.mp distinct)
  obtain ⟨iInside, iThread⟩ := List.getElem?_eq_some_iff.mp first
  obtain ⟨jInside, jThread⟩ := List.getElem?_eq_some_iff.mp second
  rcases Nat.lt_trichotomy i j with less | same | more
  · exact absurd rfl (apart i j iInside jInside less w (iThread ▸ rfl) w (jThread ▸ rfl))
  · exact same
  · exact absurd rfl (apart j i jInside iInside more w (jThread ▸ rfl) w (iThread ▸ rfl))

/-- What holds along a run without failures, the records being distinct. -/
structure Placed (topology : Topology) (affinity : Affinity) (state : ThreadState) : Prop where
  counted : state.spread = spreadAfter topology affinity state.threads.length
  distinct : (state.records.map Prod.fst).Nodup
  nodes
    : ∀ number thread,
        state.threads[number]? = some thread
        → state.nodeOf thread = nodeOfCall topology affinity number
  freed : (state.records.map Prod.fst).Perm (state.threads.filterMap Thread.record?)

section
variable {topology : Topology} {affinity : Affinity} {state : ThreadState}

/-- Without threads all are placed. -/
theorem Placed.initial : Placed topology affinity {} :=
  ⟨rfl, .nil, fun _ _ found => absurd found (by simp), .nil⟩

/-- A record on top hides no other. -/
theorem lookup_cons_of_ne {records : List (Addr × ThreadWrapArgs)} {w other : Addr}
    (record : ThreadWrapArgs) (apart : other ≠ w)
    : ((w, record) :: records).lookup other = records.lookup other := by
  rw [List.lookup_cons, beq_eq_false_iff_ne.mpr apart]

/-- An erased record takes no other with it. -/
theorem lookup_eraseP_of_ne {records : List (Addr × ThreadWrapArgs)} {w other : Addr}
    (apart : other ≠ w)
    : (records.eraseP (fun entry => entry.1 == w)).lookup other = records.lookup other := by
  induction records with
  | nil => rfl
  | cons entry rest ih =>
      obtain ⟨addr, record⟩ := entry
      by_cases same : addr = w
      · have matching : (addr == w) = true := beq_iff_eq.mpr same
        rw [List.eraseP_cons_of_pos (by exact matching), same]
        exact (lookup_cons_of_ne record apart).symm
      · have matchless : ¬ (addr == w) = true := fun equal => same (eq_of_beq equal)
        rw [List.eraseP_cons_of_neg (by exact matchless), List.lookup_cons, List.lookup_cons, ih]

/-- A created thread waits with the node of its call. -/
theorem Placed.create (placed : Placed topology affinity state) {call : CreateCall} {w : Addr}
    (unused : w ∉ state.records.map Prod.fst)
    : Placed topology affinity
        ⟨(getNextNode topology affinity state.spread).2,
          (w, ⟨call.start, call.arg, (getNextNode topology affinity state.spread).1⟩)
            :: state.records,
          state.threads ++ [.waiting w]⟩ := by
  constructor
  case counted =>
      dsimp only
      rw [List.length_append, List.length_singleton, placed.counted]
      rfl
  case distinct => exact List.nodup_cons.mpr ⟨unused, placed.distinct⟩
  case nodes =>
      intro number thread found
      dsimp only at found
      by_cases old : number < state.threads.length
      · rw [List.getElem?_append_left old] at found
        rw [← placed.nodes number thread found]
        cases thread with
        | waiting other =>
            have waits : other ∈ state.threads.filterMap Thread.record? :=
              List.mem_filterMap.mpr ⟨_, List.mem_of_getElem? found, rfl⟩
            have apart : other ≠ w := fun same =>
              unused (same ▸ placed.freed.mem_iff.mpr waits)
            exact congrArg (fun record => record.bind ThreadWrapArgs.assignedNode)
              (lookup_cons_of_ne _ apart)
        | running start arg homeNode => rfl
      · have last : number = state.threads.length := by
          obtain ⟨inside, _⟩ := List.getElem?_eq_some_iff.mp found
          rw [List.length_append, List.length_singleton] at inside
          omega
        subst last
        rw [List.getElem?_append_right (le_refl _), Nat.sub_self, List.getElem?_cons_zero] at found
        cases found
        rw [ThreadState.nodeOf_waiting, nodeOfCall, ← placed.counted, List.lookup_cons_self]
        rfl
  case freed =>
      dsimp only
      rw [List.map_cons, List.filterMap_append]
      exact (placed.freed.cons w).trans (List.perm_append_singleton w _).symm

/-- A thread that starts keeps its node. -/
theorem Placed.enter (placed : Placed topology affinity state) {index : Nat} {w : Addr}
    {record : ThreadWrapArgs} (waits : state.threads[index]? = some (.waiting w))
    (found : state.records.lookup w = some record)
    : Placed topology affinity
        { state with
          records := state.records.eraseP (fun entry => entry.1 == w)
          threads :=
            state.threads.set index
              (.running record.startRoutine record.arg record.assignedNode) } := by
  have used : w ∈ state.records.map Prod.fst :=
    placed.freed.mem_iff.mpr (List.mem_filterMap.mpr ⟨_, List.mem_of_getElem? waits, rfl⟩)
  have waiting := placed.freed.nodup_iff.mp placed.distinct
  constructor
  case counted =>
      dsimp only
      rw [List.length_set]
      exact placed.counted
  case distinct => exact ((map_eraseP_perm used).nodup_iff.mp placed.distinct).of_cons
  case nodes =>
      intro number thread its
      dsimp only at its
      by_cases same : number = index
      · subst same
        obtain ⟨inside, _⟩ := List.getElem?_eq_some_iff.mp waits
        rw [List.getElem?_set_self inside] at its
        cases its
        have node := placed.nodes number _ waits
        rw [ThreadState.nodeOf_waiting, found] at node
        exact node
      · rw [List.getElem?_set_ne (Ne.symm same)] at its
        rw [← placed.nodes number thread its]
        cases thread with
        | waiting other =>
            have apart : other ≠ w := fun equal =>
              same (waiting_unique waiting (equal ▸ its) waits)
            exact congrArg (fun record => record.bind ThreadWrapArgs.assignedNode)
              (lookup_eraseP_of_ne apart)
        | running start arg homeNode => rfl
  case freed =>
      have rest := waiting_set waits record.startRoutine record.arg record.assignedNode
      exact ((map_eraseP_perm used).symm.trans (placed.freed.trans rest)).cons_inv

/-- Every step keeps the threads at their places. -/
theorem threadStep_placed (placing : affinity.mode = .perThread ∨ affinity.mode = .routing)
    (state : ThreadState) (event : ThreadEvent) (placed : Placed topology affinity state)
    (admitted : state.Fresh event ∧ ∀ call, event = .create call → ¬ call.Fails)
    : Placed topology affinity (threadStep topology affinity state event) := by
  obtain ⟨fresh, succeeds⟩ := admitted
  cases event with
  | create call =>
      have step := pthreadCreate_step topology placing state call
      unfold threadStep
      dsimp only
      generalize (pthreadCreate topology affinity state call).2 = next at step
      cases step with
      | noWrapper denied => exact absurd (.inl denied) (succeeds call rfl)
      | refused w granted failed => exact absurd (.inr failed) (succeeds call rfl)
      | created w granted succeeded => exact placed.create (fresh w granted)
  | enter index =>
      have step := threadEntryWrapper_step state index
      unfold threadStep
      dsimp only
      generalize threadEntryWrapper state index = next at step
      cases step with
      | idle => exact placed
      | started w record waits found => exact placed.enter waits found

end

/-- A failed call keeps the counter that it has moved, and after a refusal the record. So the
calls leave the placement of a run without failures exactly where none of them fails.
-/
theorem failuresUndone_iff (topology : Topology) (affinity : Affinity)
    (placing : affinity.mode = .perThread ∨ affinity.mode = .routing)
    (events : List ThreadEvent)
    (fresh : Along (threadStep topology affinity) ThreadState.Fresh {} events)
    : FailuresUndone topology affinity events
      ↔ ∀ call, .create call ∈ events → ¬ call.Fails := by
  constructor
  · intro undone call member fails
    obtain ⟨front, back, split⟩ := List.append_of_mem member
    have unmoved := undone.unmoved front call back split fails
    unfold threadRun at unmoved
    rw [List.foldl_append, List.foldl_cons, List.foldl_nil] at unmoved
    unfold threadStep at unmoved
    dsimp only at unmoved
    rw [pthreadCreate_spread topology placing] at unmoved
    exact getNextNode_moves topology affinity _ unmoved
  · intro succeed
    have admitted : Along (threadStep topology affinity)
        (fun state event =>
          state.Fresh event ∧ ∀ call, event = .create call → ¬ call.Fails) {} events :=
      (along_and _).mpr
        ⟨fresh, (along_inputs _).mpr (fun _ member call its => succeed call (its ▸ member))⟩
    have placed := admitted.invariant _ (threadStep_placed placing) .initial
    refine ⟨fun front call back split fails => ?_, placed.nodes, placed.freed⟩
    have member : ThreadEvent.create call ∈ events :=
      split ▸ List.mem_append_right front List.mem_cons_self
    exact absurd fails (succeed call member)

/-- The start of a program with compact spread over two nodes of one CPU. -/
def pairTopology : Topology where
  available := 0
  maxNode := 1
  nodeSize _ := 1
  distance a b := if a = b then 10 else 20
  nodeCpus _ := 1

def pairAffinity : Affinity :=
  initAffinity { affinity := some "per-thread".toList } pairTopology false {}

/-- Two threads, and a thread behind a call with `EAGAIN`. -/
def twoCreations : List ThreadEvent :=
  [.create ⟨16, none, some 64, 0⟩, .create ⟨16, none, some 96, 0⟩, .enter 1]

def refusedCreation : List ThreadEvent :=
  [.create ⟨16, none, some 64, 11⟩, .create ⟨16, none, some 96, 0⟩, .enter 0]

theorem failuresUndone_iff_twoCreations
    : FailuresUndone pairTopology pairAffinity twoCreations
      ↔ ∀ call, .create call ∈ twoCreations → ¬ call.Fails :=
  failuresUndone_iff pairTopology pairAffinity (.inl (by decide)) twoCreations
    ⟨fun _ _ => List.not_mem_nil, by rintro _ ⟨⟩; decide, trivial, trivial⟩

/-- The first thread that is created gets the node of the second call, and the record of the
refused call stays.
-/
theorem refusedCreation_shifts
    : threadRun pairTopology pairAffinity refusedCreation
        = ⟨{ globalThreadSeq := 2 }, [(64, ⟨16, none, some 0⟩)],
          [.running 16 none (some 1)]⟩
      ∧ nodeOfCall pairTopology pairAffinity 0 = some 0
      ∧ ¬ FailuresUndone pairTopology pairAffinity refusedCreation := by
  have final : threadRun pairTopology pairAffinity refusedCreation
      = ⟨{ globalThreadSeq := 2 }, [(64, ⟨16, none, some 0⟩)],
        [.running 16 none (some 1)]⟩ := by
    decide
  have first : nodeOfCall pairTopology pairAffinity 0 = some 0 := by decide
  refine ⟨final, first, fun undone => ?_⟩
  have node := undone.nodes 0 (.running 16 none (some 1)) (final ▸ rfl)
  rw [first] at node
  cases node

end Kumf.Interc
