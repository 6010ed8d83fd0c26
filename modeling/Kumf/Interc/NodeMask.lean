import Kumf.Interc.ThreadNodes
import Kumf.Library.WordBits

/-! `bind_thread_to_node`: the node mask of its `set_mempolicy` call is one word, while the affinity
nodes go up to `MAX_NUMA_NODES`.
-/

namespace Kumf.Interc

open Kumf.Library

/-- A call of `set_mempolicy`; `mode` stands for the `MPOL_*` constant. -/
structure SetMempolicy where
  mode : MemPolicy
  nodemask : BitVec 64
  maxnode : Nat
  deriving DecidableEq, Repr

/-- What the system answers: the CPUs of a node, unless the mask for them or
`numa_node_to_cpus` fails, and what `sched_setaffinity` returns for a CPU set.
-/
structure BindAnswers where
  nodeToCpus : Int → Option (List Nat)
  schedSetaffinity : List Nat → Int

/-- The switch of `bind_thread_to_node` over the policies. -/
def mempolicyCall (affinity : Affinity) (node : Int) : SetMempolicy :=
  let nodemask := bitAt node
  match affinity.memPolicy with
  | .preferred => { mode := .preferred, nodemask, maxnode := 64 }
  | .bind => { mode := .bind, nodemask, maxnode := 64 }
  | .interleave =>
      let allMask := affinity.nodes.foldl (fun allMask n => allMask ||| bitAt n) 0#64
      { mode := .interleave, nodemask := allMask, maxnode := 64 }

/-- `bind_thread_to_node`: its result and the call that it gets to. A failed `set_mempolicy` is
only logged.
-/
def bindThreadToNode (answers : BindAnswers) (affinity : Affinity) (node : Int)
    : Int × Option SetMempolicy :=
  match answers.nodeToCpus node with
  | none => (-1, none)
  | some cpus =>
      let ret := answers.schedSetaffinity (cpus.filter (· < cpuSetSize))
      if ret < 0 then (ret, none) else (0, some (mempolicyCall affinity node))

/-- Bit `i` of the mask stands for node `i`. -/
def SetMempolicy.Names (call : SetMempolicy) (n : Int) : Prop :=
  ∃ i < call.maxnode, (i : Int) = n ∧ call.nodemask.getLsbD i = true

instance (call : SetMempolicy) (n : Int) : Decidable (call.Names n) :=
  inferInstanceAs (Decidable (∃ i < call.maxnode, _))

/-- The nodes that a policy is meant for: the thread's own one, or all for interleave. -/
def intendedNodes (affinity : Affinity) (node : Int) : List Int :=
  match affinity.memPolicy with
  | .preferred => [node]
  | .bind => [node]
  | .interleave => affinity.nodes

section
variable {affinity : Affinity} {node : Int}

/-- A mask names the remainders of the intended nodes. -/
theorem mempolicyCall_names (n : Int)
    : (mempolicyCall affinity node).Names n
      ↔ ∃ intended ∈ intendedNodes affinity node, n = intended % 64 := by
  have single
      : (∃ i : Nat, i < 64 ∧ (i : Int) = n ∧ (bitAt node).getLsbD i = true)
        ↔ n = node % 64 := by
    simp only [bitAt_getLsbD]
    constructor
    · rintro ⟨i, _, rfl, place⟩
      exact place
    · intro place
      exact ⟨n.toNat, by omega, by omega, by omega⟩
  unfold SetMempolicy.Names mempolicyCall intendedNodes
  cases affinity.memPolicy
  case preferred => simpa only [List.mem_singleton, exists_eq_left] using single
  case bind => simpa only [List.mem_singleton, exists_eq_left] using single
  case interleave =>
      simp only [foldl_or_getLsbD, BitVec.getLsbD_zero, Bool.false_eq_true, false_or, bitAt_getLsbD]
      constructor
      · rintro ⟨i, _, rfl, other, listed, place⟩
        exact ⟨other, listed, place⟩
      · rintro ⟨other, listed, place⟩
        exact ⟨n.toNat, by omega, by omega, other, listed, by omega⟩

theorem bindThreadToNode_call {answers : BindAnswers} {call : SetMempolicy}
    (called : (bindThreadToNode answers affinity node).2 = some call)
    : call = mempolicyCall affinity node := by
  unfold bindThreadToNode at called
  split at called
  case h_1 => cases called
  case h_2 cpus _ =>
      dsimp only at called
      split at called
      · cases called
      · exact (Option.some.inj called).symm

theorem intendedNodes_subset (listed : node ∈ affinity.nodes)
    : ∀ n ∈ intendedNodes affinity node, n ∈ affinity.nodes := by
  unfold intendedNodes
  split
  case h_3 => exact fun n member => member
  all_goals
    intro n member
    rwa [List.mem_singleton.mp member]

/-- The mask names the intended nodes and no others just if these fit the word. -/
theorem bindThreadToNode_names_iff (answers : BindAnswers) {call : SetMempolicy}
    (ids : ∀ n ∈ affinity.nodes, 0 ≤ n ∧ n < maxNumaNodes)
    (listed : node ∈ affinity.nodes)
    (called : (bindThreadToNode answers affinity node).2 = some call)
    : (∀ n, call.Names n ↔ n ∈ intendedNodes affinity node)
      ↔ ∀ n ∈ intendedNodes affinity node, n < 64 := by
  rw [bindThreadToNode_call called]
  simp only [mempolicyCall_names]
  constructor
  · intro exactly n intended
    obtain ⟨other, _, place⟩ := (exactly n).mpr intended
    omega
  · intro fits n
    have same : ∀ other ∈ intendedNodes affinity node, other % 64 = other := by
      intro other intended
      have small := fits other intended
      have range := ids other (intendedNodes_subset listed other intended)
      omega
    constructor
    · rintro ⟨other, intended, rfl⟩
      rwa [same other intended]
    · intro intended
      exact ⟨n, intended, (same n intended).symm⟩

end

-----------------------------------------------------------------------------------------
-- Machines with few and with many nodes
-----------------------------------------------------------------------------------------

/-- A machine with memory on each of its nodes, at one distance. -/
def evenTopology (count : Nat) : Topology where
  available := 0
  maxNode := count - 1
  nodeSize := fun n => if 0 ≤ n ∧ n < count then 1 else -1
  distance := fun a b => if a = b then 10 else 20
  nodeCpus := fun _ => 1

/-- One CPU on every node, and every set is accepted. -/
def oneCpuEach : BindAnswers where
  nodeToCpus := fun n => some [n.toNat]
  schedSetaffinity := fun _ => 0

def interleavedPair : Affinity :=
  initAffinity { affinity := some "per-thread".toList, policy := some "interleave".toList }
    (evenTopology 2) false {}

theorem bindThreadToNode_names_pair
    : (∀ n, (SetMempolicy.mk .interleave 3 64).Names n ↔ n ∈ intendedNodes interleavedPair 1)
      ↔ ∀ n ∈ intendedNodes interleavedPair 1, n < 64 :=
  bindThreadToNode_names_iff oneCpuEach (by decide) (by decide) (by decide)

/-- The environment `KUMF_AFFINITY=per-thread KUMF_NODES=65`. -/
def highNode : Affinity :=
  initAffinity { affinity := some "per-thread".toList, nodes := some "65".toList }
    (evenTopology 128) false {}

/-- The memory of the threads of node 65 goes to node 1. -/
theorem highNode_names
    : highNode.nodes = [65]
      ∧ (bindThreadToNode oneCpuEach highNode 65).2 = some ⟨.preferred, 2, 64⟩
      ∧ intendedNodes highNode 65 = [65]
      ∧ (SetMempolicy.mk .preferred 2 64).Names 1
      ∧ ¬ (SetMempolicy.mk .preferred 2 64).Names 65 := by
  decide

end Kumf.Interc
