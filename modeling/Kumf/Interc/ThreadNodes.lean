import Kumf.Interc.Affinity
import Kumf.Library.Shares
import Mathlib.Algebra.Group.Nat.Defs
import Mathlib.Algebra.Order.BigOperators.Group.List
import Mathlib.Data.List.Count

/-! `get_next_node`: the spread of the threads over the affinity nodes. The first threads fill
the CPUs node by node; the threads after them take the nodes in turn, with and without CPUs.
-/

namespace Kumf.Interc

open Kumf.Library

/-- `CPU_SETSIZE` -/
def cpuSetSize : Nat := 1024

/-- The counters of `get_next_node`. -/
structure SpreadState where
  globalThreadSeq : Int := 0
  nextNodeRr : Int := 0
  deriving DecidableEq, Repr

/-- `node_cpu_count`; the condition that `get_next_node` writes around it is the same. -/
def nodeCpuCount (topology : Topology) (affinity : Affinity) (node : Int) : Nat :=
  match affinity.cpuCounts with
  | some counts => if node < maxNumaNodes then counts node else topology.nodeCpus node
  | none => topology.nodeCpus node

/-- `affinity_nodes[seq % num_affinity_nodes]`; the remainder has the sign of `seq`. -/
def nodeInTurn (nodes : List Int) (seq : Int) : Option Int :=
  let index := seq.tmod nodes.length
  if index < 0 then none else nodes[index.toNat]?

/-- The loop of `get_next_node` over the nodes; `offset` is an `int`. -/
def nodeWithCpu (cpus : Int → Nat) (seq : Int) : Int → List Int → Option Int
  | _, [] => none
  | offset, n :: rest =>
      if seq < toInt32 (offset + cpus n) then some n
      else nodeWithCpu cpus seq (toInt32 (offset + cpus n)) rest

/-- `get_next_node` -/
def getNextNode (topology : Topology) (affinity : Affinity) (state : SpreadState)
    : Option Int × SpreadState :=
  match affinity.spread with
  | .compact =>
      let seq := state.globalThreadSeq
      ((nodeWithCpu (nodeCpuCount topology affinity) seq 0 affinity.nodes).or
          (nodeInTurn affinity.nodes seq),
        { state with globalThreadSeq := toInt32 (seq + 1) })
  | .roundRobin =>
      let idx := state.nextNodeRr
      (nodeInTurn affinity.nodes idx, { state with nextNodeRr := toInt32 (idx + 1) })

/-- The results of calls of `get_next_node` in a row. -/
def threadNodes (topology : Topology) (affinity : Affinity)
    : Nat → SpreadState → List (Option Int)
  | 0, _ => []
  | calls + 1, state =>
      (getNextNode topology affinity state).1
        :: threadNodes topology affinity calls (getNextNode topology affinity state).2

/-- The CPUs of all affinity nodes. -/
def cpuTotal (topology : Topology) (affinity : Affinity) : Nat :=
  (affinity.nodes.map (nodeCpuCount topology affinity)).sum

-----------------------------------------------------------------------------------------
-- One call with compact spread
-----------------------------------------------------------------------------------------

section
variable {cpus : Int → Nat} {nodes : List Int}

/-- While the offsets fit an `int` the loop finds the owner of the CPU with the number `seq`,
and the first node for a counter below the offset.
-/
theorem nodeWithCpu_eq {offset : Int} (seq : Int) (start : 0 ≤ offset)
    (small : offset + (nodes.map cpus).sum < 2 ^ 31)
    : nodeWithCpu cpus seq offset nodes
      = if seq < offset then nodes.head? else ownerOf cpus (seq - offset).toNat nodes := by
  induction nodes generalizing offset with
  | nil => simp [nodeWithCpu, ownerOf]
  | cons node rest ih =>
      rw [List.map_cons, List.sum_cons] at small
      have next : toInt32 (offset + cpus node) = offset + cpus node :=
        toInt32_eq (by omega) (by omega)
      rw [nodeWithCpu, next, ih (by omega) (by omega), ownerOf, List.head?_cons]
      by_cases before : seq < offset
      · rw [if_pos before, if_pos (by omega)]
      · rw [if_neg before]
        by_cases own : seq < offset + cpus node
        · rw [if_pos own, if_pos (by omega)]
        · have shifted : (seq - (offset + cpus node)).toNat
              = (seq - offset).toNat - cpus node := by
            omega
          rw [if_neg own, if_neg own, if_neg (by omega), shifted]

/-- A counter that did not wrap gives the nodes in turn. -/
theorem nodeInTurn_eq {seq : Int} (started : 0 ≤ seq)
    : nodeInTurn nodes seq = nodes[seq.toNat % nodes.length]? := by
  obtain ⟨n, rfl⟩ := Int.eq_ofNat_of_zero_le started
  have index : (n : Int).tmod nodes.length = ((n % nodes.length : Nat) : Int) := by
    rw [Int.tmod_eq_emod_of_nonneg started]
    exact (Int.natCast_mod n nodes.length).symm
  unfold nodeInTurn
  dsimp only
  rw [index, if_neg (by omega), Int.toNat_natCast, Int.toNat_natCast]

end

section
variable {topology : Topology} {affinity : Affinity}

/-- The three cases of a call: no thread counted yet or the counter wrapped, a CPU left, and
all CPUs used.
-/
theorem getNextNode_compact (compact : affinity.spread = .compact)
    (small : cpuTotal topology affinity < 2 ^ 31) (state : SpreadState)
    : getNextNode topology affinity state
      = (if state.globalThreadSeq < 0 then affinity.nodes.head?
          else
            (shares (nodeCpuCount topology affinity)
                affinity.nodes)[state.globalThreadSeq.toNat]?.or
              affinity.nodes[state.globalThreadSeq.toNat % affinity.nodes.length]?,
        { state with globalThreadSeq := toInt32 (state.globalThreadSeq + 1) }) := by
  have fits : (0 : Int) + (affinity.nodes.map (nodeCpuCount topology affinity)).sum < 2 ^ 31 := by
    have bound := small
    unfold cpuTotal at bound
    omega
  unfold getNextNode
  rw [compact]
  dsimp only
  rw [nodeWithCpu_eq state.globalThreadSeq (le_refl 0) fits, Int.sub_zero, ownerOf_eq]
  split
  case isTrue wrapped =>
      cases nodes : affinity.nodes with
      | nil => simp [nodeInTurn]
      | cons node rest => rfl
  case isFalse started => rw [nodeInTurn_eq (by omega)]

/-- A call gives a node of the list, whatever the counter. -/
theorem getNextNode_mem (compact : affinity.spread = .compact) (nonempty : affinity.nodes ≠ [])
    (small : cpuTotal topology affinity < 2 ^ 31) (state : SpreadState)
    : ∃ node ∈ affinity.nodes, (getNextNode topology affinity state).1 = some node := by
  rw [getNextNode_compact compact small]
  dsimp only
  split
  case isTrue wrapped =>
      obtain ⟨node, rest, nodes⟩ := List.exists_cons_of_ne_nil nonempty
      rw [nodes]
      exact ⟨node, List.mem_cons_self, rfl⟩
  case isFalse started =>
      cases owner
          : (shares (nodeCpuCount topology affinity)
              affinity.nodes)[state.globalThreadSeq.toNat]? with
      | some node =>
          have owned := List.mem_of_getElem? owner
          exact ⟨node, ((mem_shares _).mp owned).1, rfl⟩
      | none =>
          have inside : state.globalThreadSeq.toNat % affinity.nodes.length
              < affinity.nodes.length :=
            Nat.mod_lt _ (List.length_pos_iff.mpr nonempty)
          exact ⟨affinity.nodes[_], List.getElem_mem inside, List.getElem?_eq_getElem inside⟩

-----------------------------------------------------------------------------------------
-- Calls in a row
-----------------------------------------------------------------------------------------

/-- Every thread gets one of the nodes. -/
theorem threadNodes_mem (compact : affinity.spread = .compact) (nonempty : affinity.nodes ≠ [])
    (small : cpuTotal topology affinity < 2 ^ 31) (calls : Nat) (state : SpreadState)
    : ∀ result ∈ threadNodes topology affinity calls state,
        ∃ node ∈ affinity.nodes, result = some node := by
  induction calls generalizing state with
  | zero => exact fun _ member => absurd member List.not_mem_nil
  | succ calls ih =>
      intro result member
      rcases List.mem_cons.mp member with rfl | later
      · exact getNextNode_mem compact nonempty small state
      · exact ih _ result later

/-- While CPUs are left, the calls in a row take them in order. -/
theorem threadNodes_shares (compact : affinity.spread = .compact)
    (small : cpuTotal topology affinity < 2 ^ 31) (calls : Nat) (state : SpreadState)
    (started : 0 ≤ state.globalThreadSeq)
    (left : state.globalThreadSeq + calls ≤ cpuTotal topology affinity)
    : threadNodes topology affinity calls state
      = (((shares (nodeCpuCount topology affinity) affinity.nodes).drop
          state.globalThreadSeq.toNat).take calls).map some := by
  induction calls generalizing state with
  | zero => simp [threadNodes]
  | succ calls ih =>
      have inside : state.globalThreadSeq.toNat
          < (shares (nodeCpuCount topology affinity) affinity.nodes).length := by
        rw [length_shares, ← cpuTotal]
        omega
      have next : toInt32 (state.globalThreadSeq + 1) = state.globalThreadSeq + 1 :=
        toInt32_eq (by omega) (by omega)
      have number : (state.globalThreadSeq + 1).toNat = state.globalThreadSeq.toNat + 1 := by
        omega
      have rest := ih { state with globalThreadSeq := state.globalThreadSeq + 1 }
        (by dsimp only; omega) (by dsimp only; omega)
      rw [threadNodes, getNextNode_compact compact small, next, rest, if_neg (by omega),
        List.getElem?_eq_getElem inside, List.drop_eq_getElem_cons inside, number]
      rfl

end

/-- The threads fill the nodes one behind the other, each node with as many threads as it has
CPUs.
-/
structure FilledInOrder (cpus : Int → Nat) (nodes : List Int) (k : Nat)
    (results : List (Option Int))
    : Prop where
  order : results = ((shares cpus nodes).take k).map some
  share
    : ∀ front node back,
        nodes = front ++ node :: back
        → results.count (some node) = min (cpus node) (k - (front.map cpus).sum)
  within : ∀ node ∈ nodes, results.count (some node) ≤ cpus node

/-- Shares fill the nodes one after the other. -/
theorem filledInOrder {cpus : Int → Nat} {nodes : List Int} (distinct : nodes.Nodup) (k : Nat)
    : FilledInOrder cpus nodes k (((shares cpus nodes).take k).map some) := by
  have share : ∀ front node back, nodes = front ++ node :: back
      → (((shares cpus nodes).take k).map some).count (some node)
        = min (cpus node) (k - (front.map cpus).sum) := by
    intro front node back split
    rw [List.count_map_of_injective _ some (Option.some_injective Int), split]
    exact count_take_shares cpus (split ▸ distinct) k
  refine ⟨rfl, share, fun node listed => ?_⟩
  obtain ⟨front, back, split⟩ := List.append_of_mem listed
  rw [share front node back split]
  exact Nat.min_le_left _ _

/-- With compact spread the first threads fill the CPUs of the nodes in the order of the list,
and every later thread gets a node of the list, also behind a wrap of the counter.
-/
theorem compactSpread_fills (topology : Topology) (affinity : Affinity)
    (compact : affinity.spread = .compact) (nonempty : affinity.nodes ≠ [])
    (distinct : affinity.nodes.Nodup) (small : cpuTotal topology affinity < 2 ^ 31)
    : (∀ k,
        FilledInOrder (nodeCpuCount topology affinity) affinity.nodes k
          (threadNodes topology affinity (min k (cpuTotal topology affinity)) {}))
      ∧ ∀ calls state,
          ∀ result ∈ threadNodes topology affinity calls state,
            ∃ node ∈ affinity.nodes, result = some node := by
  refine ⟨fun k => ?_, threadNodes_mem compact nonempty small⟩
  have run := threadNodes_shares compact small (min k (cpuTotal topology affinity)) {}
    (le_refl 0) (by dsimp only; omega)
  have all : (shares (nodeCpuCount topology affinity) affinity.nodes).length
      = cpuTotal topology affinity :=
    length_shares _ _
  rw [run, Int.toNat_zero, List.drop_zero, ← all, List.take_eq_take_min.symm]
  exact filledInOrder distinct k

/-- Three nodes: two with CPUs around one with memory only. -/
def mixedTopology : Topology where
  available := 0
  maxNode := 2
  nodeSize _ := 1
  distance a b := if a = b then 10 else 20
  nodeCpus node := if node = 0 then 2 else if node = 2 then 1 else 0

/-- Nodes with different numbers of CPUs. -/
theorem compactSpread_fills_mixed
    : (∀ k,
        FilledInOrder (nodeCpuCount mixedTopology { nodes := [0, 1, 2] }) [0, 1, 2] k
          (threadNodes mixedTopology { nodes := [0, 1, 2] }
            (min k (cpuTotal mixedTopology { nodes := [0, 1, 2] })) {}))
      ∧ ∀ calls state,
          ∀ result ∈ threadNodes mixedTopology { nodes := [0, 1, 2] } calls state,
            ∃ node ∈ ([0, 1, 2] : List Int), result = some node :=
  compactSpread_fills mixedTopology { nodes := [0, 1, 2] } rfl (List.cons_ne_nil _ _) (by decide)
    (by decide)

-----------------------------------------------------------------------------------------
-- Nodes without CPUs
-----------------------------------------------------------------------------------------

/-- What `numa_node_to_cpus` fills in for each node; an error is `none`. -/
abbrev CpuMasks := Int → Option (List Bool)

/-- The bits that `node_cpu_count` counts. -/
def countCpus (mask : Option (List Bool)) : Nat := ((mask.getD []).take cpuSetSize).count true

/-- The set that `bind_thread_to_node` hands to `sched_setaffinity`, if it gets there. -/
def boundCpus (mask : Option (List Bool)) : Option (List Nat) :=
  mask.map (fun bits =>
    (List.range (min bits.length cpuSetSize)).filter (fun cpu => bits[cpu]? = some true))

def Topology.withMasks (topology : Topology) (masks : CpuMasks) : Topology :=
  { topology with nodeCpus := fun node => countCpus (masks node) }

/-- A thread that gets this result is bound to some CPUs. -/
def BindsToCpus (masks : CpuMasks) (result : Option Int) : Prop :=
  ∃ node, result = some node
    ∧ 0 < countCpus (masks node)
    ∧ ∃ cpu cpus, boundCpus (masks node) = some (cpu :: cpus)

/-- What `init_affinity` leaves for `get_next_node` where threads are placed one by one. -/
structure Affinity.Ready (affinity : Affinity) (topology : Topology) : Prop where
  compact : affinity.spread = .compact
  cached
    : affinity.cpuCounts = none
      ∨ affinity.cpuCounts = some (cacheNodeCpuCounts topology affinity.nodes)
  few : affinity.nodes.length ≤ maxNumaNodes

/-- The counter after some threads. -/
def spreadAfter (topology : Topology) (affinity : Affinity) : Nat → SpreadState
  | 0 => {}
  | threads + 1 => (getNextNode topology affinity (spreadAfter topology affinity threads)).2

/-- The node whose turn it is once the CPUs are used, and for a counter below zero. -/
def turnOf (nodes : List Int) (seq : Int) : Option Int :=
  if seq < 0 then nodes.head? else nodes[seq.toNat % nodes.length]?

/-- A node has CPUs to count exactly if there are some to bind to. -/
theorem countCpus_pos_iff {mask : Option (List Bool)}
    : 0 < countCpus mask ↔ ∃ cpu cpus, boundCpus mask = some (cpu :: cpus) := by
  cases mask with
  | none => simp [countCpus, boundCpus]
  | some bits =>
      have counted : 0 < countCpus (some bits)
          ↔ ∃ cpu < min bits.length cpuSetSize, bits[cpu]? = some true := by
        rw [countCpus, List.count_pos_iff, Option.getD_some, List.mem_take_iff_getElem]
        constructor
        · rintro ⟨cpu, inside, set⟩
          exact ⟨cpu, by omega, List.getElem?_eq_some_iff.mpr ⟨by omega, set⟩⟩
        · rintro ⟨cpu, inside, set⟩
          obtain ⟨_, bit⟩ := List.getElem?_eq_some_iff.mp set
          exact ⟨cpu, by omega, bit⟩
      rw [counted, boundCpus, Option.map_some]
      constructor
      · rintro ⟨cpu, inside, set⟩
        have member : cpu ∈ (List.range (min bits.length cpuSetSize)).filter
            (fun cpu => bits[cpu]? = some true) :=
          List.mem_filter.mpr ⟨List.mem_range.mpr inside, decide_eq_true set⟩
        obtain ⟨first, rest, found⟩ := List.exists_cons_of_ne_nil (List.ne_nil_of_mem member)
        exact ⟨first, rest, congrArg some found⟩
      · rintro ⟨cpu, rest, found⟩
        have member : cpu ∈ (List.range (min bits.length cpuSetSize)).filter
            (fun cpu => bits[cpu]? = some true) :=
          Option.some_inj.mp found ▸ List.mem_cons_self
        obtain ⟨inside, set⟩ := List.mem_filter.mp member
        exact ⟨cpu, List.mem_range.mp inside, of_decide_eq_true set⟩

/-- No more CPUs are counted than a CPU set holds. -/
theorem countCpus_le (mask : Option (List Bool)) : countCpus mask ≤ cpuSetSize :=
  List.count_le_length.trans (List.length_take_le _ _)

/-- The array of nodes does not overflow with the named ones. -/
theorem namedNodes_length (topology : Topology) (tokens : List (List Char)) {nodes : List Int}
    (few : nodes.length ≤ maxNumaNodes)
    : (namedNodes topology tokens nodes).length ≤ maxNumaNodes := by
  induction tokens generalizing nodes with
  | nil => exact few
  | cons tok rest ih =>
      unfold namedNodes
      split
      case isTrue room =>
          apply ih
          split
          · rw [List.length_append, List.length_singleton]
            omega
          · exact few
      case isFalse => exact few

/-- The array of nodes does not overflow with the detected ones. -/
theorem detectedNodes_length (topology : Topology) (numbers : List Nat) {nodes : List Int}
    (few : nodes.length ≤ maxNumaNodes)
    : (detectedNodes topology numbers nodes).length ≤ maxNumaNodes := by
  induction numbers generalizing nodes with
  | nil => exact few
  | cons i rest ih =>
      unfold detectedNodes
      split
      case isTrue room =>
          apply ih
          split
          · rw [List.length_append, List.length_singleton]
            omega
          · exact few
      case isFalse => exact few

/-- The array of nodes does not overflow. -/
theorem affinityNodes_length (env : Environment) (topology : Topology)
    : (affinityNodes env topology).length ≤ maxNumaNodes := by
  unfold affinityNodes
  split
  · exact namedNodes_length topology _ (Nat.zero_le _)
  · exact detectedNodes_length topology _ (Nat.zero_le _)

theorem bindForMode_ready {topology : Topology} {affinity : Affinity}
    (ready : affinity.Ready topology)
    : (bindForMode topology affinity).Ready topology := by
  unfold bindForMode
  split
  · exact ⟨ready.compact, ready.cached, ready.few⟩
  · exact ready
  · exact ⟨ready.compact, .inr rfl, ready.few⟩
  · exact ⟨ready.compact, .inr rfl, ready.few⟩

/-- Every start leaves compact spread and counts that are those of the listed nodes. -/
theorem initAffinity_ready (env : Environment) (topology : Topology) (layer2Active : Bool)
    : (initAffinity env topology layer2Active {}).Ready topology := by
  have few := affinityNodes_length env topology
  unfold initAffinity
  split
  · exact ⟨rfl, .inl rfl, Nat.zero_le _⟩
  · dsimp only
    split
    · exact ⟨rfl, .inl rfl, few⟩
    · split
      · exact ⟨rfl, .inl rfl, few⟩
      · unfold selectMode
        exact bindForMode_ready ⟨ite_self _, .inl rfl, few⟩

section
variable {masks : CpuMasks} {topology : Topology} {affinity : Affinity}

/-- Cached or not, the counts of listed nodes are those of their masks. -/
theorem nodeCpuCount_withMasks (ready : affinity.Ready (topology.withMasks masks)) {node : Int}
    (listed : node ∈ affinity.nodes)
    : nodeCpuCount (topology.withMasks masks) affinity node = countCpus (masks node) := by
  unfold nodeCpuCount
  rcases ready.cached with unloaded | loaded
  · rw [unloaded]
    rfl
  · rw [loaded]
    dsimp only
    split
    case isTrue low => exact if_pos ⟨listed, low⟩
    case isFalse => rfl

/-- All CPUs that are counted fit an `int`. -/
theorem cpuTotal_withMasks_le (ready : affinity.Ready (topology.withMasks masks))
    : cpuTotal (topology.withMasks masks) affinity ≤ maxNumaNodes * cpuSetSize := by
  have bound : cpuTotal (topology.withMasks masks) affinity
      ≤ (affinity.nodes.map (nodeCpuCount (topology.withMasks masks) affinity)).length
        • cpuSetSize := by
    apply List.sum_le_card_nsmul
    intro count member
    obtain ⟨node, listed, rfl⟩ := List.mem_map.mp member
    rw [nodeCpuCount_withMasks ready listed]
    exact countCpus_le _
  rw [List.length_map, Nat.nsmul_eq_mul] at bound
  exact bound.trans (Nat.mul_le_mul_right _ ready.few)

/-- The counter of threads is a C `int`. -/
theorem spreadAfter_seq (compact : affinity.spread = .compact) (threads : Nat)
    : (spreadAfter topology affinity threads).globalThreadSeq = toInt32 threads := by
  induction threads with
  | zero => rfl
  | succ threads ih =>
      unfold spreadAfter getNextNode
      rw [compact]
      dsimp only
      rw [ih]
      unfold toInt32
      omega

/-- A thread is bound to CPUs if it has a node with some. -/
theorem bindsToCpus_iff {result : Option Int}
    : BindsToCpus masks result ↔ ∃ node, result = some node ∧ 0 < countCpus (masks node) := by
  unfold BindsToCpus
  refine exists_congr (fun node => and_congr_right (fun _ => ?_))
  exact and_iff_left_of_imp countCpus_pos_iff.mp

/-- A call binds its thread while CPUs are left, and behind them where the node in turn has
some.
-/
theorem getNextNode_binds_iff (ready : affinity.Ready (topology.withMasks masks))
    (state : SpreadState)
    : BindsToCpus masks (getNextNode (topology.withMasks masks) affinity state).1
      ↔ (0 ≤ state.globalThreadSeq
          ∧ state.globalThreadSeq < cpuTotal (topology.withMasks masks) affinity)
        ∨ ∃ node, turnOf affinity.nodes state.globalThreadSeq = some node
            ∧ 0 < countCpus (masks node) := by
  have total := cpuTotal_withMasks_le ready
  have small : cpuTotal (topology.withMasks masks) affinity < 2 ^ 31 :=
    total.trans_lt (by decide)
  rw [getNextNode_compact ready.compact small, bindsToCpus_iff, turnOf]
  dsimp only
  by_cases wrapped : state.globalThreadSeq < 0
  · rw [if_pos wrapped, if_pos wrapped]
    exact (or_iff_right (fun inside => by omega)).symm
  · rw [if_neg wrapped, if_neg wrapped]
    have places := length_shares (nodeCpuCount (topology.withMasks masks) affinity) affinity.nodes
    by_cases left : state.globalThreadSeq.toNat < cpuTotal (topology.withMasks masks) affinity
    · have inside : state.globalThreadSeq.toNat
          < (shares (nodeCpuCount (topology.withMasks masks) affinity) affinity.nodes).length :=
        places ▸ left
      obtain ⟨listed, own⟩ := (mem_shares _).mp (List.getElem_mem inside)
      rw [nodeCpuCount_withMasks ready listed] at own
      rw [List.getElem?_eq_getElem inside, Option.some_or]
      exact iff_of_true ⟨_, rfl, own⟩ (.inl (by omega))
    · have outside
          : (shares (nodeCpuCount (topology.withMasks masks) affinity)
              affinity.nodes)[state.globalThreadSeq.toNat]? = none :=
        List.getElem?_eq_none (places ▸ Nat.le_of_not_lt left)
      rw [outside, Option.none_or]
      exact (or_iff_right (fun inside => by omega)).symm

/-- The turn comes round to every node. -/
theorem exists_turnOf (nodes : List Int) {node : Int} (listed : node ∈ nodes) (total : Nat)
    : ∃ threads : Nat, total ≤ threads ∧ threads < nodes.length * (total + 1)
        ∧ turnOf nodes threads = some node := by
  obtain ⟨index, inside, rfl⟩ := List.mem_iff_getElem.mp listed
  refine ⟨nodes.length * total + index, ?_, ?_, ?_⟩
  · exact (Nat.le_mul_of_pos_left total (by omega)).trans (Nat.le_add_right _ _)
  · rw [Nat.mul_add_one]
    omega
  · rw [turnOf, if_neg (by omega), Int.toNat_natCast, Nat.mul_add_mod, Nat.mod_eq_of_lt inside]
    exact List.getElem?_eq_getElem inside

/-- A turn falls on one of the nodes. -/
theorem turnOf_mem {nodes : List Int} {seq node : Int} (turn : turnOf nodes seq = some node)
    : node ∈ nodes := by
  unfold turnOf at turn
  split at turn
  · exact List.mem_of_head? turn
  · exact List.mem_of_getElem? turn

theorem turnOf_some {nodes : List Int} (nonempty : nodes ≠ []) (seq : Int)
    : ∃ node, turnOf nodes seq = some node := by
  have positive : 0 < nodes.length := List.length_pos_iff.mpr nonempty
  unfold turnOf
  split
  · exact ⟨nodes[0], List.head?_eq_getElem? ▸ List.getElem?_eq_getElem positive⟩
  · exact ⟨_, List.getElem?_eq_getElem (Nat.mod_lt _ positive)⟩

end

/-- Once the CPUs are used and once the counter has wrapped, a thread gets a node without CPUs
when it is that node's turn. So all threads get CPUs only where every listed node has some.
-/
theorem everyThread_binds_iff (masks : CpuMasks) (topology : Topology) (affinity : Affinity)
    (ready : affinity.Ready (topology.withMasks masks))
    (someCpu : ∃ node ∈ affinity.nodes, 0 < countCpus (masks node))
    : (∀ threads : Nat,
        BindsToCpus masks
            (getNextNode (topology.withMasks masks) affinity
              (spreadAfter (topology.withMasks masks) affinity threads)).1
          ↔ (0 ≤ toInt32 threads
              ∧ toInt32 threads < cpuTotal (topology.withMasks masks) affinity)
            ∨ ∃ node, turnOf affinity.nodes (toInt32 threads) = some node
                ∧ 0 < countCpus (masks node))
      ∧ ((∀ threads : Nat,
          BindsToCpus masks
            (getNextNode (topology.withMasks masks) affinity
              (spreadAfter (topology.withMasks masks) affinity threads)).1)
        ↔ ∀ node ∈ affinity.nodes, 0 < countCpus (masks node)) := by
  have one (threads : Nat) := spreadAfter_seq ready.compact threads
    ▸ getNextNode_binds_iff ready (spreadAfter (topology.withMasks masks) affinity threads)
  refine ⟨one, ?_⟩
  obtain ⟨equipped, listed, _⟩ := someCpu
  constructor
  · intro all node member
    obtain ⟨threads, used, few, turn⟩ :=
      exists_turnOf affinity.nodes member (cpuTotal (topology.withMasks masks) affinity)
    have total := cpuTotal_withMasks_le ready
    have bound : threads < 2 ^ 31 :=
      few.trans_le ((Nat.mul_le_mul ready.few (Nat.succ_le_succ total)).trans (by decide))
    have seq : toInt32 threads = threads := toInt32_eq (by omega) (by omega)
    rcases (one threads).mp (all threads) with inside | ⟨chosen, its, own⟩
    · omega
    · rw [seq, turn] at its
      exact Option.some_inj.mp its ▸ own
  · intro every threads
    obtain ⟨node, turn⟩ := turnOf_some (List.ne_nil_of_mem listed) (toInt32 threads)
    exact (one threads).mpr (.inr ⟨node, turn, every node (turnOf_mem turn)⟩)

/-- Two nodes with one CPU and with memory only, as libnuma shows them. -/
def memoryOnlyMasks : CpuMasks := fun node => some (if node = 0 then [true] else [])

def memoryOnlyTopology : Topology where
  available := 0
  maxNode := 1
  nodeSize _ := 1
  distance a b := if a = b then 10 else 20
  nodeCpus _ := 0

/-- The start with `KUMF_AFFINITY=per-thread` on these nodes. -/
def memoryOnlyAffinity : Affinity :=
  initAffinity { affinity := some "per-thread".toList }
    (memoryOnlyTopology.withMasks memoryOnlyMasks) false {}

/-- A node without CPUs in the middle. -/
theorem everyThread_binds_iff_memoryOnly
    : (∀ threads : Nat,
        BindsToCpus memoryOnlyMasks
            (getNextNode (memoryOnlyTopology.withMasks memoryOnlyMasks) memoryOnlyAffinity
              (spreadAfter (memoryOnlyTopology.withMasks memoryOnlyMasks) memoryOnlyAffinity
                threads)).1
          ↔ (0 ≤ toInt32 threads
              ∧ toInt32 threads
                < cpuTotal (memoryOnlyTopology.withMasks memoryOnlyMasks) memoryOnlyAffinity)
            ∨ ∃ node, turnOf memoryOnlyAffinity.nodes (toInt32 threads) = some node
                ∧ 0 < countCpus (memoryOnlyMasks node))
      ∧ ((∀ threads : Nat,
          BindsToCpus memoryOnlyMasks
            (getNextNode (memoryOnlyTopology.withMasks memoryOnlyMasks) memoryOnlyAffinity
              (spreadAfter (memoryOnlyTopology.withMasks memoryOnlyMasks) memoryOnlyAffinity
                threads)).1)
        ↔ ∀ node ∈ memoryOnlyAffinity.nodes, 0 < countCpus (memoryOnlyMasks node)) :=
  everyThread_binds_iff memoryOnlyMasks memoryOnlyTopology memoryOnlyAffinity
    (initAffinity_ready _ _ _) ⟨0, by decide, by decide⟩

/-- The second thread of such a start is placed on the node without CPUs. -/
theorem secondThread_unbound
    : memoryOnlyAffinity.mode = .perThread
      ∧ memoryOnlyAffinity.nodes = [0, 1]
      ∧ 0 < countCpus (memoryOnlyMasks 0)
      ∧ (getNextNode (memoryOnlyTopology.withMasks memoryOnlyMasks) memoryOnlyAffinity
          (spreadAfter (memoryOnlyTopology.withMasks memoryOnlyMasks) memoryOnlyAffinity 1)).1
        = some 1
      ∧ countCpus (memoryOnlyMasks 1) = 0
      ∧ boundCpus (memoryOnlyMasks 1) = some [] := by
  decide

end Kumf.Interc
