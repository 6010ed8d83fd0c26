import Kumf.Interc.Allocator

/-! `init_affinity`: the nodes to use, the mode and the first binding, from the environment
and from what libnuma answers.
-/

namespace Kumf.Interc

open Kumf.Library

def maxNumaNodes : Nat := 128

/-- `enum kumf_mpolicy` -/
inductive MemPolicy where
  | preferred
  | bind
  | interleave
  deriving DecidableEq, Repr

/-- `enum kumf_spread` -/
inductive Spread where
  | roundRobin
  | compact
  deriving DecidableEq, Repr

/-- What libnuma answers: `numa_available`, `numa_max_node`, `numa_node_size`,
`numa_distance` and the number of CPUs that `numa_node_to_cpus` sets.
-/
structure Topology where
  available : Int
  maxNode : Int
  nodeSize : Int → Int
  distance : Int → Int → Int
  nodeCpus : Int → Nat

/-- The variables of the environment; an unset one is `none`. -/
structure Environment where
  affinity : Option (List Char) := none
  nodes : Option (List Char) := none
  conf : Option (List Char) := none
  policy : Option (List Char) := none
  deriving DecidableEq, Repr

/-- The calls of `bind_to_all_nodes` and `bind_thread_to_node`. -/
inductive Binding where
  | toAllNodes (nodes : List Int)
  | threadToNode (node : Int) (policy : MemPolicy)
  deriving DecidableEq, Repr

/-- The statics of the affinity part, with the mode; `homeNode` is that of the main thread
and `cpuCounts` the cache of CPU counts, once loaded.
-/
structure Affinity where
  mode : Mode := .batch
  nodes : List Int := []
  memPolicy : MemPolicy := .preferred
  spread : Spread := .compact
  homeNode : Int := -1
  cpuCounts : Option (Int → Nat) := none
  binding : Option Binding := none

/-- The loop over the tokens of `KUMF_NODES`. -/
def namedNodes (topology : Topology) : List (List Char) → List Int → List Int
  | [], nodes => nodes
  | tok :: rest, nodes =>
      if nodes.length < maxNumaNodes then
        let n := atoi tok
        namedNodes topology rest (if 0 ≤ topology.nodeSize n then nodes ++ [n] else nodes)
      else
        nodes

/-- The loop over all node numbers. -/
def detectedNodes (topology : Topology) : List Nat → List Int → List Int
  | [], nodes => nodes
  | i :: rest, nodes =>
      if nodes.length < maxNumaNodes then
        detectedNodes topology rest
          (if 0 < topology.nodeSize (Int.ofNat i) then nodes ++ [Int.ofNat i] else nodes)
      else
        nodes

/-- The list that `init_affinity` collects. -/
def affinityNodes (env : Environment) (topology : Topology) : List Int :=
  match env.nodes with
  | some text => namedNodes topology (strtok ',' text) []
  | none => detectedNodes topology (List.range (topology.maxNode + 1).toNat) []

/-- The distances of `is_cross_socket`'s two loops: each node to those behind it. -/
def pairDistances (distance : Int → Int → Int) : List Int → List Int
  | [] => []
  | node :: rest => rest.map (distance node) ++ pairDistances distance rest

/-- One turn of the loops, on `min_dist` and `max_dist`. -/
def scanDistance (bounds : Int × Int) (d : Int) : Int × Int :=
  (if 0 < d ∧ d < bounds.1 then d else bounds.1, if bounds.2 < d then d else bounds.2)

/-- `is_cross_socket`; the product is an `int`. -/
def isCrossSocket (distance : Int → Int → Int) (nodes : List Int) : Bool :=
  if nodes.length ≤ 1 then
    false
  else
    let (minDist, maxDist) := (pairDistances distance nodes).foldl scanDistance (2 ^ 31 - 1, 0)
    toInt32 (minDist * 2) < maxDist

/-- The mode that `KUMF_AFFINITY` forces. -/
def forcedMode (env : Environment) : Option Mode :=
  if env.affinity = some "batch".toList then
    some .batch
  else if env.affinity = some "per-thread".toList ∨ env.affinity = some "compact".toList then
    some .perThread
  else
    none

/-- `KUMF_AFFINITY` is `off` or `0`. -/
def Environment.Off (env : Environment) : Prop :=
  env.affinity = some "off".toList ∨ env.affinity = some "0".toList

instance (env : Environment) : Decidable env.Off :=
  inferInstanceAs (Decidable (_ ∨ _))

/-- `cache_node_cpu_counts` -/
def cacheNodeCpuCounts (topology : Topology) (nodes : List Int) (node : Int) : Nat :=
  if node ∈ nodes ∧ node < maxNumaNodes then topology.nodeCpus node else 0

/-- The last part of `init_affinity`. -/
def bindForMode (topology : Topology) (affinity : Affinity) : Affinity :=
  match affinity.mode with
  | .batch => { affinity with binding := some (.toAllNodes affinity.nodes) }
  | .passive => affinity
  | .perThread | .routing =>
      let homeNode := affinity.nodes.headD 0
      { affinity with
        cpuCounts := some (cacheNodeCpuCounts topology affinity.nodes)
        homeNode
        binding := some (.threadToNode homeNode affinity.memPolicy) }

/-- `init_affinity`, behind the test of `KUMF_AFFINITY` for `off`. -/
def selectMode (env : Environment) (topology : Topology) (layer2Active : Bool)
    (affinity : Affinity)
    : Affinity :=
  let mode :=
    match forcedMode env with
    | some mode => mode
    | none =>
        if layer2Active = true then .routing
        else if isCrossSocket topology.distance affinity.nodes then .perThread
        else .batch
  let spread := if env.affinity = some "compact".toList then .compact else affinity.spread
  bindForMode topology { affinity with mode, spread }

/-- `init_affinity` -/
def initAffinity (env : Environment) (topology : Topology) (layer2Active : Bool)
    (affinity : Affinity)
    : Affinity :=
  if topology.available < 0 then
    { affinity with mode := .batch }
  else
    let nodes := affinityNodes env topology
    if nodes = [] then
      { affinity with mode := .batch, nodes }
    else
      let memPolicy :=
        if env.policy = some "bind".toList then .bind
        else if env.policy = some "interleave".toList then .interleave
        else affinity.memPolicy
      let affinity := { affinity with nodes, memPolicy }
      if env.Off then affinity else selectMode env topology layer2Active affinity

-----------------------------------------------------------------------------------------
-- Which inputs lead to which mode
-----------------------------------------------------------------------------------------

/-- `init_affinity` is told or decides not to place threads one by one, whatever the rules
say: no NUMA, no usable node, `off` or `batch`.
-/
def Disabled (env : Environment) (topology : Topology) : Prop :=
  topology.available < 0
  ∨ affinityNodes env topology = []
  ∨ env.Off
  ∨ env.affinity = some "batch".toList

theorem bindForMode_mode (topology : Topology) (affinity : Affinity)
    : (bindForMode topology affinity).mode = affinity.mode := by
  unfold bindForMode
  split <;> rfl

theorem selectMode_mode (env : Environment) (topology : Topology) (affinity : Affinity)
    : (selectMode env topology true affinity).mode = (forcedMode env).getD .routing := by
  unfold selectMode
  rw [bindForMode_mode]
  cases forcedMode env <;> rfl

theorem forcedMode_batch_iff {env : Environment}
    : (forcedMode env).getD .routing = .batch ↔ env.affinity = some "batch".toList := by
  unfold forcedMode
  split
  case isTrue batch => simp [batch]
  case isFalse other =>
      split
      case isTrue forced => exact iff_of_false (by simp) other
      case isFalse => exact iff_of_false (by simp) other

/-- With rules loaded, BATCH mode is what a disabled start leaves. -/
theorem initAffinity_batch_iff (env : Environment) (topology : Topology) {affinity : Affinity}
    (start : affinity.mode = .batch)
    : (initAffinity env topology true affinity).mode = .batch ↔ Disabled env topology := by
  unfold initAffinity Disabled
  split
  case isTrue missing => simp [missing]
  case isFalse numa =>
      dsimp only
      split
      case isTrue empty => simp [empty]
      case isFalse usable =>
          split
          case isTrue off => simp [off, start]
          case isFalse enabled =>
              rw [selectMode_mode, forcedMode_batch_iff]
              simp [numa, usable, enabled]

-----------------------------------------------------------------------------------------
-- The two bounds of `is_cross_socket`
-----------------------------------------------------------------------------------------

/-- What the loops leave in `min_dist` and `max_dist`. -/
structure ScanBounds (start : Int × Int) (distances : List Int) (bounds : Int × Int) : Prop where
  minLe : ∀ d ∈ distances, 0 < d → bounds.1 ≤ d
  minFrom : bounds.1 = start.1 ∨ (bounds.1 ∈ distances ∧ 0 < bounds.1)
  minStart : bounds.1 ≤ start.1
  leMax : ∀ d ∈ distances, d ≤ bounds.2
  maxFrom : bounds.2 = start.2 ∨ bounds.2 ∈ distances
  startMax : start.2 ≤ bounds.2

theorem scanDistance_step (start : Int × Int) (d : Int)
    : ScanBounds start [d] (scanDistance start d) := by
  unfold scanDistance
  constructor
  case minLe =>
      intro other member positive
      rw [List.mem_singleton.mp member] at positive ⊢
      dsimp only
      split <;> omega
  case minFrom =>
      dsimp only
      split
      case isTrue smaller => exact .inr ⟨List.mem_cons_self, smaller.1⟩
      case isFalse => exact .inl rfl
  case minStart =>
      dsimp only
      split <;> omega
  case leMax =>
      intro other member
      rw [List.mem_singleton.mp member]
      dsimp only
      split <;> omega
  case maxFrom =>
      dsimp only
      split
      case isTrue => exact .inr List.mem_cons_self
      case isFalse => exact .inl rfl
  case startMax =>
      dsimp only
      split <;> omega

/-- Bounds of one part are where the next part starts. -/
theorem ScanBounds.append {start middle bounds : Int × Int} {front back : List Int}
    (first : ScanBounds start front middle) (second : ScanBounds middle back bounds)
    : ScanBounds start (front ++ back) bounds := by
  constructor
  case minLe =>
      intro d member positive
      rcases List.mem_append.mp member with inFront | inBack
      · exact second.minStart.trans (first.minLe d inFront positive)
      · exact second.minLe d inBack positive
  case minFrom =>
      rcases second.minFrom with kept | ⟨inBack, positive⟩
      · rw [kept]
        exact first.minFrom.imp_right (fun found => ⟨List.mem_append_left _ found.1, found.2⟩)
      · exact .inr ⟨List.mem_append_right _ inBack, positive⟩
  case minStart => exact second.minStart.trans first.minStart
  case leMax =>
      intro d member
      rcases List.mem_append.mp member with inFront | inBack
      · exact (first.leMax d inFront).trans second.startMax
      · exact second.leMax d inBack
  case maxFrom =>
      rcases second.maxFrom with kept | inBack
      · rw [kept]
        exact first.maxFrom.imp_right (List.mem_append_left _)
      · exact .inr (List.mem_append_right _ inBack)
  case startMax => exact first.startMax.trans second.startMax

theorem scanDistance_bounds (distances : List Int) (start : Int × Int)
    : ScanBounds start distances (distances.foldl scanDistance start) := by
  induction distances generalizing start with
  | nil => exact ⟨by simp, .inl rfl, le_refl _, by simp, .inl rfl, le_refl _⟩
  | cons d rest ih => exact (scanDistance_step start d).append (ih (scanDistance start d))

/-- Among known distances the test finds a far pair and a near one. Where all distances are
2^30 or more, the doubled minimum wraps to a negative number.
-/
theorem scanDistance_far_iff {distances : List Int} (nonempty : distances ≠ [])
    (known : ∀ d ∈ distances, 0 < d ∧ d < 2 ^ 31)
    : toInt32 ((distances.foldl scanDistance (2 ^ 31 - 1, 0)).1 * 2)
        < (distances.foldl scanDistance (2 ^ 31 - 1, 0)).2
      ↔ (∃ far ∈ distances, ∃ near ∈ distances, 2 * near < far)
        ∨ ∀ d ∈ distances, 2 ^ 30 ≤ d := by
  obtain ⟨minLe, minFrom, _, leMax, maxFrom, _⟩ :=
    scanDistance_bounds distances (2 ^ 31 - 1, 0)
  generalize distances.foldl scanDistance (2 ^ 31 - 1, 0) = bounds at *
  obtain ⟨low, high⟩ := bounds
  dsimp only at *
  obtain ⟨d, member⟩ := List.exists_mem_of_ne_nil distances nonempty
  have lowMember : low ∈ distances := by
    rcases minFrom with start | ⟨found, _⟩
    · have same : d = low := by
        have lowLe := minLe d member (known d member).1
        have bound := (known d member).2
        omega
      exact same ▸ member
    · exact found
  have highMember : high ∈ distances := by
    rcases maxFrom with start | found
    · have dLe := leMax d member
      have positive := (known d member).1
      omega
    · exact found
  have lowRange := known low lowMember
  have highRange := known high highMember
  rw [toInt32]
  constructor
  · intro crosses
    by_cases small : low < 2 ^ 30
    · exact .inl ⟨high, highMember, low, lowMember, by omega⟩
    · refine .inr (fun other otherMember => ?_)
      have lowLe := minLe other otherMember (known other otherMember).1
      omega
  · rintro (⟨far, farMember, near, nearMember, apart⟩ | large)
    · have lowLe := minLe near nearMember (known near nearMember).1
      have farLe := leMax far farMember
      omega
    · have lowLarge := large low lowMember
      omega

/-- For distinct nodes and a symmetric distance the order of the list does not matter. -/
theorem mem_pairDistances {distance : Int → Int → Int} {nodes : List Int} {d : Int}
    (distinct : nodes.Nodup)
    (symm : ∀ a ∈ nodes, ∀ b ∈ nodes, distance a b = distance b a)
    : d ∈ pairDistances distance nodes
      ↔ ∃ a ∈ nodes, ∃ b ∈ nodes, a ≠ b ∧ distance a b = d := by
  induction nodes with
  | nil => simp [pairDistances]
  | cons node rest ih =>
      obtain ⟨outside, restDistinct⟩ := List.nodup_cons.mp distinct
      have restSymm : ∀ a ∈ rest, ∀ b ∈ rest, distance a b = distance b a :=
        fun a inRest b alsoRest =>
          symm a (List.mem_cons_of_mem node inRest) b (List.mem_cons_of_mem node alsoRest)
      rw [pairDistances, List.mem_append, List.mem_map, ih restDistinct restSymm]
      constructor
      · rintro (⟨b, inRest, same⟩ | ⟨a, inRest, b, alsoRest, apart, same⟩)
        · have apart : node ≠ b := fun equal => outside (equal ▸ inRest)
          exact ⟨node, List.mem_cons_self, b, List.mem_cons_of_mem node inRest, apart, same⟩
        · exact ⟨a, List.mem_cons_of_mem node inRest, b, List.mem_cons_of_mem node alsoRest,
            apart, same⟩
      · rintro ⟨a, inList, b, alsoIn, apart, same⟩
        rcases List.mem_cons.mp inList with rfl | inRest
        · rcases List.mem_cons.mp alsoIn with rfl | alsoRest
          · exact absurd rfl apart
          · exact .inl ⟨b, alsoRest, same⟩
        · rcases List.mem_cons.mp alsoIn with rfl | alsoRest
          · exact .inl ⟨a, inRest, (symm b List.mem_cons_self a inList).trans same⟩
          · exact .inr ⟨a, inRest, b, alsoRest, apart, same⟩

end Kumf.Interc
