import Kumf.Interc.Rules

/-! `resolve_node`: which node an allocation is routed to, and when a rule marked `local`
gets its say.
-/

namespace Kumf.Interc

/-- The `__thread` variables of one thread. -/
structure ThreadLocals where
  homeNode : Int := -1
  statLocal : Nat := 0
  statConfig : Nat := 0
  deriving DecidableEq, Repr

/-- What `sched_getcpu` and `numa_node_of_cpu` answer. -/
structure CpuPlace where
  cpu : Int
  nodeOfCpu : Int → Int

/-- `resolve_node_relative` -/
def resolveNodeRelative (place : CpuPlace) (locals : ThreadLocals) (node : Int) : Int :=
  if node = -2 then
    let home := locals.homeNode
    if home < 0 then
      if 0 ≤ place.cpu then place.nodeOfCpu place.cpu else home
    else
      home
  else
    node

/-- The answer of `resolve_node` with the variables it writes. -/
structure Resolution where
  node : Int
  routingEverUsed : Bool
  locals : ThreadLocals

/-- `resolve_node` -/
def resolveNode (place : CpuPlace) (rules : RuleState) (routingEverUsed : Bool)
    (locals : ThreadLocals) (caller sz : Nat)
    : Resolution :=
  if rules.layer2Active = false then
    { node := -1, routingEverUsed, locals }
  else
    let node := matchSize rules.tables.sizeRules sz
    if 0 ≤ node then
      { node := resolveNodeRelative place locals node
        routingEverUsed := true
        locals := { locals with statConfig := locals.statConfig + 1 } }
    else
      let node := matchAddr rules.tables.addrRules caller
      if 0 ≤ node then
        { node := resolveNodeRelative place locals node
          routingEverUsed := true
          locals := { locals with statConfig := locals.statConfig + 1 } }
      else
        { node := -1
          routingEverUsed
          locals := { locals with statLocal := locals.statLocal + 1 } }

-----------------------------------------------------------------------------------------
-- What the rules ask for, and where the code agrees
-----------------------------------------------------------------------------------------

/-- The first size rule that covers a size. -/
def RuleTables.sizeRule? (tables : RuleTables) (sz : Nat) : Option SizeRule :=
  tables.sizeRules.find? (fun rule => rule.covers sz)

/-- The first address rule that contains a caller. -/
def RuleTables.addrRule? (tables : RuleTables) (caller : Nat) : Option AddrRule :=
  tables.addrRules.find? (fun rule => rule.contains caller)

/-- A node column names a node or is the marker for `local`. -/
def ValidNode (node : Int) : Prop := 0 ≤ node ∨ node = -2

structure RuleTables.ValidNodes (tables : RuleTables) : Prop where
  size : ∀ rule ∈ tables.sizeRules, ValidNode rule.node
  addr : ∀ rule ∈ tables.addrRules, ValidNode rule.node

/-- Where a rule sends a thread whose home node is `home`. -/
def placement (home node : Int) : Int := if node = -2 then home else node

/-- What routing is for: the first size rule decides, else the first address rule, else
nothing does; a rule marked `local` sends the thread to its home node.
-/
def intendedNode (tables : RuleTables) (home : Int) (caller sz : Nat) : Int :=
  match tables.sizeRule? sz with
  | some rule => placement home rule.node
  | none =>
      match tables.addrRule? caller with
      | some rule => placement home rule.node
      | none => -1

/-- No rule marked `local` decides, or skipping it happens to hit the home node. -/
structure LocalRulesHarmless (tables : RuleTables) (home : Int) (caller sz : Nat)
    : Prop where
  size
    : ∀ rule,
        tables.sizeRule? sz = some rule
        → rule.node = -2
        → ∃ other, tables.addrRule? caller = some other ∧ other.node = home
  addr
    : tables.sizeRule? sz = none
      → ∀ other, tables.addrRule? caller = some other → other.node ≠ -2

section
variable {tables : RuleTables} {home : Int} {caller sz : Nat}

/-- With a size rule for the allocation, only that one may be marked `local`. -/
theorem localRulesHarmless_of_size {rule : SizeRule} (size : tables.sizeRule? sz = some rule)
    : LocalRulesHarmless tables home caller sz
      ↔ (rule.node = -2
        → ∃ other, tables.addrRule? caller = some other ∧ other.node = home) := by
  constructor
  · intro harmless isLocal
    exact harmless.size rule size isLocal
  · intro skipped
    refine ⟨?_, by simp [size]⟩
    intro found same isLocal
    rw [size] at same
    exact skipped (by rw [Option.some.inj same]; exact isLocal)

/-- Without one, it is the address rule. -/
theorem localRulesHarmless_of_no_size (size : tables.sizeRule? sz = none)
    : LocalRulesHarmless tables home caller sz
      ↔ ∀ other, tables.addrRule? caller = some other → other.node ≠ -2 :=
  ⟨fun harmless => harmless.addr size, fun clean => ⟨by simp [size], fun _ => clean⟩⟩

end

/-- The two lookups as the code combines them: a negative node counts as no match. -/
theorem resolveNode_node (place : CpuPlace) {rules : RuleState} (used : Bool)
    (locals : ThreadLocals) (caller sz : Nat) (active : rules.layer2Active = true)
    : (resolveNode place rules used locals caller sz).node
      = if 0 ≤ matchSize rules.tables.sizeRules sz then
          matchSize rules.tables.sizeRules sz
        else if 0 ≤ matchAddr rules.tables.addrRules caller then
          matchAddr rules.tables.addrRules caller
        else -1 := by
  have absolute {node : Int} (named : 0 ≤ node)
      : resolveNodeRelative place locals node = node := by
    have notLocal : node ≠ -2 := by omega
    simp [resolveNodeRelative, notLocal]
  simp only [resolveNode, active, Bool.true_eq_false, if_false]
  split
  case isTrue named => exact absolute named
  case isFalse =>
      split
      case isTrue named => exact absolute named
      case isFalse => rfl

/-- `resolve_node` sends an allocation where the rules say exactly when no rule marked
`local` is the deciding one, short of an address rule naming the home node behind it.
Witness: cases on the two first matches; a stored -2 is taken for "no match".
-/
theorem resolveNode_intended_iff (place : CpuPlace) {rules : RuleState} (used : Bool)
    {locals : ThreadLocals} (caller sz : Nat) (active : rules.layer2Active = true)
    (valid : rules.tables.ValidNodes) (home : 0 ≤ locals.homeNode)
    : (resolveNode place rules used locals caller sz).node
        = intendedNode rules.tables locals.homeNode caller sz
      ↔ LocalRulesHarmless rules.tables locals.homeNode caller sz := by
  have sizeLookup : matchSize rules.tables.sizeRules sz
      = ((rules.tables.sizeRule? sz).map SizeRule.node).getD (-1) :=
    matchSize_eq_find? _ _
  have addrLookup : matchAddr rules.tables.addrRules caller
      = ((rules.tables.addrRule? caller).map AddrRule.node).getD (-1) :=
    matchAddr_eq_find? _ _
  have addrValid : ∀ other, rules.tables.addrRule? caller = some other → ValidNode other.node :=
    fun other found => valid.addr other (List.mem_of_find?_eq_some found)
  rw [resolveNode_node place used locals caller sz active, sizeLookup, addrLookup, intendedNode]
  cases size : rules.tables.sizeRule? sz with
  | some rule =>
      rw [localRulesHarmless_of_size size]
      rcases valid.size rule (List.mem_of_find?_eq_some size) with named | isLocal
      · have notLocal : rule.node ≠ -2 := by omega
        simp [named, notLocal, placement]
      · cases addr : rules.tables.addrRule? caller with
        | none =>
            simp [isLocal, placement]
            omega
        | some other =>
            rcases addrValid other addr with named | alsoLocal
            · simp [isLocal, placement, named]
            · simp [isLocal, placement, alsoLocal]
              omega
  | none =>
      rw [localRulesHarmless_of_no_size size]
      cases addr : rules.tables.addrRule? caller with
      | none => simp
      | some other =>
          rcases addrValid other addr with named | isLocal
          · have notLocal : other.node ≠ -2 := by omega
            simp [named, notLocal, placement]
          · simp [isLocal, placement]
            omega

/-- Loaded rules with routing active, for the concrete cases below. -/
def RuleState.ofTables (tables : RuleTables) : RuleState where
  tables := tables
  rulesLoaded := true
  layer2Active := true
  loaded_of_active := fun _ => rfl

theorem resolveNode_intended_numbered
    : (resolveNode ⟨0, fun _ => 0⟩ (.ofTables { sizeRules := [⟨4096, 0, 1⟩] }) false
          { homeNode := 0 } 0 8192).node
        = intendedNode { sizeRules := [⟨4096, 0, 1⟩] } 0 0 8192 :=
  (resolveNode_intended_iff ⟨0, fun _ => 0⟩ false 0 8192 rfl
    ⟨by simp [RuleState.ofTables, ValidNode], by simp [RuleState.ofTables]⟩ (by decide)).mpr
    ⟨by simp [RuleState.ofTables, RuleTables.sizeRule?, SizeRule.covers],
      by simp [RuleState.ofTables, RuleTables.addrRule?]⟩

/-- A size rule marked `local` for a thread at home on node 1 routes nothing. -/
theorem resolveNode_local_skipped
    : ¬ (resolveNode ⟨0, fun _ => 0⟩ (.ofTables { sizeRules := [⟨4096, 0, -2⟩] }) false
          { homeNode := 1 } 0 8192).node
        = intendedNode { sizeRules := [⟨4096, 0, -2⟩] } 1 0 8192 := by
  decide

end Kumf.Interc
