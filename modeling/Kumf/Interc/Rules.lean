import Kumf.Library.CText

/-! The rule tables of interc and `load_rules`. The configuration file is read through one
512-byte line buffer; the first form that a line matches decides the table it goes to.
-/

namespace Kumf.Interc

open Kumf.Library

def maxAddrRules : Nat := 8192
def maxNameRules : Nat := 256
def lineSize : Nat := 512

/-- `struct addr_rule`; `stop` is its field `end`. -/
structure AddrRule where
  start : Nat
  stop : Nat
  node : Int
  deriving DecidableEq, Repr

structure NameRule where
  pattern : List Char
  node : Int
  deriving DecidableEq, Repr

/-- `struct size_rule`: a bound of 0 leaves that side of the interval open. -/
structure SizeRule where
  minSize : Nat
  maxSize : Nat
  node : Int
  deriving DecidableEq, Repr

/-- The three static tables; the counters `num_*_rules` are the lengths. -/
structure RuleTables where
  addrRules : List AddrRule := []
  nameRules : List NameRule := []
  sizeRules : List SizeRule := []
  deriving DecidableEq, Repr

def AddrRule.contains (rule : AddrRule) (addr : Nat) : Bool :=
  rule.start ≤ addr && addr < rule.stop

def SizeRule.covers (rule : SizeRule) (sz : Nat) : Bool :=
  (rule.minSize == 0 || rule.minSize ≤ sz) && (rule.maxSize == 0 || sz < rule.maxSize)

theorem AddrRule.contains_iff {rule : AddrRule} {addr : Nat}
    : rule.contains addr = true ↔ rule.start ≤ addr ∧ addr < rule.stop := by
  simp [contains]

theorem SizeRule.covers_iff {rule : SizeRule} {sz : Nat}
    : rule.covers sz = true
      ↔ (rule.minSize = 0 ∨ rule.minSize ≤ sz)
        ∧ (rule.maxSize = 0 ∨ sz < rule.maxSize) := by
  simp [covers]

/-- `match_addr`: the node of the first range that contains the caller, else -1. -/
def matchAddr : List AddrRule → Nat → Int
  | [], _ => -1
  | rule :: rules, addr => if rule.contains addr then rule.node else matchAddr rules addr

/-- `match_size`: the node of the first interval that covers the size, else -1. -/
def matchSize : List SizeRule → Nat → Int
  | [], _ => -1
  | rule :: rules, sz => if rule.covers sz then rule.node else matchSize rules sz

/-- The node column of a rule: `local` is stored as -2. -/
def nodeOf (nodeStr : List Char) : Int :=
  if nodeStr = "local".toList then -2 else atoi nodeStr

/-- `"0x%lx-0x%lx = %31s"` -/
def addrFormat : List Directive :=
  [.lit '0', .lit 'x', .unsigned 16, .lit '-', .lit '0', .lit 'x', .unsigned 16,
    .blank, .lit '=', .blank, .word 31]

/-- `"%zu = %31s"` -/
def thresholdFormat : List Directive :=
  [.unsigned 10, .blank, .lit '=', .blank, .word 31]

/-- `"%zu-%zu = %31s"` -/
def rangeFormat : List Directive :=
  [.unsigned 10, .lit '-', .unsigned 10, .blank, .lit '=', .blank, .word 31]

/-- `"%255s = %31s"` -/
def nameFormat : List Directive :=
  [.word 255, .blank, .lit '=', .blank, .word 31]

def RuleTables.addSizeRule (tables : RuleTables) (minSize maxSize : Nat)
    (nodeStr : List Char)
    : RuleTables :=
  if tables.sizeRules.length < maxNameRules then
    { tables with sizeRules := tables.sizeRules ++ [⟨minSize, maxSize, nodeOf nodeStr⟩] }
  else
    tables

/-- The branches of `load_rules` behind the address form, in source order. Both threshold
branches compare nine characters with an eight-character prefix.
-/
def loadOtherForm (tables : RuleTables) (line : List Char) : RuleTables :=
  if strncmpEq line "size_gt:".toList 9 then
    match sscanf thresholdFormat (cString (line.drop 9)) with
    | [.num threshold, .str nodeStr] => tables.addSizeRule threshold 0 nodeStr
    | _ => tables
  else if strncmpEq line "size_lt:".toList 9 then
    match sscanf thresholdFormat (cString (line.drop 9)) with
    | [.num threshold, .str nodeStr] => tables.addSizeRule 0 threshold nodeStr
    | _ => tables
  else if strncmpEq line "size_range:".toList 11 then
    match sscanf rangeFormat (cString (line.drop 11)) with
    | [.num minS, .num maxS, .str nodeStr] => tables.addSizeRule minS maxS nodeStr
    | _ => tables
  else
    match sscanf nameFormat (cString line) with
    | [.str pat, .str nodeStr] =>
        if tables.nameRules.length < maxNameRules then
          { tables with nameRules := tables.nameRules ++ [⟨pat, nodeOf nodeStr⟩] }
        else
          tables
    | _ => tables

/-- One turn of the loop of `load_rules` on the line buffer. A full address table sends
an address line on to the other forms, as the conjunction in the source does.
-/
def loadLine (tables : RuleTables) (line : List Char) : RuleTables :=
  if line.head? = some '#' ∨ line.head? = some '\n' then
    tables
  else
    match sscanf addrFormat (cString line) with
    | [.num start, .num stop, .str nodeStr] =>
        if tables.addrRules.length < maxAddrRules then
          { tables with addrRules := tables.addrRules ++ [⟨start, stop, nodeOf nodeStr⟩] }
        else
          loadOtherForm tables line
    | _ => loadOtherForm tables line

/-- `fgets` into the shared buffer, then one turn of the loop. -/
def loadChunk (state : List Char × RuleTables) (chunk : List Char)
    : List Char × RuleTables :=
  let line := fgetsStore state.1 chunk
  (line, loadLine state.2 line)

/-- The loop of `load_rules` over a whole file; `stale` is the uninitialised buffer. -/
def loadText (stale : List Char) (tables : RuleTables) (text : List Char) : RuleTables :=
  ((fgetsAll lineSize text).foldl loadChunk (stale, tables)).2

/-- The rule statics. `layer2_active` is only ever set by a finished `load_rules`. -/
structure RuleState where
  tables : RuleTables := {}
  rulesLoaded : Bool := false
  layer2Active : Bool := false
  loaded_of_active : layer2Active = true → rulesLoaded = true

/-- The rule statics before the library constructor runs. -/
def RuleState.initial : RuleState where
  loaded_of_active := fun active => active

/-- `load_rules`; `conf` is the content of the file that `fopen` opens, if it can. -/
def loadRules (stale : List Char) (conf : Option (List Char)) (state : RuleState)
    : RuleState :=
  if state.rulesLoaded then
    state
  else
    match conf with
    | none =>
        { tables := state.tables
          rulesLoaded := true
          layer2Active := false
          loaded_of_active := fun _ => rfl }
    | some text =>
        let tables := loadText stale state.tables text
        { tables
          rulesLoaded := true
          layer2Active :=
            0 < tables.addrRules.length + tables.sizeRules.length + tables.nameRules.length
          loaded_of_active := fun _ => rfl }

/-- An allocation that finds routing active finds the rules loaded: `load_rules` there
changes nothing.
-/
theorem loadRules_of_active {state : RuleState} (stale : List Char)
    (conf : Option (List Char)) (active : state.layer2Active = true)
    : loadRules stale conf state = state := by
  simp [loadRules, state.loaded_of_active active]

theorem matchAddr_eq_find? (rules : List AddrRule) (addr : Nat)
    : matchAddr rules addr
      = ((rules.find? (fun rule => rule.contains addr)).map AddrRule.node).getD (-1) := by
  induction rules with
  | nil => rfl
  | cons rule rules ih =>
      simp only [matchAddr, List.find?_cons]
      cases rule.contains addr <;> simp [ih]

theorem matchSize_eq_find? (rules : List SizeRule) (sz : Nat)
    : matchSize rules sz
      = ((rules.find? (fun rule => rule.covers sz)).map SizeRule.node).getD (-1) := by
  induction rules with
  | nil => rfl
  | cons rule rules ih =>
      simp only [matchSize, List.find?_cons]
      cases rule.covers sz <;> simp [ih]

theorem loadLine_comment {line : List Char} (tables : RuleTables)
    (comment : line.head? = some '#')
    : loadLine tables line = tables := by
  simp [loadLine, comment]

theorem loadLine_empty {line : List Char} (tables : RuleTables)
    (empty : line.head? = some '\n')
    : loadLine tables line = tables := by
  simp [loadLine, empty]

theorem RuleTables.addSizeRule_of_room {tables : RuleTables} {minSize maxSize : Nat}
    {nodeStr : List Char} (room : tables.sizeRules.length < maxNameRules)
    : (tables.addSizeRule minSize maxSize nodeStr).sizeRules
      = tables.sizeRules ++ [⟨minSize, maxSize, nodeOf nodeStr⟩] := by
  simp [addSizeRule, room]

end Kumf.Interc
