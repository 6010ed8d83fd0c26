import Kumf.PacToInterc.Allocations
import Mathlib.Data.List.Sort

/-! `generate_interc_conf_alloc_based`: the configuration that routes the sizes of hot
allocations, as the lines that the generator writes.
-/

namespace Kumf.PacToInterc

open Kumf.Library PyText

/-- A node argument of the generators: an id, or `'local'` for the home node. -/
inductive Node where
  | id (n : Int)
  | home
  deriving DecidableEq, Repr

def Node.text : Node → List Char
  | .id n => str n
  | .home => "local".toList

/-- The time that `datetime.now()` gives. -/
structure Stamp where
  year : Nat
  month : Nat
  day : Nat
  hour : Nat
  minute : Nat
  second : Nat

/-- `strftime('%Y-%m-%d %H:%M:%S')` -/
def Stamp.text (stamp : Stamp) : List Char :=
  padded 4 stamp.year ++ "-".toList ++ padded 2 stamp.month ++ "-".toList ++ padded 2 stamp.day
    ++ " ".toList ++ padded 2 stamp.hour ++ ":".toList ++ padded 2 stamp.minute ++ ":".toList
    ++ padded 2 stamp.second

variable {F : Type} [PyFloat F]

/-- `f"{n/1024/1024:.0f}"` -/
def megabytes (F : Type) [PyFloat F] (n : Nat) : List Char :=
  PyFloat.format0 (PyFloat.divide (PyFloat.quotient n 1024) 1024 : F)

def sizesOf (tier : Tier) (allocPac : List (AllocPac F)) : List Nat :=
  (allocPac.filter (fun a => a.tier = tier)).map AllocPac.size

def hotSizes (allocPac : List (AllocPac F)) : List Nat := sizesOf .hot allocPac

def coldSizes (allocPac : List (AllocPac F)) : List Nat := sizesOf .cold allocPac

/-- The entry of a caller in `by_caller`. -/
structure CallerInfo (F : Type) where
  sizes : List Nat
  avgPac : F
  count : Nat

def CallerInfo.empty : CallerInfo F := ⟨[], PyFloat.ofNat 0, 0⟩

def CallerInfo.add (info : CallerInfo F) (a : AllocPac F) : CallerInfo F where
  sizes := info.sizes ++ [a.size]
  avgPac := PyFloat.add info.avgPac a.avgPac
  count := info.count + 1

/-- `by_caller` -/
def byCaller (allocPac : List (AllocPac F)) : Dict (List Char) (CallerInfo F) :=
  Dict.collect CallerInfo.add CallerInfo.empty .empty (allocPac.map (fun a => (a.callerSym, a)))

/-- `sorted(by_caller.items(), key=lambda x: -x[1]['avg_pac'])`, a stable sort by `<`. -/
def sortedCallers (allocPac : List (AllocPac F)) : List (List Char × CallerInfo F) :=
  (byCaller allocPac).entries.insertionSort
    (fun x y => PyFloat.less (PyFloat.neg y.2.avgPac) (PyFloat.neg x.2.avgPac) = false)

/-- The line for a caller. -/
def callerLine (caller : List Char) (info : CallerInfo F) : List Char :=
  let avg : F :=
    if info.count ≠ 0 then PyFloat.divide info.avgPac info.count else PyFloat.ofNat 0
  let sz := info.sizes.max?.getD 0
  "#   ".toList ++ caller ++ ": avg_PAC=".toList ++ PyFloat.format0 avg ++ " size~".toList
    ++ megabytes F sz ++ "MB x".toList ++ str info.count

/-- The lines in front of the rule. -/
def headLines (allocPac : List (AllocPac F)) (fastNode slowNode : Node) (now : Stamp)
    : List (List Char) :=
  ["# KUMF interc configuration (size-based, cross-correlated from PAC + prof)".toList,
    "# Generated: ".toList ++ now.text,
    "# Fast node: ".toList ++ fastNode.text ++ " | Slow node: ".toList ++ slowNode.text,
    "# Alloc rules: ".toList ++ str allocPac.length ++ " prof allocations, ".toList
      ++ str (hotSizes allocPac).length ++ " hot, ".toList ++ str (coldSizes allocPac).length
      ++ " cold".toList,
    []]

/-- The one rule: all sizes from the smallest hot one up to the largest. -/
def rangeLine (hotMin hotMax : Nat) (fastNode : Node) : List Char :=
  "size_range:".toList ++ str hotMin ++ "-".toList ++ str hotMax ++ " = ".toList
    ++ fastNode.text ++ "  # HOT data -> fast node".toList

def hotLines (F : Type) [PyFloat F] (sizes : List Nat) (fastNode : Node) : List (List Char) :=
  if sizes = [] then
    []
  else
    let hotMin := sizes.min?.getD 0
    let hotMax := sizes.max?.getD 0
    ["# HOT allocations (".toList ++ str sizes.length ++ "): ".toList ++ megabytes F hotMin
        ++ "-".toList ++ megabytes F hotMax ++ " MB".toList,
      rangeLine hotMin hotMax fastNode]

def coldLines (F : Type) [PyFloat F] (sizes : List Nat) : List (List Char) :=
  if sizes = [] then
    []
  else
    let coldMin := sizes.min?.getD 0
    let coldMax := sizes.max?.getD 0
    [[],
      "# COLD allocations (".toList ++ str sizes.length ++ "): ".toList ++ megabytes F coldMin
        ++ "-".toList ++ megabytes F coldMax ++ " MB, ".toList ++ megabytes F sizes.sum
        ++ " MB total".toList,
      "# SKIPPED: cold data stays local via L1 thread affinity (NO routing rule)".toList,
      "# Routing cold data to a fixed node would break per-thread locality".toList]

def idleLines (hot cold : List Nat) : List (List Char) :=
  if hot = [] ∧ cold = [] then ["# No actionable hot/cold allocations found".toList] else []

def detailLines (allocPac : List (AllocPac F)) : List (List Char) :=
  [] :: "# Per-caller details:".toList
    :: (sortedCallers allocPac).map (fun (caller, info) => callerLine caller info)

/-- The lines of the configuration. -/
def confLines (allocPac : List (AllocPac F)) (fastNode slowNode : Node) (now : Stamp)
    : List (List Char) :=
  headLines allocPac fastNode slowNode now ++ hotLines F (hotSizes allocPac) fastNode
    ++ coldLines F (coldSizes allocPac) ++ idleLines (hotSizes allocPac) (coldSizes allocPac)
    ++ detailLines allocPac

/-- `generate_interc_conf_alloc_based`: the text that it writes to its output file. -/
def generateIntercConfAllocBased (allocPac : List (AllocPac F)) (fastNode slowNode : Node)
    (now : Stamp)
    : List Char :=
  unlines (confLines allocPac fastNode slowNode now)

end Kumf.PacToInterc
