import Kumf.Library.PyLines

/-! `detect_numa_topology`: the scan of the text of `numactl -H`, and the grouping of the nodes
into sockets.
-/

namespace Kumf.Daemon

open Kumf.Library PyText

/-- An entry of `topology["nodes"]`. -/
structure NumaNode where
  id : Int
  memMb : Int
  deriving DecidableEq, Repr

/-- The dictionary that `detect_numa_topology` returns. -/
structure NumaTopology where
  nodes : List NumaNode := []
  distances : List (List Int) := []
  sockets : List (List Nat) := []
  recommendedNodes : List Int := []
  recommendedPolicy : List Char := "preferred".toList
  recommendedSpread : List Char := "compact".toList
  deriving DecidableEq, Repr

-----------------------------------------------------------------------------------------
-- The scan
-----------------------------------------------------------------------------------------

/-- The branch for a size line; `none` is an exception. -/
def readSizeLine (line : List Char) : Option NumaNode := do
  let parts := splitBlanks line
  let nodeId ← parseInt 10 (← parts[1]?)
  let memMb ← parseInt 10 (← parts[3]?)
  some ⟨nodeId, memMb⟩

/-- The loop over the rows of the matrix. The flag tells whether it ends without an
exception.
-/
def readRows : List (List Char) → List (List Int) → List (List Int) × Bool
  | [], distances => (distances, true)
  | line :: rest, distances =>
      if startsWith line "node ".toList then
        match line.splitOn ':' with
        | [_, row] =>
            match (splitBlanks row).mapM (parseInt 10) with
            | some row => readRows rest (distances ++ [row])
            | none => (distances, false)
        | _ => readRows rest distances
      else
        (distances, true)

/-- The lines behind the first one equal to `line`: those from `lines.index(line) + 1`. -/
def behind (lines : List (List Char)) (line : List Char) : List (List Char) :=
  (lines.dropWhile (· ≠ line)).drop 1

/-- The loop over the lines, which an exception ends. -/
def scanLines (lines : List (List Char)) : List (List Char) → NumaTopology → NumaTopology
  | [], topology => topology
  | line :: rest, topology =>
      if startsWith line "node ".toList && contains line "size".toList then
        match readSizeLine line with
        | some node => scanLines lines rest { topology with nodes := topology.nodes ++ [node] }
        | none => topology
      else if startsWith line "node distances:".toList then
        let (distances, fine) := readRows (behind lines line) topology.distances
        let topology := { topology with distances }
        if fine then scanLines lines rest topology else topology
      else
        scanLines lines rest topology

-----------------------------------------------------------------------------------------
-- The sockets
-----------------------------------------------------------------------------------------

/-- `topology["distances"][i][j]`; `none` is an `IndexError`. -/
def distanceAt (distances : List (List Int)) (i j : Nat) : Option Int :=
  distances[i]? >>= (·[j]?)

/-- The inner loop over `j`, on `socket_nodes` and `visited`. -/
def joinSocket (distances : List (List Int)) (i : Nat)
    : List Nat → List Nat × List Nat → Option (List Nat × List Nat)
  | [], state => some state
  | j :: rest, (socketNodes, visited) =>
      if j ∈ visited then
        joinSocket distances i rest (socketNodes, visited)
      else
        match distanceAt distances i j with
        | none => none
        | some d =>
            if d ≤ 20 then
              joinSocket distances i rest (socketNodes ++ [j], visited ++ [j])
            else
              joinSocket distances i rest (socketNodes, visited)

/-- The outer loop over `i`. -/
def groupFrom (distances : List (List Int)) (n : Nat)
    : List Nat → List Nat → List (List Nat) → Option (List (List Nat))
  | [], _, sockets => some sockets
  | i :: rest, visited, sockets =>
      if i ∈ visited then
        groupFrom distances n rest visited sockets
      else
        match joinSocket distances i (List.range' (i + 1) (n - (i + 1))) ([i], visited ++ [i]) with
        | none => none
        | some (socketNodes, visited) =>
            groupFrom distances n rest visited (sockets ++ [socketNodes])

/-- The grouping of `n` nodes; `none` is an `IndexError`. -/
def groupSockets (n : Nat) (distances : List (List Int)) : Option (List (List Nat)) :=
  groupFrom distances n (List.range n) [] []

/-- `detect_numa_topology`; `stdout` is what `numactl -H` prints, if it can be run. The
grouping stands behind the handler, so an exception there is not caught.
-/
def detectNumaTopology (stdout : Option (List Char)) : Option NumaTopology :=
  let topology :=
    match stdout with
    | none => {}
    | some text =>
        let lines := (strip text).splitOn '\n'
        scanLines lines lines {}
  if topology.distances = [] then
    some topology
  else
    match groupSockets topology.nodes.length topology.distances with
    | none => none
    | some sockets =>
        some { topology with
          sockets
          recommendedNodes := topology.nodes.map NumaNode.id
          recommendedPolicy := "preferred".toList
          recommendedSpread := "auto".toList }

end Kumf.Daemon
