import Kumf.Daemon.NumaTopology
import Kumf.Interc.Affinity

/-! The daemon's sockets against interc's mode: both look at one distance matrix, the daemon at
the distances from node 0, interc at the ratio of the largest distance to the smallest.
-/

namespace Kumf.Daemon

open Kumf.Library Kumf.Interc

/-- The matrix as the lists of lists that the scan collects. -/
def matrixRows (n : Nat) (distance : Nat → Nat → Int) : List (List Int) :=
  (List.range n).map (fun i => (List.range n).map (distance i))

theorem distanceAt_matrixRows {n i j : Nat} {distance : Nat → Nat → Int} (row : i < n)
    (column : j < n)
    : distanceAt (matrixRows n distance) i j = some (distance i j) := by
  simp [distanceAt, matrixRows, row, column]

-----------------------------------------------------------------------------------------
-- The grouping of a whole matrix
-----------------------------------------------------------------------------------------

section
variable {n : Nat} {distance : Nat → Nat → Int}

/-- A socket takes in the unvisited nodes at a distance of at most 20. -/
theorem joinSocket_matrix {i : Nat} (row : i < n) {js : List Nat} (columns : ∀ j ∈ js, j < n)
    (distinct : js.Nodup) (socketNodes visited : List Nat)
    : joinSocket (matrixRows n distance) i js (socketNodes, visited)
      = some (socketNodes ++ js.filter (fun j => j ∉ visited ∧ distance i j ≤ 20),
          visited ++ js.filter (fun j => j ∉ visited ∧ distance i j ≤ 20)) := by
  induction js generalizing socketNodes visited with
  | nil => simp [joinSocket]
  | cons j rest ih =>
      obtain ⟨outside, restDistinct⟩ := List.nodup_cons.mp distinct
      have restColumns : ∀ k ∈ rest, k < n := fun k member =>
        columns k (List.mem_cons_of_mem j member)
      have column := columns j List.mem_cons_self
      rw [joinSocket]
      split
      case isTrue seen =>
          rw [ih restColumns restDistinct, List.filter_cons_of_neg (by simp [seen])]
      case isFalse unseen =>
          rw [distanceAt_matrixRows row column]
          dsimp only
          split
          case isTrue near =>
              have same : rest.filter (fun k => k ∉ visited ++ [j] ∧ distance i k ≤ 20)
                  = rest.filter (fun k => k ∉ visited ∧ distance i k ≤ 20) := by
                refine List.filter_congr (fun k member => ?_)
                have apart : k ≠ j := fun equal => outside (equal ▸ member)
                simp [apart]
              rw [ih restColumns restDistinct, same,
                List.filter_cons_of_pos (by simp [unseen, near])]
              simp
          case isFalse far =>
              rw [ih restColumns restDistinct, List.filter_cons_of_neg (by simp [far])]

/-- The outer loop adds a socket exactly when it meets an unvisited node. -/
theorem groupFrom_matrix {is : List Nat} (rows : ∀ i ∈ is, i < n) (visited : List Nat)
    (sockets : List (List Nat))
    : ∃ more,
        groupFrom (matrixRows n distance) n is visited sockets = some (sockets ++ more)
        ∧ (more = [] ↔ ∀ i ∈ is, i ∈ visited) := by
  induction is generalizing visited sockets with
  | nil => exact ⟨[], by simp [groupFrom], by simp⟩
  | cons i rest ih =>
      have restRows : ∀ k ∈ rest, k < n :=
        fun k member => rows k (List.mem_cons_of_mem i member)
      rw [groupFrom]
      split
      case isTrue seen =>
          obtain ⟨more, grouped, empty⟩ := ih restRows visited sockets
          exact ⟨more, grouped, by simp [empty, seen]⟩
      case isFalse unseen =>
          have columns : ∀ j ∈ List.range' (i + 1) (n - (i + 1)), j < n := by
            intro j member
            have range := List.mem_range'_1.mp member
            omega
          obtain ⟨socketNodes, after, joined⟩ : ∃ socketNodes after,
              joinSocket (matrixRows n distance) i (List.range' (i + 1) (n - (i + 1)))
                ([i], visited ++ [i]) = some (socketNodes, after) :=
            ⟨_, _, joinSocket_matrix (rows i List.mem_cons_self) columns List.nodup_range' _ _⟩
          rw [joined]
          obtain ⟨more, grouped, _⟩ := ih restRows after (sockets ++ [socketNodes])
          refine ⟨socketNodes :: more, grouped.trans ?_, by simp [unseen]⟩
          rw [List.append_assoc, List.singleton_append]

/-- A matrix with a second row has a second socket exactly when some node is more than 20
away from node 0.
-/
theorem groupSockets_matrix (two : 2 ≤ n)
    : ∃ sockets,
        groupSockets n (matrixRows n distance) = some sockets
        ∧ (2 ≤ sockets.length ↔ ∃ j, 0 < j ∧ j < n ∧ 20 < distance 0 j) := by
  obtain ⟨m, rfl⟩ := Nat.exists_eq_add_of_le' (Nat.one_le_of_lt two)
  have indices : List.range (m + 1) = 0 :: List.range' 1 m := by
    rw [List.range_eq_range', List.range'_succ]
  have inside : ∀ j, j ∈ List.range' 1 m ↔ 0 < j ∧ j < m + 1 := by
    intro j
    rw [List.mem_range'_1]
    omega
  have columns : ∀ j ∈ List.range' (0 + 1) (m + 1 - (0 + 1)), j < m + 1 := by
    intro j member
    exact ((inside j).mp member).2
  have first : joinSocket (matrixRows (m + 1) distance) _ _ _ = _ :=
    joinSocket_matrix (Nat.succ_pos m) columns List.nodup_range' [0] ([] ++ [0])
  generalize near : (List.range' (0 + 1) (m + 1 - (0 + 1))).filter
    (fun j => j ∉ [] ++ [0] ∧ distance 0 j ≤ 20) = taken at first
  obtain ⟨more, grouped, empty⟩ : ∃ more,
      groupFrom (matrixRows (m + 1) distance) _ _ _ _ = some ([[0] ++ taken] ++ more) ∧ _ :=
    groupFrom_matrix (fun j member => ((inside j).mp member).2) ([] ++ [0] ++ taken) _
  refine ⟨[[0] ++ taken] ++ more, ?_, ?_⟩
  · rw [groupSockets, indices, groupFrom, if_neg List.not_mem_nil, first]
    exact grouped
  · have second : 2 ≤ ([[0] ++ taken] ++ more).length ↔ more ≠ [] := by
      rw [← List.length_pos_iff, List.length_append, List.length_singleton]
      omega
    have seen : ∀ j, j ∈ [] ++ [0] ++ taken
        ↔ j = 0 ∨ 0 < j ∧ j < m + 1 ∧ distance 0 j ≤ 20 := by
      intro j
      rw [← near]
      simp [inside]
      omega
    rw [second, ne_eq, empty]
    constructor
    · intro unseen
      by_contra none
      refine unseen (fun j member => (seen j).mpr (.inr ?_))
      obtain ⟨positive, column⟩ := (inside j).mp member
      refine ⟨positive, column, not_lt.mp (fun far => ?_)⟩
      exact none ⟨j, positive, column, far⟩
    · rintro ⟨j, positive, column, far⟩ all
      rcases (seen j).mp (all j ((inside j).mpr ⟨positive, column⟩))
        with zero | ⟨_, _, near⟩
      · omega
      · omega

end

-----------------------------------------------------------------------------------------
-- The same matrix through libnuma
-----------------------------------------------------------------------------------------

/-- A distance matrix as firmware gives it: symmetric, 10 on the diagonal and a larger `int`
elsewhere.
-/
structure DistanceMatrix (n : Nat) where
  distance : Nat → Nat → Int
  symm : ∀ i < n, ∀ j < n, distance i j = distance j i
  diagonal : ∀ i < n, distance i i = 10
  above : ∀ i < n, ∀ j < n, i ≠ j → 10 < distance i j
  int : ∀ i < n, ∀ j < n, distance i j < 2 ^ 31

namespace DistanceMatrix

variable {n : Nat} (matrix : DistanceMatrix n)

/-- `numa_distance` -/
def numaDistance (a b : Int) : Int := matrix.distance a.toNat b.toNat

/-- The list of all nodes. -/
def nodes (n : Nat) : List Int := (List.range n).map Int.ofNat

/-- Two distances, one more than twice the other, or only distances that overflow when
doubled: what `is_cross_socket` finds.
-/
def Stretched : Prop :=
  (∃ i < n, ∃ j < n, i ≠ j
    ∧ ∃ k < n, ∃ l < n, k ≠ l ∧ 2 * matrix.distance k l < matrix.distance i j)
  ∨ ∀ i < n, ∀ j < n, i ≠ j → 2 ^ 30 ≤ matrix.distance i j

/-- A node more than 20 away from node 0: what the daemon's grouping finds. -/
def FarFromFirst : Prop := ∃ j, 0 < j ∧ j < n ∧ 20 < matrix.distance 0 j

theorem mem_nodes {a : Int} : a ∈ nodes n ↔ ∃ i < n, a = (i : Int) := by
  simp [nodes, eq_comm]

theorem mem_distances {d : Int}
    : d ∈ pairDistances matrix.numaDistance (nodes n)
      ↔ ∃ i < n, ∃ j < n, i ≠ j ∧ matrix.distance i j = d := by
  have distinct : (nodes n).Nodup :=
    List.nodup_range.map (fun _ _ same => Int.ofNat.inj same)
  have symm
      : ∀ a ∈ nodes n, ∀ b ∈ nodes n, matrix.numaDistance a b = matrix.numaDistance b a := by
    intro a inNodes b alsoIn
    obtain ⟨i, row, rfl⟩ := mem_nodes.mp inNodes
    obtain ⟨j, column, rfl⟩ := mem_nodes.mp alsoIn
    exact matrix.symm i row j column
  rw [mem_pairDistances distinct symm]
  constructor
  · rintro ⟨a, inNodes, b, alsoIn, apart, same⟩
    obtain ⟨i, row, rfl⟩ := mem_nodes.mp inNodes
    obtain ⟨j, column, rfl⟩ := mem_nodes.mp alsoIn
    exact ⟨i, row, j, column, fun equal => apart (congrArg _ equal), same⟩
  · rintro ⟨i, row, j, column, apart, same⟩
    exact ⟨i, mem_nodes.mpr ⟨i, row, rfl⟩, j, mem_nodes.mpr ⟨j, column, rfl⟩,
      fun equal => apart (Int.ofNat.inj equal), same⟩

/-- All distances between different nodes are known to libnuma. -/
theorem isCrossSocket_iff (two : 2 ≤ n)
    : isCrossSocket matrix.numaDistance (nodes n) = true ↔ matrix.Stretched := by
  have known : ∀ d ∈ pairDistances matrix.numaDistance (nodes n), 0 < d ∧ d < 2 ^ 31 := by
    intro d member
    obtain ⟨i, row, j, column, apart, rfl⟩ := matrix.mem_distances.mp member
    have above := matrix.above i row j column apart
    exact ⟨by omega, matrix.int i row j column⟩
  have nonempty : pairDistances matrix.numaDistance (nodes n) ≠ [] := by
    refine List.ne_nil_of_mem (matrix.mem_distances.mpr ⟨0, by omega, 1, by omega, ?_, rfl⟩)
    exact Nat.zero_ne_one
  have several : ¬ (nodes n).length ≤ 1 := by
    rw [nodes, List.length_map, List.length_range]
    omega
  rw [isCrossSocket, if_neg several]
  dsimp only
  rw [decide_eq_true_eq, scanDistance_far_iff nonempty known]
  constructor
  · rintro (⟨far, farMember, near, nearMember, wide⟩ | large)
    · obtain ⟨i, row, j, column, apart, rfl⟩ := matrix.mem_distances.mp farMember
      obtain ⟨k, nearRow, l, nearColumn, nearApart, rfl⟩ := matrix.mem_distances.mp nearMember
      exact .inl ⟨i, row, j, column, apart, k, nearRow, l, nearColumn, nearApart, wide⟩
    · refine .inr (fun i row j column apart => large _ ?_)
      exact matrix.mem_distances.mpr ⟨i, row, j, column, apart, rfl⟩
  · rintro (⟨i, row, j, column, apart, k, nearRow, l, nearColumn, nearApart, wide⟩ | large)
    · exact .inl ⟨_, matrix.mem_distances.mpr ⟨i, row, j, column, apart, rfl⟩,
        _, matrix.mem_distances.mpr ⟨k, nearRow, l, nearColumn, nearApart, rfl⟩, wide⟩
    · refine .inr (fun d member => ?_)
      obtain ⟨i, row, j, column, apart, rfl⟩ := matrix.mem_distances.mp member
      exact large i row j column apart

/-- interc sees more than one socket where the daemon does exactly when the matrix is
stretched and has a node far from the first, or is neither. Witness: each side's own
criterion.
-/
theorem isCrossSocket_sockets_iff (two : 2 ≤ n)
    : (∃ sockets,
        groupSockets n (matrixRows n matrix.distance) = some sockets
        ∧ (isCrossSocket matrix.numaDistance (nodes n) = true ↔ 2 ≤ sockets.length))
      ↔ (matrix.Stretched ↔ matrix.FarFromFirst) := by
  obtain ⟨sockets, grouped, second⟩ : ∃ sockets,
      groupSockets n (matrixRows n matrix.distance) = some sockets ∧ _ :=
    groupSockets_matrix two
  rw [matrix.isCrossSocket_iff two, grouped]
  constructor
  · rintro ⟨_, ⟨⟩, agree⟩
    exact agree.trans second
  · intro agree
    exact ⟨sockets, rfl, agree.trans second.symm⟩

/-- Two nodes at one distance from each other. -/
def twoNodes (d : Int) (above : 10 < d) (int : d < 2 ^ 31) : DistanceMatrix 2 where
  distance := fun i j => if i = j then 10 else d
  symm := fun i _ j _ => by simp [eq_comm]
  diagonal := fun i _ => if_pos rfl
  above := fun i _ j _ apart => by simpa [apart] using above
  int := fun i _ j _ => by
    split
    · decide
    · exact int

/-- Two nodes of one socket are one socket on both sides. -/
theorem isCrossSocket_sockets_iff_near
    : (∃ sockets,
        groupSockets 2 (matrixRows 2 (twoNodes 12 (by decide) (by decide)).distance) = some sockets
        ∧ (isCrossSocket (twoNodes 12 (by decide) (by decide)).numaDistance (nodes 2) = true
          ↔ 2 ≤ sockets.length))
      ↔ ((twoNodes 12 (by decide) (by decide)).Stretched
        ↔ (twoNodes 12 (by decide) (by decide)).FarFromFirst) :=
  isCrossSocket_sockets_iff (twoNodes 12 (by decide) (by decide)) (le_refl 2)

/-- Two nodes of two sockets are told apart by the daemon and not by interc: with one pair
of nodes the largest distance is the smallest.
-/
theorem twoNodes_disagree
    : groupSockets 2 (matrixRows 2 (twoNodes 32 (by decide) (by decide)).distance)
        = some [[0], [1]]
      ∧ isCrossSocket (twoNodes 32 (by decide) (by decide)).numaDistance (nodes 2) = false
      ∧ ¬ ∃ sockets,
          groupSockets 2 (matrixRows 2 (twoNodes 32 (by decide) (by decide)).distance)
            = some sockets
          ∧ (isCrossSocket (twoNodes 32 (by decide) (by decide)).numaDistance (nodes 2) = true
            ↔ 2 ≤ sockets.length) := by
  have grouped : groupSockets 2 (matrixRows 2 (twoNodes 32 (by decide) (by decide)).distance)
      = some [[0], [1]] := by
    decide
  have single
      : isCrossSocket (twoNodes 32 (by decide) (by decide)).numaDistance (nodes 2) = false := by
    decide
  refine ⟨grouped, single, ?_⟩
  rintro ⟨sockets, found, agree⟩
  rw [grouped] at found
  cases found
  rw [single] at agree
  exact Bool.false_ne_true (agree.mpr (le_refl 2))

end DistanceMatrix

end Kumf.Daemon
