import Kumf.Daemon.SocketModes
import Kumf.Library.Grouping

/-! The sockets of a whole matrix: `detect_numa_topology` compares a node with the first node of
a socket alone, so the sockets always are a partition, and they separate near nodes from far
ones where nearness is transitive.
-/

namespace Kumf.Daemon

open Kumf.Library

/-- The test of the inner loop. -/
def sameSocket (distance : Nat → Nat → Int) (i j : Nat) : Bool := distance i j ≤ 20

section
variable {n : Nat} {distance : Nat → Nat → Int}

/-- The outer loop is the greedy grouping of the nodes that are not visited. -/
theorem groupFrom_eq (count : Nat) {i : Nat} (whole : i + count = n) (visited : List Nat)
    (sockets : List (List Nat))
    : groupFrom (matrixRows n distance) n (List.range' i count) visited sockets
      = some (sockets
          ++ groupWhere (sameSocket distance) (fun k => k ∉ visited) (List.range' i count)) := by
  induction count generalizing i visited sockets with
  | zero => simp [groupFrom, groupWhere]
  | succ count ih =>
      have rest : n - (i + 1) = count := by omega
      have columns : ∀ j ∈ List.range' (i + 1) count, j < n := by
        intro j member
        have range := List.mem_range'_1.mp member
        omega
      have others : ∀ j ∈ List.range' (i + 1) count, j ≠ i := by
        intro j member
        have range := List.mem_range'_1.mp member
        omega
      rw [List.range'_succ, groupFrom, groupWhere]
      by_cases seen : i ∈ visited
      · rw [if_pos seen, if_neg (by simpa using seen)]
        exact ih (by omega) visited sockets
      · have inside : i < n := by omega
        have joined := @joinSocket_matrix n distance i inside _ columns List.nodup_range' [i]
          (visited ++ [i])
        rw [if_neg seen, if_pos (by simpa using seen), rest, joined]
        have taken
            : (List.range' (i + 1) count).filter
                (fun j => j ∉ visited ++ [i] ∧ distance i j ≤ 20)
              = (List.range' (i + 1) count).filter
                  (fun j => decide (j ∉ visited) && sameSocket distance i j) := by
          refine List.filter_congr (fun j member => ?_)
          simp [sameSocket, others j member]
        have left : ∀ j ∈ List.range' (i + 1) count,
            decide (j ∉ visited ++ [i] ++ (List.range' (i + 1) count).filter
                (fun j => decide (j ∉ visited) && sameSocket distance i j))
              = (decide (j ∉ visited) && !sameSocket distance i j) := by
          intro j member
          have apart := others j member
          by_cases before : j ∈ visited <;> simp [before, apart, member]
        dsimp only
        rw [taken, ih (by omega), groupWhere_congr _ left, List.append_assoc]
        rfl

theorem groupSockets_eq (n : Nat) (distance : Nat → Nat → Int)
    : groupSockets n (matrixRows n distance)
      = some (groupItems (sameSocket distance) (List.range n)) := by
  rw [groupSockets, List.range_eq_range', groupFrom_eq n (Nat.zero_add n) [] [], groupItems]
  simp

end

/-- The sockets are a partition of the nodes. -/
structure Partitions (n : Nat) (sockets : List (List Nat)) : Prop where
  nonempty : ∀ socket ∈ sockets, socket ≠ []
  cover : sockets.flatten.Perm (List.range n)

/-- Nodes of one socket are at a distance of at most 20, nodes of two sockets above it. -/
structure SocketsByDistance (distance : Nat → Nat → Int) (sockets : List (List Nat))
    : Prop where
  inside
    : ∀ socket ∈ sockets, ∀ i ∈ socket, ∀ j ∈ socket, i ≠ j → distance i j ≤ 20
  outside
    : ∀ socket ∈ sockets,
        ∀ other ∈ sockets, socket ≠ other
          → ∀ i ∈ socket, ∀ j ∈ other, 20 < distance i j

/-- The relation "at most 20 apart" is transitive on the nodes. -/
def NearIsTransitive (n : Nat) (distance : Nat → Nat → Int) : Prop :=
  ∀ i < n, ∀ j < n, ∀ k < n, i ≠ k → distance i j ≤ 20 → distance j k ≤ 20
    → distance i k ≤ 20

theorem separates_iff {distance : Nat → Nat → Int} {sockets : List (List Nat)}
    : Separates (sameSocket distance) sockets ↔ SocketsByDistance distance sockets := by
  have near (i j : Nat) : sameSocket distance i j = true ↔ distance i j ≤ 20 :=
    decide_eq_true_iff
  constructor
  · rintro ⟨inside, outside⟩
    simp only [near, not_le] at inside outside
    exact ⟨inside, outside⟩
  · rintro ⟨inside, outside⟩
    constructor
    · simpa only [near] using inside
    · simpa only [near, not_le] using outside

/-- The sockets are a partition for every matrix. They agree with the distances pair by pair
exactly when being at most 20 apart is transitive.
-/
theorem groupSockets_partition (n : Nat) (distance : Nat → Nat → Int)
    (symm : ∀ i < n, ∀ j < n, distance i j = distance j i)
    : ∃ sockets,
        groupSockets n (matrixRows n distance) = some sockets
        ∧ Partitions n sockets
        ∧ (SocketsByDistance distance sockets ↔ NearIsTransitive n distance) := by
  refine ⟨_, groupSockets_eq n distance, ⟨?_, groupItems_perm _ _⟩, ?_⟩
  · intro socket member
    obtain ⟨first, rest, rfl, _⟩ := groupWhere_led _ _ _ socket member
    exact List.cons_ne_nil first rest
  · have nearSymm : ∀ i ∈ List.range n, ∀ j ∈ List.range n,
        sameSocket distance i j → sameSocket distance j i := by
      intro i row j column near
      unfold sameSocket at near ⊢
      rwa [← symm i (List.mem_range.mp row) j (List.mem_range.mp column)]
    rw [← separates_iff, groupItems_separates_iff List.nodup_range nearSymm]
    simp only [List.mem_range, sameSocket, decide_eq_true_iff]
    rfl

/-- Four nodes in a ring. -/
def ringDistance (i j : Nat) : Int :=
  if i = j then 10 else if (i + j) % 2 = 1 then 16 else 22

theorem groupSockets_partition_ring
    : ∃ sockets,
        groupSockets 4 (matrixRows 4 ringDistance) = some sockets
        ∧ Partitions 4 sockets
        ∧ (SocketsByDistance ringDistance sockets ↔ NearIsTransitive 4 ringDistance) :=
  groupSockets_partition 4 ringDistance (by decide)

/-- Nodes 1 and 3 are in the socket of their neighbour 0, node 2 is left alone. -/
theorem ring_socketsDisagree
    : groupSockets 4 (matrixRows 4 ringDistance) = some [[0, 1, 3], [2]]
      ∧ ringDistance 1 3 = 22
      ∧ ringDistance 1 2 = 16
      ∧ ¬ SocketsByDistance ringDistance [[0, 1, 3], [2]] := by
  refine ⟨by decide, rfl, rfl, fun agrees => ?_⟩
  have near := agrees.inside [0, 1, 3] (by decide) 1 (by decide) 3 (by decide) (by decide)
  exact absurd near (by decide)

end Kumf.Daemon
