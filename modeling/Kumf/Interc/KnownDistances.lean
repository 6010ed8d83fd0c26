import Kumf.Interc.Affinity
import Mathlib.Data.List.Perm.Basic

/-! `is_cross_socket` among distances of which some are unknown. libnuma answers 0 for these:
they are left out of the minimum, which stays at its start value where all of them are unknown.
-/

namespace Kumf.Interc

open Kumf.Library

/-- Only the values count, not their order. -/
theorem ScanBounds.unique {start first second : Int × Int} {distances others : List Int}
    (same : ∀ d, d ∈ distances ↔ d ∈ others) (left : ScanBounds start distances first)
    (right : ScanBounds start others second)
    : first = second := by
  apply Prod.ext
  · apply Int.le_antisymm
    · rcases right.minFrom with started | ⟨member, positive⟩
      · exact started ▸ left.minStart
      · exact left.minLe _ ((same _).mpr member) positive
    · rcases left.minFrom with started | ⟨member, positive⟩
      · exact started ▸ right.minStart
      · exact right.minLe _ ((same _).mp member) positive
  · apply Int.le_antisymm
    · rcases left.maxFrom with started | member
      · exact started ▸ right.startMax
      · exact right.leMax _ ((same _).mp member)
    · rcases right.maxFrom with started | member
      · exact started ▸ left.startMax
      · exact left.leMax _ ((same _).mpr member)

/-- With distances of a byte the test finds a far pair and a near known one; without a known
one the doubled start value wraps to -2.
-/
theorem scanDistance_byte_iff {distances : List Int}
    (range : ∀ d ∈ distances, 0 ≤ d ∧ d ≤ 255)
    : toInt32 ((distances.foldl scanDistance (2 ^ 31 - 1, 0)).1 * 2)
        < (distances.foldl scanDistance (2 ^ 31 - 1, 0)).2
      ↔ (∃ far ∈ distances, ∃ near ∈ distances, 0 < near ∧ 2 * near < far)
        ∨ ∀ d ∈ distances, d = 0 := by
  obtain ⟨minLe, minFrom, _, leMax, maxFrom, startMax⟩ :=
    scanDistance_bounds distances (2 ^ 31 - 1, 0)
  generalize distances.foldl scanDistance (2 ^ 31 - 1, 0) = bounds at *
  obtain ⟨low, high⟩ := bounds
  dsimp only at *
  by_cases unknown : ∀ d ∈ distances, d = 0
  · have started : low = 2 ^ 31 - 1 := by
      rcases minFrom with started | ⟨member, positive⟩
      · exact started
      · exact absurd (unknown low member) (Int.ne_of_gt positive)
    refine iff_of_true ?_ (.inr unknown)
    rw [started, toInt32]
    omega
  · rw [or_iff_left unknown]
    push Not at unknown
    obtain ⟨d, member, nonzero⟩ := unknown
    have lowLe := minLe d member (by have bound := range d member; omega)
    have bound := range d member
    have lowKnown : low ∈ distances ∧ 0 < low := minFrom.resolve_left (by omega)
    rw [toInt32_eq (by omega) (by omega)]
    constructor
    · intro crosses
      have highMember : high ∈ distances := maxFrom.resolve_left (by omega)
      exact ⟨high, highMember, low, lowKnown.1, lowKnown.2, by omega⟩
    · rintro ⟨far, farMember, near, nearMember, positive, apart⟩
      have nearLe := minLe near nearMember positive
      have farLe := leMax far farMember
      omega

/-- Two pairs of distinct listed nodes with known distances, one more than twice the other. -/
def FarPair (distance : Int → Int → Int) (nodes : List Int) : Prop :=
  ∃ a ∈ nodes, ∃ b ∈ nodes, ∃ c ∈ nodes, ∃ d ∈ nodes,
    a ≠ b ∧ c ≠ d ∧ 0 < distance a b ∧ 0 < distance c d
      ∧ 2 * distance c d < distance a b

/-- What `is_cross_socket` is for. -/
structure TellsSockets (distance : Int → Int → Int) (nodes : List Int) : Prop where
  far : isCrossSocket distance nodes = true ↔ FarPair distance nodes
  unordered : ∀ other : List Int, other.Perm nodes
    → isCrossSocket distance other = isCrossSocket distance nodes
  unknown
    : (∀ a ∈ nodes, ∀ b ∈ nodes, a ≠ b → distance a b = 0)
      → isCrossSocket distance nodes = false

section
variable {distance : Int → Int → Int} {nodes : List Int}

theorem isCrossSocket_perm {other : List Int} (distinct : nodes.Nodup)
    (symm : ∀ a ∈ nodes, ∀ b ∈ nodes, distance a b = distance b a) (same : other.Perm nodes)
    : isCrossSocket distance other = isCrossSocket distance nodes := by
  have otherSymm : ∀ a ∈ other, ∀ b ∈ other, distance a b = distance b a :=
    fun a inOther b alsoOther => symm a (same.mem_iff.mp inOther) b (same.mem_iff.mp alsoOther)
  have members (d : Int)
      : d ∈ pairDistances distance other ↔ d ∈ pairDistances distance nodes := by
    rw [mem_pairDistances (same.nodup_iff.mpr distinct) otherSymm,
      mem_pairDistances distinct symm]
    simp only [same.mem_iff]
  have bounds := ScanBounds.unique members (scanDistance_bounds _ (2 ^ 31 - 1, 0))
    (scanDistance_bounds _ (2 ^ 31 - 1, 0))
  unfold isCrossSocket
  rw [same.length_eq, bounds]

theorem isCrossSocket_iff (distinct : nodes.Nodup)
    (symm : ∀ a ∈ nodes, ∀ b ∈ nodes, distance a b = distance b a)
    (range : ∀ a ∈ nodes, ∀ b ∈ nodes, 0 ≤ distance a b ∧ distance a b ≤ 255)
    (several : 1 < nodes.length)
    : isCrossSocket distance nodes = true
      ↔ FarPair distance nodes ∨ ∀ a ∈ nodes, ∀ b ∈ nodes, a ≠ b
        → distance a b = 0 := by
  have members (d : Int) := mem_pairDistances (d := d) distinct symm
  have bytes : ∀ d ∈ pairDistances distance nodes, 0 ≤ d ∧ d ≤ 255 := by
    intro d member
    obtain ⟨a, inList, b, alsoIn, _, rfl⟩ := (members d).mp member
    exact range a inList b alsoIn
  unfold isCrossSocket
  rw [if_neg (by omega)]
  dsimp only
  rw [decide_eq_true_iff, scanDistance_byte_iff bytes]
  apply or_congr
  · constructor
    · rintro ⟨far, farMember, near, nearMember, positive, apart⟩
      obtain ⟨a, aIn, b, bIn, ab, rfl⟩ := (members far).mp farMember
      obtain ⟨c, cIn, d, dIn, cd, rfl⟩ := (members near).mp nearMember
      exact ⟨a, aIn, b, bIn, c, cIn, d, dIn, ab, cd, by omega, positive, apart⟩
    · rintro ⟨a, aIn, b, bIn, c, cIn, d, dIn, ab, cd, _, positive, apart⟩
      exact ⟨_, (members _).mpr ⟨a, aIn, b, bIn, ab, rfl⟩, _,
        (members _).mpr ⟨c, cIn, d, dIn, cd, rfl⟩, positive, apart⟩
  · constructor
    · intro unknown a aIn b bIn ab
      exact unknown _ ((members _).mpr ⟨a, aIn, b, bIn, ab, rfl⟩)
    · intro unknown d member
      obtain ⟨a, aIn, b, bIn, ab, rfl⟩ := (members d).mp member
      exact unknown a aIn b bIn ab

end

/-- The test is right for a single node and once one distance is known. Several nodes without
a known distance count as several sockets.
-/
theorem tellsSockets_iff (distance : Int → Int → Int) (nodes : List Int)
    (distinct : nodes.Nodup) (symm : ∀ a ∈ nodes, ∀ b ∈ nodes, distance a b = distance b a)
    (range : ∀ a ∈ nodes, ∀ b ∈ nodes, 0 ≤ distance a b ∧ distance a b ≤ 255)
    : TellsSockets distance nodes
      ↔ nodes.length ≤ 1
        ∨ ∃ a ∈ nodes, ∃ b ∈ nodes, a ≠ b ∧ 0 < distance a b := by
  by_cases single : nodes.length ≤ 1
  · have quiet : isCrossSocket distance nodes = false := if_pos single
    have alone : ∀ a ∈ nodes, ∀ b ∈ nodes, a = b := by
      intro a aIn b bIn
      obtain ⟨i, iInside, rfl⟩ := List.mem_iff_getElem.mp aIn
      obtain ⟨j, jInside, rfl⟩ := List.mem_iff_getElem.mp bIn
      have same : i = j := by omega
      subst same
      rfl
    refine iff_of_true ⟨?_, fun other same => isCrossSocket_perm distinct symm same,
      fun _ => quiet⟩ (.inl single)
    rw [quiet]
    refine iff_of_false Bool.false_ne_true ?_
    rintro ⟨a, aIn, b, bIn, _, _, _, _, ab, _⟩
    exact ab (alone a aIn b bIn)
  · rw [or_iff_right single]
    have whole := isCrossSocket_iff distinct symm range (by omega)
    constructor
    · intro tells
      by_contra none
      push Not at none
      have unknown : ∀ a ∈ nodes, ∀ b ∈ nodes, a ≠ b → distance a b = 0 :=
        fun a aIn b bIn ab =>
          Int.le_antisymm (none a aIn b bIn ab) (range a aIn b bIn).1
      exact Bool.false_ne_true ((tells.unknown unknown).symm.trans (whole.mpr (.inr unknown)))
    · rintro ⟨a, aIn, b, bIn, ab, known⟩
      have notUnknown : ¬ ∀ a ∈ nodes, ∀ b ∈ nodes, a ≠ b → distance a b = 0 :=
        fun unknown => Int.ne_of_gt known (unknown a aIn b bIn ab)
      exact ⟨whole.trans (or_iff_left notUnknown),
        fun other same => isCrossSocket_perm distinct symm same,
        fun unknown => absurd unknown notUnknown⟩

/-- Four nodes at the distances of two sockets. -/
def socketDistance (a b : Int) : Int :=
  if a = b then 10 else if a / 2 = b / 2 then 12 else 35

theorem tellsSockets_iff_fourNodes
    : TellsSockets socketDistance [0, 1, 2, 3]
      ↔ ([0, 1, 2, 3] : List Int).length ≤ 1
        ∨ ∃ a ∈ ([0, 1, 2, 3] : List Int), ∃ b ∈ ([0, 1, 2, 3] : List Int),
            a ≠ b ∧ 0 < socketDistance a b :=
  tellsSockets_iff socketDistance [0, 1, 2, 3] (by decide) (by decide) (by decide)

/-- Two nodes at an unknown distance. -/
theorem unknownDistance_crosses
    : isCrossSocket (fun _ _ => 0) [0, 1] = true
      ∧ ¬ FarPair (fun _ _ => 0) [0, 1] := by
  refine ⟨by decide, ?_⟩
  rintro ⟨_, _, _, _, _, _, _, _, _, _, known, _⟩
  exact Int.lt_irrefl 0 known

end Kumf.Interc
