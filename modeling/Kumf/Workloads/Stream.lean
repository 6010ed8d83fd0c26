import Kumf.Library.RoundWalk
import Mathlib.Data.List.Range
import Mathlib.Data.List.Nodup

/-! The pointer chase of `kumf_stream`: a shuffled order of all indices, the links from each one
to the next, and the run that follows them.
-/

namespace Kumf.Workloads

open Kumf.Library

/-- Exchange two places of an array; there is no result outside it. -/
def exchange (next : Array Nat) (i j : Nat) : Option (Array Nat) :=
  if inside : i < next.size ∧ j < next.size then
    some (next.swap i j inside.1 inside.2)
  else
    none

/-- The shuffle, from a place down to the second one. `rand` gives the answer of `rand_r` for each
place.
-/
def shuffle (rand : Nat → Nat) : Nat → Array Nat → Option (Array Nat)
  | 0, next => some next
  | i + 1, next => do
      let next ← exchange next (i + 1) (rand (i + 1) % (i + 2))
      shuffle rand i next

/-- `chase[next[i]] = next[(i + 1) % n_doubles]`, into memory that holds nothing at first. -/
def link (next : Array Nat) (chase : Array (Option Nat)) (i : Nat)
    : Option (Array (Option Nat)) := do
  let here ← next[i]?
  let behind ← next[(i + 1) % next.size]?
  if inside : here < chase.size then some (chase.set here (some behind) inside) else none

/-- The array that the test builds. -/
def buildChase (count : Nat) (rand : Nat → Nat) : Option (Array (Option Nat)) := do
  let next ← shuffle rand (count - 1) (Array.range count)
  (List.range count).foldlM (link next) (Array.replicate count none)

/-- `idx = chase[idx]`; there is no result outside the array or where nothing was written. -/
def chaseStep (chase : Array (Option Nat)) (idx : Nat) : Option Nat := chase[idx]?.join

-----------------------------------------------------------------------------------------
-- The shuffle
-----------------------------------------------------------------------------------------

/-- The shuffle stays in the array and keeps its items. -/
theorem shuffle_perm (rand : Nat → Nat) {last : Nat} {next : Array Nat}
    (inside : last < next.size)
    : ∃ shuffled, shuffle rand last next = some shuffled ∧ shuffled.Perm next := by
  induction last generalizing next with
  | zero => exact ⟨next, rfl, .refl next⟩
  | succ i ih =>
      have partner : rand (i + 1) % (i + 2) < next.size :=
        Nat.lt_of_lt_of_le (Nat.mod_lt _ (Nat.succ_pos _)) inside
      have swapped : exchange next (i + 1) (rand (i + 1) % (i + 2))
          = some (next.swap (i + 1) (rand (i + 1) % (i + 2)) inside partner) :=
        dif_pos ⟨inside, partner⟩
      have below : i < (next.swap (i + 1) (rand (i + 1) % (i + 2)) inside partner).size := by
        rw [Array.size_swap]
        exact Nat.lt_of_succ_lt inside
      obtain ⟨shuffled, done, perm⟩ := ih below
      refine ⟨shuffled, ?_, perm.trans (Array.swap_perm inside partner)⟩
      rw [shuffle, swapped]
      exact done

-----------------------------------------------------------------------------------------
-- The links
-----------------------------------------------------------------------------------------

/-- After some turns the chase holds the links of the places so far. -/
structure Links (next : Array Nat) (turns : Nat) (chase : Array (Option Nat)) : Prop where
  size : chase.size = next.size
  stored
    : ∀ i here, i < turns → next[i]? = some here
      → chase[here]? = some next[(i + 1) % next.size]?

/-- The loop writes every link once, so none is overwritten. -/
theorem foldlM_link {next : Array Nat} (nodup : next.toList.Nodup)
    (bounded : ∀ item ∈ next, item < next.size) (turns : Nat) (few : turns ≤ next.size)
    : ∃ chase,
        (List.range turns).foldlM (link next) (Array.replicate next.size none) = some chase
        ∧ Links next turns chase := by
  induction turns with
  | zero =>
      exact ⟨_, rfl, Array.size_replicate, fun i _ small => absurd small (Nat.not_lt_zero i)⟩
  | succ turns ih =>
      obtain ⟨chase, built, links⟩ := ih (Nat.le_of_succ_le few)
      have here : turns < next.size := few
      have behind : (turns + 1) % next.size < next.size := Nat.mod_lt _ (by omega)
      have small : next[turns] < chase.size := by
        rw [links.size]
        exact bounded _ (Array.getElem_mem here)
      have linked : link next chase turns
          = some (chase.set next[turns] (some next[(turns + 1) % next.size]) small) := by
        rw [link, Array.getElem?_eq_getElem here, Array.getElem?_eq_getElem behind]
        exact dif_pos small
      refine ⟨chase.set next[turns] (some next[(turns + 1) % next.size]) small, ?_, ?_⟩
      · rw [List.range_succ, List.foldlM_append, built, Option.bind_eq_bind, Option.bind_some,
          List.foldlM_cons, linked]
        rfl
      · constructor
        · rw [Array.size_set, links.size]
        · intro i item before found
          by_cases last : i = turns
          · subst last
            rw [Array.getElem?_eq_getElem here] at found
            rw [← Option.some.inj found, Array.getElem?_set_self,
              Array.getElem?_eq_getElem behind]
          · have earlier : i < turns := by omega
            have i_lt : i < next.size := Nat.lt_trans earlier here
            have apart : next[turns] ≠ item := by
              intro same
              apply last
              apply (List.getElem?_inj (by simpa using i_lt) nodup).mp
              rw [Array.getElem?_toList, Array.getElem?_toList, found, ← same,
                Array.getElem?_eq_getElem here]
            rw [Array.getElem?_set_ne _ apart]
            exact links.stored i item earlier found

-----------------------------------------------------------------------------------------
-- The run
-----------------------------------------------------------------------------------------

/-- Whatever `rand_r` answers, the chase is one round through all of its places: a run reads
nothing that was not written, visits every index once and is back at 0 with its last step only.
-/
theorem buildChase_run (count : Nat) (some_ : 0 < count) (rand : Nat → Nat)
    : ∃ chase visited,
        buildChase count rand = some chase
        ∧ walk (chaseStep chase) count 0 = some visited
        ∧ visited.Perm (List.range count)
        ∧ visited.getLast? = some 0 := by
  have inside : count - 1 < (Array.range count).size := by
    rw [Array.size_range]
    omega
  obtain ⟨next, shuffled, perm⟩ := shuffle_perm rand inside
  have items : next.toList.Perm (List.range count) := by
    have lists := Array.perm_iff_toList_perm.mp perm
    rwa [Array.toList_range] at lists
  have size : next.size = count := by
    rw [← Array.length_toList, items.length_eq, List.length_range]
  have nodup : next.toList.Nodup := items.nodup_iff.mpr List.nodup_range
  have bounded : ∀ item ∈ next, item < next.size := by
    intro item member
    rw [size]
    exact List.mem_range.mp (items.mem_iff.mp (Array.mem_toList_iff.mpr member))
  obtain ⟨chase, built, links⟩ := foldlM_link nodup bounded next.size (Nat.le_refl _)
  rw [size] at built
  have round : GoesRound (chaseStep chase) next.toList := by
    intro i item found
    rw [Array.getElem?_toList] at found
    have i_lt := (Array.getElem?_eq_some_iff.mp found).1
    rw [chaseStep, links.stored i item i_lt found, Option.join_some, Array.getElem?_toList,
      Array.length_toList]
  obtain ⟨start, found⟩ := List.getElem?_of_mem (items.mem_iff.mpr (List.mem_range.mpr some_))
  obtain ⟨walked, back⟩ := walk_full round found
  rw [Array.length_toList, size] at walked
  refine ⟨chase, next.toList.rotate (start + 1), ?_, walked, ?_, back⟩
  · rw [buildChase, shuffled]
    exact built
  · exact (List.rotate_perm _ _).trans items

theorem buildChase_run_six
    : ∃ chase visited,
        buildChase 6 (fun i => 7 * i + 3) = some chase
        ∧ walk (chaseStep chase) 6 0 = some visited
        ∧ visited.Perm (List.range 6)
        ∧ visited.getLast? = some 0 :=
  buildChase_run 6 (by decide) _

end Kumf.Workloads
