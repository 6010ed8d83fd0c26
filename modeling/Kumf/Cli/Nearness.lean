import Kumf.Library.Dict
import Kumf.Library.PyLines

/-! `show_nearness_matrix` of the `kumf` command: the distances that it reads from the text of
`numactl -H`.
-/

namespace Kumf.Cli

open Kumf.Library PyText

/-- The row of one source in `distances`. -/
def addRow (src : Int) (dists : List Int) (distances : Dict (Int × Int) Int)
    : Dict (Int × Int) Int :=
  dists.zipIdx.foldl
    (fun distances entry => distances.upsert (src, Int.ofNat entry.2) (fun _ => entry.1)) distances

/-- The loop over the lines; `none` is an exception. -/
def readNearness : List (List Char) → Dict (Int × Int) Int → Option (Dict (Int × Int) Int)
  | [], distances => some distances
  | line :: rest, distances =>
      if contains line "distance:".toList then do
        let parts := line.splitOn ':'
        let src ← parseInt 10 (strip (remove (← parts[0]?) "node".toList))
        let dists ← (splitBlanks (← parts[1]?)).mapM (parseInt 10)
        readNearness rest (addRow src dists distances)
      else
        readNearness rest distances

/-- What `show_nearness_matrix` prints: that it cannot read, that it finds no data, or the
classes of the distances it has read. A number that it cannot read ends the command.
-/
inductive Nearness where
  | cannotRead
  | noData
  | matrix (distances : Dict (Int × Int) Int)
  | failed

/-- `show_nearness_matrix`; `stdout` is what `numactl -H` prints, if it can be run. -/
def showNearnessMatrix (stdout : Option (List Char)) : Nearness :=
  match stdout with
  | none => .cannotRead
  | some text =>
      match readNearness ((strip text).splitOn '\n') .empty with
      | none => .failed
      | some distances => if distances.entries = [] then .noData else .matrix distances

/-- Lines without the word it looks for leave no data. -/
theorem readNearness_skips {lines : List (List Char)} (distances : Dict (Int × Int) Int)
    (other : ∀ line ∈ lines, contains line "distance:".toList = false)
    : readNearness lines distances = some distances := by
  induction lines with
  | nil => rfl
  | cons line rest ih =>
      have skipped := Bool.eq_false_iff.mp (other line List.mem_cons_self)
      rw [readNearness, if_neg skipped]
      exact ih (fun later member => other later (List.mem_cons_of_mem line member))

end Kumf.Cli
