import Kumf.Interc.SizeForms
import Kumf.Library.PyText

/-! Configuration files of lines that fit the buffer of `load_rules`: comments and blank lines
are passed over, so a file with one rule loads what its rule line says.
-/

namespace Kumf.Interc

open Kumf.Library

/-- A line that `load_rules` passes over. -/
def Skipped (line : List Char) : Prop := line = [] ∨ line.head? = some '#'

/-- A line that one `fgets` call reads whole. -/
structure FitsBuffer (line : List Char) : Prop where
  oneLine : '\n' ∉ line
  short : line.length < 511

theorem loadLine_skipped {line : List Char} (stale : List Char) (tables : RuleTables)
    (skipped : Skipped line)
    : loadLine tables (fgetsStore stale (line ++ ['\n'])) = tables := by
  rcases skipped with rfl | comment
  · exact loadLine_empty tables rfl
  · cases line with
    | nil => cases comment
    | cons c line => exact loadLine_comment tables comment

theorem loadChunks_skipped {lines : List (List Char)} (state : List Char × RuleTables)
    (skipped : ∀ line ∈ lines, Skipped line)
    : ((lines.map (fun line => line ++ ['\n'])).foldl loadChunk state).2 = state.2 := by
  induction lines generalizing state with
  | nil => rfl
  | cons line lines ih =>
      rw [List.map_cons, List.foldl_cons,
        ih _ (fun other member => skipped other (List.mem_cons_of_mem line member))]
      exact loadLine_skipped state.1 state.2 (skipped line List.mem_cons_self)

/-- Each turn of the loop sees one line. -/
theorem loadText_lines {lines : List (List Char)} (stale : List Char) (tables : RuleTables)
    (fits : ∀ line ∈ lines, FitsBuffer line)
    : loadText stale tables (PyText.unlines lines)
      = ((lines.map (fun line => line ++ ['\n'])).foldl loadChunk (stale, tables)).2 := by
  have read : fgetsAll lineSize (PyText.unlines lines ++ [])
      = lines.map (fun line => line ++ ['\n']) ++ fgetsAll lineSize [] :=
    fgetsAll_lines lines [] (fun line member => (fits line member).oneLine)
      (fun line member => (fits line member).short)
  have nothing : fgetsAll lineSize [] = [] := rfl
  rw [List.append_nil, nothing, List.append_nil] at read
  rw [loadText, read]

/-- A file of skipped lines loads nothing. -/
theorem loadText_skipped {lines : List (List Char)} (stale : List Char) (tables : RuleTables)
    (fits : ∀ line ∈ lines, FitsBuffer line) (skipped : ∀ line ∈ lines, Skipped line)
    : loadText stale tables (PyText.unlines lines) = tables := by
  rw [loadText_lines stale tables fits, loadChunks_skipped _ skipped]

/-- Between skipped lines only the rule line counts, with whatever was in the buffer before. -/
theorem loadText_oneRule {front back : List (List Char)} {rule : List Char} (stale : List Char)
    (tables : RuleTables) (fits : ∀ line ∈ front ++ rule :: back, FitsBuffer line)
    (before : ∀ line ∈ front, Skipped line) (behind : ∀ line ∈ back, Skipped line)
    : ∃ buffer,
        loadText stale tables (PyText.unlines (front ++ rule :: back))
        = loadLine tables (fgetsStore buffer (rule ++ ['\n'])) := by
  let reached := (front.map (fun line => line ++ ['\n'])).foldl loadChunk (stale, tables)
  have unchanged : reached.2 = tables := loadChunks_skipped (stale, tables) before
  refine ⟨reached.1, ?_⟩
  rw [loadText_lines stale tables fits, List.map_append, List.foldl_append, List.map_cons,
    List.foldl_cons, loadChunks_skipped _ behind]
  exact congrArg (fun tables => loadLine tables (fgetsStore reached.1 (rule ++ ['\n']))) unchanged

/-- A node column between blanks is read up to 31 characters. -/
theorem sscanf_column {token more : List Char} (nonempty : token ≠ [])
    (solid : ∀ c ∈ token, isCSpace c = false)
    : sscanf [.blank, .word 31] (' ' :: (token ++ ' ' :: more)) = [.str (token.take 31)] := by
  obtain ⟨c, token, rfl⟩ := List.exists_cons_of_ne_nil nonempty
  have first : isCSpace c = false := solid c List.mem_cons_self
  have inside : ∀ d ∈ (c :: token).take 31, (!isCSpace d) = true := by
    intro d member
    rw [solid d (List.mem_of_mem_take member)]
    rfl
  have stops : ∀ d ∈ ((' ' :: more).take (31 - (c :: token).length)).head?,
      (!isCSpace d) = false := by
    intro d found
    cases room : 31 - (c :: token).length with
    | zero =>
        rw [room] at found
        cases found
    | succ left =>
        rw [room, List.take_succ_cons, List.head?_cons, Option.mem_def, Option.some.injEq] at found
        rw [← found]
        rfl
  have word : ((c :: token ++ ' ' :: more).take 31).takeWhile (fun d => !isCSpace d)
      = (c :: token).take 31 := by
    rw [List.take_append]
    exact takeWhile_token inside stops
  have blank : (' ' :: (c :: token ++ ' ' :: more)).dropWhile isCSpace
      = c :: token ++ ' ' :: more := by
    rw [List.dropWhile_cons_of_pos (by decide), List.cons_append,
      List.dropWhile_cons_of_neg (by simp [first])]
  have again : (c :: token ++ ' ' :: more).dropWhile isCSpace = c :: token ++ ' ' :: more := by
    rw [List.cons_append, List.dropWhile_cons_of_neg (by simp [first])]
  simp only [sscanf, blank, again, word]
  simp

end Kumf.Interc
