import Kumf.Library.PyInt
import Mathlib.Data.Bool.AllAny

/-! Reading a text file line by line and word by word: universal newlines and `str.split()`.
-/

namespace Kumf.Library.PyText

/-- The universal newlines of a text file. -/
def universalNewlines : List Char → List Char
  | [] => []
  | '\r' :: '\n' :: rest => '\n' :: universalNewlines rest
  | '\r' :: rest => '\n' :: universalNewlines rest
  | c :: rest => c :: universalNewlines rest

/-- `str.split()` -/
def splitBlanks (text : List Char) : List (List Char) :=
  (text.splitOnP isSpace).filter (fun word => word ≠ [])

/-- `str.endswith` -/
def endsWith (text back : List Char) : Bool := back.isSuffixOf text

/-- What is left while the next characters belong to a removed part. -/
def removeFrom (part : List Char) : Nat → List Char → List Char
  | _, [] => []
  | skip + 1, _ :: rest => removeFrom part skip rest
  | 0, c :: rest =>
      if startsWith (c :: rest) part then
        removeFrom part (part.length - 1) rest
      else
        c :: removeFrom part 0 rest

/-- `text.replace(part, "")` for a nonempty part -/
def remove (text part : List Char) : List Char := removeFrom part 0 text

/-- Text without a carriage return is read as it is. -/
theorem universalNewlines_eq {text : List Char} (plain : '\r' ∉ text)
    : universalNewlines text = text := by
  induction text using universalNewlines.induct with
  | case1 => rfl
  | case2 rest ih => exact absurd List.mem_cons_self plain
  | case3 rest notPair ih => exact absurd List.mem_cons_self plain
  | case4 c rest notPair notReturn ih =>
      rw [universalNewlines, ih (fun member => plain (List.mem_cons_of_mem c member))]
      · exact notPair
      · exact notReturn

/-- No carriage return is left by the translation. -/
theorem return_not_mem_universalNewlines (text : List Char)
    : '\r' ∉ universalNewlines text := by
  induction text using universalNewlines.induct with
  | case1 => exact List.not_mem_nil
  | case2 rest ih =>
      rw [universalNewlines, List.mem_cons, not_or]
      exact ⟨by decide, ih⟩
  | case3 rest notPair ih =>
      rw [universalNewlines, List.mem_cons, not_or]
      · exact ⟨by decide, ih⟩
      · exact notPair
  | case4 c rest notPair notReturn ih =>
      rw [universalNewlines, List.mem_cons, not_or]
      · exact ⟨fun same => notReturn same.symm, ih⟩
      · exact notPair
      · exact notReturn

/-- A newline ends a line whatever stands before it, so a text may be cut behind it. -/
theorem universalNewlines_line (front : List Char)
    : ∃ line, ∀ back,
        universalNewlines (front ++ '\n' :: back) = line ++ '\n' :: universalNewlines back := by
  induction front using universalNewlines.induct with
  | case1 => exact ⟨[], by simp [universalNewlines]⟩
  | case2 rest ih =>
      obtain ⟨line, cut⟩ := ih
      exact ⟨'\n' :: line, fun back => by simp only [List.cons_append, universalNewlines, cut]⟩
  | case3 rest notPair ih =>
      cases rest with
      | nil => exact ⟨[], fun back => by simp [universalNewlines]⟩
      | cons c rest =>
          obtain ⟨line, cut⟩ := ih
          have alone (text : List Char)
              : universalNewlines ('\r' :: c :: text) = '\n' :: universalNewlines (c :: text) := by
            rw [universalNewlines]
            rintro _ same
            exact notPair rest (congrArg (· :: rest) (List.cons.inj same).1)
          refine ⟨'\n' :: line, fun back => ?_⟩
          have next := cut back
          simp only [List.cons_append, alone] at next ⊢
          rw [next]
  | case4 c rest notPair notReturn ih =>
      obtain ⟨line, cut⟩ := ih
      have other (text : List Char)
          : universalNewlines (c :: text) = c :: universalNewlines text := by
        rw [universalNewlines]
        · exact fun _ same _ => notReturn same
        · exact notReturn
      exact ⟨c :: line, fun back => by simp only [List.cons_append, other, cut]⟩

/-- A word with another first letter is no prefix. -/
theorem startsWith_other {c d : Char} (apart : d ≠ c) (text front : List Char)
    : startsWith (c :: text) (d :: front) = false := by
  simp [startsWith, List.isPrefixOf_cons_cons, apart]

/-- Lines are written one after another. -/
theorem unlines_append (front back : List (List Char))
    : unlines (front ++ back) = unlines front ++ unlines back :=
  List.flatMap_append

/-- A word, and the rest behind one blank. -/
theorem splitBlanks_cons {word : List Char} (nonempty : word ≠ [])
    (solid : ∀ c ∈ word, isSpace c = false) (rest : List Char)
    : splitBlanks (word ++ ' ' :: rest) = word :: splitBlanks rest := by
  have blank : isSpace ' ' = true := rfl
  rw [splitBlanks, List.splitOnP_append_cons_of_forall_mem solid ' ' blank]
  exact List.filter_cons_of_pos (by simpa using nonempty)

/-- A word without blanks is one column. -/
theorem splitBlanks_word {word : List Char} (nonempty : word ≠ [])
    (solid : ∀ c ∈ word, isSpace c = false)
    : splitBlanks word = [word] := by
  rw [splitBlanks, List.splitOnP_eq_singleton solid]
  exact List.filter_cons_of_pos (by simpa using nonempty)

theorem notMem_toDigits {c : Char} (other : isDigitOf 10 c = false) (n : Nat)
    : c ∉ Nat.toDigits 10 n := by
  intro member
  rw [isDigitOf_toDigits (by omega) (by omega) n c member] at other
  cases other

/-- A character that a part has keeps it out of a text without. -/
theorem contains_eq_false {text part : List Char} {c : Char} (inPart : c ∈ part)
    (outside : c ∉ text)
    : contains text part = false :=
  Bool.eq_false_iff.mpr (fun found => outside ((contains_iff.mp found).subset inPart))

/-- The lines of a stripped text: the last one loses its blanks at the end. -/
theorem splitOn_strip {lines : List (List Char)} {last : List Char}
    (plain : ∀ line ∈ lines, '\n' ∉ line) (plainLast : '\n' ∉ last)
    (first : ∀ c ∈ (unlines lines ++ last).head?, isSpace c = false)
    (visible : ∃ c ∈ last, isSpace c = false)
    : (strip (unlines (lines ++ [last]))).splitOn '\n' = lines ++ [last.rdropWhile isSpace] := by
  have text : unlines (lines ++ [last]) = unlines lines ++ last ++ ['\n'] := by
    rw [unlines_append]
    simp [unlines]
  have nonempty : unlines lines ++ last ≠ [] := by
    obtain ⟨c, member, _⟩ := visible
    exact List.append_ne_nil_of_right_ne_nil _ (List.ne_nil_of_mem member)
  have front : (unlines lines ++ last ++ ['\n']).dropWhile isSpace
      = unlines lines ++ last ++ ['\n'] := by
    obtain ⟨c, rest, whole⟩ := List.exists_cons_of_ne_nil nonempty
    rw [whole] at first ⊢
    exact List.dropWhile_cons_of_neg (by simp [first c rfl])
  have back : (unlines lines ++ last).rdropWhile isSpace
      = unlines lines ++ last.rdropWhile isSpace := by
    rw [List.rdropWhile, List.rdropWhile, List.reverse_append, List.dropWhile_append, if_neg]
    · simp
    · obtain ⟨c, member, solid⟩ := visible
      intro allBlank
      have blank := List.dropWhile_eq_nil_iff.mp (List.isEmpty_iff.mp allBlank) c
        (List.mem_reverse.mpr member)
      rw [solid] at blank
      cases blank
  rw [text, strip, front, List.rdropWhile_concat_pos _ _ _ (by rfl), back]
  exact splitOn_unlines_append plain
    (fun member => plainLast ((List.rdropWhile_prefix isSpace last).subset member))

-----------------------------------------------------------------------------------------
-- The lines of a binary file
-----------------------------------------------------------------------------------------

/-- `readline()` of a binary file, of the bytes left in it. -/
def readline : List Char → List Char
  | [] => []
  | c :: rest => if c = '\n' then ['\n'] else c :: readline rest

/-- The lines that `readline()` gives one after the other. -/
def readlines : List Char → List (List Char)
  | [] => []
  | c :: rest =>
      if c = '\n' then
        ['\n'] :: readlines rest
      else
        match readlines rest with
        | [] => [[c]]
        | line :: lines => (c :: line) :: lines

/-- What stands behind the last newline. -/
def lastLine (text : List Char) : List Char := text.rtakeWhile (fun c => c ≠ '\n')

/-- A line is read as long as there are bytes. -/
theorem readline_ne_nil {bytes : List Char} (some : bytes ≠ []) : readline bytes ≠ [] := by
  obtain ⟨c, rest, rfl⟩ := List.exists_cons_of_ne_nil some
  rw [readline]
  split
  · exact List.cons_ne_nil _ _
  · exact List.cons_ne_nil _ _

/-- The lines are the first one and those of the bytes behind it. -/
theorem readlines_eq {bytes : List Char} (some : bytes ≠ [])
    : readlines bytes = readline bytes :: readlines (bytes.drop (readline bytes).length) := by
  induction bytes with
  | nil => exact absurd rfl some
  | cons c rest ih =>
      rw [readlines, readline]
      split
      · rfl
      · cases rest with
        | nil => rfl
        | cons d rest =>
            rw [ih (List.cons_ne_nil d rest)]
            rfl

/-- A line in front of some text is read first. -/
theorem readlines_line_append {body : List Char} (plain : '\n' ∉ body) (rest : List Char)
    : readlines (body ++ '\n' :: rest) = (body ++ ['\n']) :: readlines rest := by
  induction body with
  | nil =>
      rw [List.nil_append, readlines, if_pos rfl]
      rfl
  | cons c body ih =>
      have other : c ≠ '\n' := fun same => plain (same ▸ List.mem_cons_self)
      rw [List.cons_append, readlines, if_neg other,
        ih (fun member => plain (List.mem_cons_of_mem c member))]
      rfl

/-- No line read is empty, for it holds its line end. -/
theorem readlines_ne_nil {bytes line : List Char} (member : line ∈ readlines bytes)
    : line ≠ [] := by
  induction bytes generalizing line with
  | nil => cases member
  | cons c rest ih =>
      rw [readlines] at member
      split at member
      · rcases List.mem_cons.mp member with rfl | later
        · exact List.cons_ne_nil _ _
        · exact ih later
      · split at member
        case h_1 =>
          rw [List.mem_singleton.mp member]
          exact List.cons_ne_nil _ _
        case h_2 first lines parts =>
          rcases List.mem_cons.mp member with rfl | later
          · exact List.cons_ne_nil _ _
          · exact ih (parts ▸ List.mem_cons_of_mem first later)

/-- The lines read are all of the bytes. -/
theorem flatten_readlines (bytes : List Char) : (readlines bytes).flatten = bytes := by
  induction bytes with
  | nil => rfl
  | cons c rest ih =>
      rw [readlines]
      split
      case isTrue newline => rw [List.flatten_cons, ih, newline, List.singleton_append]
      case isFalse other =>
        split
        case h_1 none =>
          rw [none] at ih
          rw [← ih]
          rfl
        case h_2 line lines parts =>
          rw [parts] at ih
          rw [← ih]
          rfl

/-- A line ends with a newline, its only one, unless it is all that is left. -/
theorem readline_cases (bytes : List Char)
    : readline bytes = bytes
      ∨ ∃ body rest, bytes = body ++ '\n' :: rest ∧ '\n' ∉ body
        ∧ readline bytes = body ++ ['\n'] := by
  induction bytes with
  | nil => exact .inl rfl
  | cons c rest ih =>
      rw [readline]
      split
      case isTrue newline =>
        exact .inr ⟨[], rest, by rw [newline, List.nil_append], List.not_mem_nil, rfl⟩
      case isFalse other =>
        rcases ih with all | ⟨body, more, parts, plain, line⟩
        · exact .inl (by rw [all])
        · refine .inr ⟨c :: body, more, by rw [parts, List.cons_append], ?_, ?_⟩
          · rintro member
            rcases List.mem_cons.mp member with same | inBody
            · exact other same.symm
            · exact plain inBody
          · rw [line, List.cons_append]

/-- Of the lines only the last one can lack its newline. -/
theorem readlines_line {bytes line : List Char} {before after : List (List Char)}
    (parts : readlines bytes = before ++ line :: after) (more : after ≠ [])
    : ∃ body, line = body ++ ['\n'] ∧ '\n' ∉ body := by
  induction before generalizing bytes with
  | nil =>
      have some : bytes ≠ [] := by
        rintro rfl
        cases parts
      rw [readlines_eq some, List.nil_append] at parts
      obtain ⟨first, rest⟩ := List.cons.inj parts
      rcases readline_cases bytes with all | ⟨body, _, _, plain, ends⟩
      · rw [all, List.drop_length] at rest
        exact absurd rest.symm more
      · exact ⟨body, first.symm.trans ends, plain⟩
  | cons other before ih =>
      have some : bytes ≠ [] := by
        rintro rfl
        cases parts
      rw [readlines_eq some, List.cons_append] at parts
      exact ih (List.cons.inj parts).2

/-- Text without a line end goes on with the last line. -/
theorem lastLine_append {body : List Char} (plain : '\n' ∉ body) (text : List Char)
    : lastLine (text ++ body) = lastLine text ++ body := by
  have solid : ∀ c ∈ body.reverse, decide (c ≠ '\n') = true := by
    intro c member
    refine decide_eq_true ?_
    rintro rfl
    exact plain (List.mem_reverse.mp member)
  rw [lastLine, lastLine, List.rtakeWhile, List.rtakeWhile, List.reverse_append,
    List.takeWhile_append_of_pos solid, List.reverse_append, List.reverse_reverse]

/-- A line end starts an empty last line. -/
theorem lastLine_newline (text : List Char) : lastLine (text ++ ['\n']) = [] := by
  rw [lastLine, List.rtakeWhile_concat_neg]
  simp

-----------------------------------------------------------------------------------------
-- Texts cut behind a line
-----------------------------------------------------------------------------------------

/-- A cut behind a newline falls between two lines. -/
theorem unlines_cut {lines : List (List Char)} (plain : ∀ line ∈ lines, '\n' ∉ line)
    {position : Nat} {text : List Char} (behind : (unlines lines).take position = text ++ ['\n'])
    : ∃ count,
        (unlines lines).take position = unlines (lines.take count)
        ∧ (unlines lines).drop position = unlines (lines.drop count) := by
  induction lines generalizing position text with
  | nil => simp [unlines] at behind
  | cons line lines ih =>
      have whole : unlines (line :: lines) = line ++ ['\n'] ++ unlines lines := rfl
      by_cases inside : position ≤ line.length
      · have newline : '\n' ∈ line.take position := by
          rw [whole, List.append_assoc, List.take_append_of_le_length inside] at behind
          rw [behind]
          exact List.mem_append_right _ (List.mem_singleton_self _)
        exact absurd (List.mem_of_mem_take newline) (plain line List.mem_cons_self)
      · obtain ⟨more, rfl⟩ : ∃ more, position = (line ++ ['\n']).length + more :=
          ⟨position - (line.length + 1), by simp; omega⟩
        by_cases last : (unlines lines).take more = []
        · refine ⟨1, ?_, ?_⟩
          · rw [whole, List.take_length_add_append, last, List.append_nil]
            simp [unlines]
          · have none : (unlines lines).drop more = unlines lines := by
              cases List.take_eq_nil_iff.mp last with
              | inl zero => rw [zero, List.drop_zero]
              | inr empty => rw [empty, List.drop_nil]
            rw [whole, List.drop_length_add_append, none]
            rfl
        · rw [whole, List.take_length_add_append] at behind
          obtain ⟨front, c, parts⟩ := List.eq_nil_or_concat _ |>.resolve_left last
          rw [List.concat_eq_append] at parts
          rw [parts, ← List.append_assoc] at behind
          have newline : c = '\n' := by
            have ends := congrArg List.getLast? behind
            rw [List.getLast?_concat, List.getLast?_concat] at ends
            exact Option.some.inj ends
          obtain ⟨count, taken, dropped⟩ := ih
            (fun other member => plain other (List.mem_cons_of_mem line member))
            (newline ▸ parts)
          refine ⟨count + 1, ?_, ?_⟩
          · rw [whole, List.take_length_add_append, taken]
            rfl
          · rw [whole, List.drop_length_add_append, dropped]
            rfl

/-- Lines that were written are read back, each with its line end. -/
theorem readlines_unlines {lines : List (List Char)} (plain : ∀ line ∈ lines, '\n' ∉ line)
    : readlines (unlines lines) = lines.map (fun line => line ++ ['\n']) := by
  induction lines with
  | nil => rfl
  | cons line lines ih =>
      have whole : unlines (line :: lines) = line ++ '\n' :: unlines lines := by
        simp [unlines]
      rw [whole, readlines_line_append (plain line List.mem_cons_self),
        ih (fun other member => plain other (List.mem_cons_of_mem line member)), List.map_cons]

/-- The newline of a line is stripped with the blanks. -/
theorem strip_newline (line : List Char)
    : strip (line ++ ['\n']) = strip line := by
  have blank : isSpace '\n' = true := rfl
  by_cases all : line.dropWhile isSpace = []
  · rw [strip, strip, List.dropWhile_append, all]
    simp [blank]
  · rw [strip, strip, List.dropWhile_append, if_neg (by simpa using all),
      List.rdropWhile_concat_pos _ _ _ blank]

end Kumf.Library.PyText
