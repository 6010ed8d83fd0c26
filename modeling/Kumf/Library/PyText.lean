import Kumf.Library.Numerals
import Kumf.Library.Pattern
import Mathlib.Data.List.DropRight

/-! Python's `str` as a list of characters: the methods and character classes that text
parsers use, with what they do on ASCII digits and on lines of a text.
-/

namespace Kumf.Library.PyText

/-- `str.isspace` of one character, also `\\s` in a pattern. -/
def isSpace (c : Char) : Bool :=
  (9 ≤ c.toNat && c.toNat ≤ 13) || (28 ≤ c.toNat && c.toNat ≤ 32) || c.toNat = 0x85
    || c.toNat = 0xa0 || c.toNat = 0x1680 || (0x2000 ≤ c.toNat && c.toNat ≤ 0x200a)
    || c.toNat = 0x2028 || c.toNat = 0x2029 || c.toNat = 0x202f || c.toNat = 0x205f
    || c.toNat = 0x3000

/-- The zeros of the Unicode decimal digits; each is followed by the other nine. -/
def decimalZeros : List Nat :=
  [0x30, 0x660, 0x6f0, 0x7c0, 0x966, 0x9e6, 0xa66, 0xae6, 0xb66, 0xbe6, 0xc66, 0xce6, 0xd66,
    0xde6, 0xe50, 0xed0, 0xf20, 0x1040, 0x1090, 0x17e0, 0x1810, 0x1946, 0x19d0, 0x1a80, 0x1a90,
    0x1b50, 0x1bb0, 0x1c40, 0x1c50, 0xa620, 0xa8d0, 0xa900, 0xa9d0, 0xa9f0, 0xaa50, 0xabf0,
    0xff10, 0x104a0, 0x10d30, 0x11066, 0x110f0, 0x11136, 0x111d0, 0x112f0, 0x11450, 0x114d0,
    0x11650, 0x116c0, 0x11730, 0x118e0, 0x11950, 0x11c50, 0x11d50, 0x11da0, 0x16a60, 0x16ac0,
    0x16b50, 0x1d7ce, 0x1d7d8, 0x1d7e2, 0x1d7ec, 0x1d7f6, 0x1e140, 0x1e2f0, 0x1e950, 0x1fbf0]

/-- The value of a Unicode decimal digit. -/
def decimal? (c : Char) : Option Nat :=
  (decimalZeros.find? (fun first => first ≤ c.toNat && c.toNat < first + 10)).map
    (fun first => c.toNat - first)

/-- `\d` -/
def isDecimal (c : Char) : Bool := (decimal? c).isSome

/-- `int` on a string of decimal digits. -/
def int (digits : List Char) : Nat :=
  digits.foldl (fun value c => 10 * value + (decimal? c).getD 0) 0

/-- `hex` of a natural number. -/
def hex (n : Nat) : List Char := "0x".toList ++ Nat.toDigits 16 n

/-- `str.strip` -/
def strip (text : List Char) : List Char := (text.dropWhile isSpace).rdropWhile isSpace

/-- `str.startswith` -/
def startsWith (text front : List Char) : Bool := front.isPrefixOf text

/-- `part in text` -/
def contains (text part : List Char) : Bool := ((Pattern.word part).search text).isSome

/-- The text of some lines, each ended by a newline. -/
def unlines (lines : List (List Char)) : List Char := lines.flatMap (fun line => line ++ ['\n'])

theorem contains_iff {text part : List Char} : contains text part = true ↔ part <:+: text := by
  have starts (back : List Char)
      : (((Pattern.word part) back).head? = some (part, back.drop part.length)
          ∧ part <+: back)
        ∨ (((Pattern.word part) back).head? = none ∧ ¬ part <+: back) := by
    by_cases front : part <+: back
    · exact .inl ⟨by simp [Pattern.word, front], front⟩
    · exact .inr ⟨by simp [Pattern.word, front], front⟩
  induction text with
  | nil =>
      rcases starts [] with ⟨found, front⟩ | ⟨found, front⟩
      · simpa [contains, Pattern.search, found] using front
      · simpa [contains, Pattern.search, found] using front
  | cons c text ih =>
      rcases starts (c :: text) with ⟨found, front⟩ | ⟨found, front⟩
      · simp [contains, Pattern.search, found, front, List.infix_cons_iff]
      · simpa [contains, Pattern.search, found, front, List.infix_cons_iff] using ih

/-- No blank is a digit. -/
theorem isDecimal_of_isSpace {c : Char} (space : isSpace c = true) : isDecimal c = false := by
  simp only [isSpace, Bool.or_eq_true, Bool.and_eq_true, decide_eq_true_eq] at space
  unfold isDecimal decimal?
  generalize c.toNat = n at space
  rcases space
    with (((((((((⟨low, high⟩ | ⟨low, high⟩) | rfl) | rfl) | rfl) | ⟨low, high⟩)
    | rfl) | rfl) | rfl) | rfl) | rfl
  case inl.inl.inl.inl.inl.inl.inl.inl.inl.inl => interval_cases n <;> rfl
  case inl.inl.inl.inl.inl.inl.inl.inl.inl.inr => interval_cases n <;> rfl
  case inl.inl.inl.inl.inl.inr => interval_cases n <;> rfl
  all_goals rfl

theorem hex_injective : Function.Injective hex := by
  intro left right same
  exact toDigits_injective (by omega) (by omega) (List.append_cancel_left same)

theorem decimal?_digit {c : Char} (digit : isDigitOf 10 c = true)
    : decimal? c = some (digitValue c) := by
  have range := isDigitOf_ten_iff.mp digit
  let inBlock (first : Nat) : Bool := first ≤ c.toNat && c.toNat < first + 10
  have first : inBlock 48 = true := by
    simp only [inBlock, Bool.and_eq_true, decide_eq_true_eq]
    omega
  have found : decimalZeros.find? inBlock = some 48 := List.find?_cons_of_pos first
  rw [decimal?, digitValue, if_pos range]
  exact congrArg (Option.map (fun first => c.toNat - first)) found

theorem isDecimal_digit {c : Char} (digit : isDigitOf 10 c = true) : isDecimal c = true := by
  simp [isDecimal, decimal?_digit digit]

/-- On ASCII digits `int` is the value of the numeral. -/
theorem int_numeral (numeral : Numeral 10) : int numeral.digits = numeral.value := by
  have agree (digits : List Char) (valid : ∀ c ∈ digits, isDigitOf 10 c = true)
      : ∀ value, digits.foldl (fun value c => 10 * value + (decimal? c).getD 0) value
        = digits.foldl (fun value c => 10 * value + digitValue c) value := by
    induction digits with
    | nil => exact fun _ => rfl
    | cons c digits ih =>
        intro value
        rw [List.foldl_cons, List.foldl_cons, decimal?_digit (valid c List.mem_cons_self)]
        exact ih (fun d member => valid d (List.mem_cons_of_mem c member)) _
  exact agree numeral.digits numeral.valid 0

/-- Splitting lines and an unfinished one gives them all. -/
theorem splitOn_unlines_append {lines : List (List Char)} {rest : List Char}
    (plain : ∀ line ∈ lines, '\n' ∉ line) (plainRest : '\n' ∉ rest)
    : (unlines lines ++ rest).splitOn '\n' = lines ++ [rest] := by
  induction lines with
  | nil => exact List.splitOn_eq_singleton plainRest
  | cons line lines ih =>
      have split := List.splitOn_append_cons_self_of_not_mem (plain line List.mem_cons_self)
        (unlines lines ++ rest)
      rw [ih (fun other member => plain other (List.mem_cons_of_mem line member))] at split
      simpa [unlines] using split

/-- Splitting a text of lines gives the lines, and an empty one behind the last newline. -/
theorem splitOn_unlines {lines : List (List Char)} (plain : ∀ line ∈ lines, '\n' ∉ line)
    : (unlines lines).splitOn '\n' = lines ++ [[]] := by
  have split := splitOn_unlines_append plain (List.not_mem_nil : '\n' ∉ [])
  rwa [List.append_nil] at split

/-- What stands in a joined text, by induction on its parts. -/
theorem mem_intercalate {sep : List Char} {parts : List (List Char)} {c : Char}
    (outside : c ∉ sep)
    : c ∈ sep.intercalate parts ↔ ∃ part ∈ parts, c ∈ part := by
  induction parts with
  | nil => simp
  | cons part parts ih =>
      cases parts with
      | nil => simp
      | cons next parts =>
          have split : sep.intercalate (part :: next :: parts)
              = part ++ (sep ++ sep.intercalate (next :: parts)) := by
            simp [List.intercalate]
          rw [split, List.mem_append, List.mem_append, ih, List.exists_mem_cons_iff]
          simp [outside]

end Kumf.Library.PyText
