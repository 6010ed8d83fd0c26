import Kumf.Library.CText
import Kumf.Library.PyFloat

/-! Python's `int` on a text: blanks around it, a sign, a base prefix, digits of any script, and
single underscores between digits.
-/

namespace Kumf.Library.PyText

/-- A decimal digit of any script as an ASCII digit. -/
def asciiDigit (c : Char) : Char :=
  match decimal? c with
  | some digit => digit.digitChar
  | none => c

/-- The optional prefix of a hexadecimal literal, with an underscore behind it. -/
def dropBasePrefix : List Char → List Char
  | '0' :: c :: rest =>
      if c = 'x' ∨ c = 'X' then
        match rest with
        | '_' :: digits => digits
        | digits => digits
      else
        '0' :: c :: rest
  | text => text

/-- Digits in groups separated by single underscores. -/
def digitGroups (base : Nat) (text : List Char) : Option Nat :=
  let groups := text.splitOn '_'
  if groups.all (fun group => group ≠ [] && group.all (isDigitOf base)) then
    some (numeralValue base groups.flatten)
  else
    none

/-- `int(text, base)` for base 10 or 16; `none` is a `ValueError`. -/
def parseInt (base : Nat) (text : List Char) : Option Int :=
  let (negative, text) := splitSign ((strip text).map asciiDigit)
  let text := if base = 16 then dropBasePrefix text else text
  (digitGroups base text).map (fun value => if negative then -(value : Int) else value)

/-- The characters that print a number are digits, in the sense of every reader. -/
theorem isDigitOf_hex {c : Char} (digit : isDigitOf 16 c = true)
    : (48 ≤ c.toNat ∧ c.toNat ≤ 57) ∨ (97 ≤ c.toNat ∧ c.toNat ≤ 102)
      ∨ (65 ≤ c.toNat ∧ c.toNat ≤ 70) := by
  rw [isDigitOf, decide_eq_true_eq, digitValue] at digit
  split_ifs at digit with decimal lower upper
  · exact .inl decimal
  · exact .inr (.inl (by omega))
  · exact .inr (.inr (by omega))
  · omega

theorem isSpace_hex {c : Char} (digit : isDigitOf 16 c = true) : isSpace c = false := by
  have range := isDigitOf_hex digit
  simp only [isSpace, Bool.or_eq_false_iff, Bool.and_eq_false_iff, decide_eq_false_iff_not]
  omega

theorem isDigitOf_hex_of_ten {c : Char} (digit : isDigitOf 10 c = true)
    : isDigitOf 16 c = true := by
  rw [isDigitOf, decide_eq_true_eq] at digit ⊢
  omega

/-- Reading digits as ASCII does not change ASCII digits and letters. -/
theorem asciiDigit_hex {c : Char} (digit : isDigitOf 16 c = true) : asciiDigit c = c := by
  unfold asciiDigit
  by_cases ten : isDigitOf 10 c = true
  · have range := isDigitOf_ten_iff.mp ten
    rw [decimal?_digit ten]
    have value : digitValue c = c.toNat - 48 := by rw [digitValue, if_pos range]
    dsimp only
    rw [value]
    obtain ⟨low, high⟩ := range
    have same : c = Char.ofNat c.toNat := (Char.ofNat_toNat c).symm
    generalize c.toNat = n at low high same
    subst same
    interval_cases n <;> rfl
  · have letters : (97 ≤ c.toNat ∧ c.toNat ≤ 102) ∨ (65 ≤ c.toNat ∧ c.toNat ≤ 70) :=
      (isDigitOf_hex digit).resolve_left (fun decimal => ten (isDigitOf_ten_iff.mpr decimal))
    have none : decimal? c = none := by
      unfold decimal?
      generalize c.toNat = n at letters
      rcases letters with ⟨low, high⟩ | ⟨low, high⟩ <;> interval_cases n <;> rfl
    rw [none]

/-- Stripping leaves a text that does not start or end with a blank. -/
theorem strip_eq {text : List Char} (first : ∀ c ∈ text.head?, isSpace c = false)
    (last : ∀ c ∈ text.getLast?, isSpace c = false)
    : strip text = text := by
  have front : text.dropWhile isSpace = text := by
    cases text with
    | nil => rfl
    | cons c text => exact List.dropWhile_cons_of_neg (by simp [first c rfl])
  rw [strip, front]
  refine List.rdropWhile_eq_self_iff.mpr (fun nonempty => ?_)
  simp [last _ (List.getLast?_eq_getLast_of_ne_nil nonempty)]

theorem isDigitOf_hex_of_numeral {base : Nat} (bound : base = 10 ∨ base = 16)
    (numeral : Numeral base)
    : ∀ c ∈ numeral.digits, isDigitOf 16 c = true := by
  intro c member
  rcases bound with rfl | rfl
  · exact isDigitOf_hex_of_ten (numeral.valid c member)
  · exact numeral.valid c member

theorem digitGroups_numeral {base : Nat} (bound : base = 10 ∨ base = 16)
    (numeral : Numeral base)
    : digitGroups base numeral.digits = some numeral.value := by
  have noUnderscore : '_' ∉ numeral.digits := by
    intro member
    exact absurd (isDigitOf_hex_of_numeral bound numeral '_' member) (by decide)
  have whole := List.splitOn_eq_singleton noUnderscore
  have valid : numeral.digits.all (isDigitOf base) = true := List.all_eq_true.mpr numeral.valid
  simp [digitGroups, whole, numeral.nonempty, valid, Numeral.value]

/-- A numeral behind an optional sign reads as the number. -/
theorem parseInt_signed {base : Nat} (bound : base = 10 ∨ base = 16) (numeral : Numeral base)
    (negative : Bool)
    : parseInt base ((if negative then ['-'] else []) ++ numeral.digits)
      = some (if negative then -(numeral.value : Int) else numeral.value) := by
  have hexadecimal := isDigitOf_hex_of_numeral bound numeral
  have visible (c : Char) (member : c ∈ (if negative then ['-'] else []) ++ numeral.digits)
      : isSpace c = false ∧ asciiDigit c = c := by
    rcases List.mem_append.mp member with sign | digit
    · cases negative with
      | true =>
          rw [List.mem_singleton.mp sign]
          exact ⟨rfl, rfl⟩
      | false => cases sign
    · exact ⟨isSpace_hex (hexadecimal c digit), asciiDigit_hex (hexadecimal c digit)⟩
  have stripped := strip_eq
    (fun c first => (visible c (List.mem_of_mem_head? first)).1)
    (fun c last => (visible c (List.mem_of_getLast? last)).1)
  have same : ((if negative then ['-'] else []) ++ numeral.digits).map asciiDigit
      = (if negative then ['-'] else []) ++ numeral.digits :=
    (List.map_congr_left (fun c member => (visible c member).2)).trans (List.map_id _)
  obtain ⟨first, rest, digits⟩ := List.exists_cons_of_ne_nil numeral.nonempty
  have firstDigit := isDigitOf_hex (hexadecimal first (by simp [digits]))
  have sign : splitSign ((if negative then ['-'] else []) ++ numeral.digits)
      = (negative, numeral.digits) := by
    cases negative with
    | true => rfl
    | false =>
        have notMinus : first ≠ '-' := by rintro rfl; simp at firstDigit
        have notPlus : first ≠ '+' := by rintro rfl; simp at firstDigit
        simp [splitSign, digits, notMinus, notPlus]
  have unprefixed : dropBasePrefix numeral.digits = numeral.digits := by
    rw [digits]
    unfold dropBasePrefix
    split
    case h_1 c others same =>
        obtain ⟨rfl, rfl⟩ := List.cons.inj same
        have second := isDigitOf_hex (hexadecimal c (by simp [digits]))
        have notX : ¬ (c = 'x' ∨ c = 'X') := by
          rintro (rfl | rfl) <;> simp at second
        rw [if_neg notX]
    case h_2 => rfl
  unfold parseInt
  rw [stripped, same, sign]
  dsimp only
  rw [unprefixed, ite_self, digitGroups_numeral bound]
  rfl

/-- Reading a printed integer gives it back. -/
theorem parseInt_str (n : Int) : parseInt 10 (str n) = some n := by
  have read := parseInt_signed (.inl rfl) (Numeral.dec n.natAbs) (decide (n < 0))
  rw [Numeral.value_dec] at read
  rcases lt_or_ge n 0 with negative | positive
  · have sign : -(n.natAbs : Int) = n := by omega
    simpa only [str, negative, decide_true, if_true, List.singleton_append, Numeral.dec,
      sign] using read
  · have notNegative : ¬ n < 0 := not_lt.mpr positive
    have sign : (n.natAbs : Int) = n := by omega
    simpa only [str, notNegative, decide_false, Bool.false_eq_true, if_false, List.nil_append,
      Numeral.dec, sign] using read

theorem parseInt_toDigits (n : Nat) : parseInt 10 (Nat.toDigits 10 n) = some (n : Int) := by
  have printed : str n = Nat.toDigits 10 n := if_neg (by omega)
  rw [← printed, parseInt_str]

theorem parseInt_hexDigits (n : Nat) : parseInt 16 (Nat.toDigits 16 n) = some (n : Int) := by
  have digits : ∀ c ∈ Nat.toDigits 16 n, isDigitOf 16 c = true :=
    isDigitOf_toDigits (by omega) (by omega) n
  have read := parseInt_signed (.inr rfl) ⟨Nat.toDigits 16 n, Nat.toDigits_ne_nil, digits⟩ false
  simpa [Numeral.value, numeralValue_toDigits] using read

/-- Reading a `hex` text gives the number back. -/
theorem parseInt_hex (n : Nat) : parseInt 16 (hex n) = some (n : Int) := by
  have digits : ∀ c ∈ Nat.toDigits 16 n, isDigitOf 16 c = true :=
    isDigitOf_toDigits (by omega) (by omega) n
  have visible : ∀ c ∈ hex n, isSpace c = false ∧ asciiDigit c = c := by
    intro c member
    rcases List.mem_append.mp member with inPrefix | digit
    · rcases List.mem_cons.mp inPrefix with rfl | inRest
      · exact ⟨rfl, rfl⟩
      · rw [List.mem_singleton.mp inRest]
        exact ⟨rfl, rfl⟩
    · exact ⟨isSpace_hex (digits c digit), asciiDigit_hex (digits c digit)⟩
  have stripped := strip_eq
    (fun c first => (visible c (List.mem_of_mem_head? first)).1)
    (fun c last => (visible c (List.mem_of_getLast? last)).1)
  have same : (hex n).map asciiDigit = hex n :=
    (List.map_congr_left (fun c member => (visible c member).2)).trans (List.map_id _)
  have unprefixed : dropBasePrefix (hex n) = Nat.toDigits 16 n := by
    rw [hex]
    change (match Nat.toDigits 16 n with
      | '_' :: digits => digits
      | digits => digits) = Nat.toDigits 16 n
    split
    case h_1 rest starts =>
        exact absurd (digits '_' (by simp [starts])) (by decide)
    case h_2 => rfl
  have groups := digitGroups_numeral (.inr rfl) ⟨Nat.toDigits 16 n, Nat.toDigits_ne_nil, digits⟩
  have sign : splitSign (hex n) = (false, hex n) := rfl
  unfold parseInt
  rw [stripped, same, sign]
  dsimp only
  rw [if_pos rfl, unprefixed, groups]
  simp [Numeral.value, numeralValue_toDigits]

end Kumf.Library.PyText
