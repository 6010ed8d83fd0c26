import Kumf.Interc.Rules

/-! Configuration files made of size rules only: what `load_rules` keeps of each form, and
what `match_size` then answers.
-/

namespace Kumf.Interc

open Kumf.Library

/-- The three documented forms of a size rule, with the bounds as written. -/
inductive SizeForm where
  | gt (threshold : Numeral 10)
  | lt (threshold : Numeral 10)
  | range (low high : Numeral 10)

/-- The bounds are positive, fit `size_t`, and a range is not empty. -/
def SizeForm.Valid : SizeForm → Prop
  | .gt threshold => 0 < threshold.value ∧ threshold.value < 2 ^ 64
  | .lt threshold => 0 < threshold.value ∧ threshold.value < 2 ^ 64
  | .range low high => 0 < low.value ∧ low.value < high.value ∧ high.value < 2 ^ 64

def SizeForm.word : SizeForm → String
  | .gt _ => "size_gt:"
  | .lt _ => "size_lt:"
  | .range _ _ => "size_range:"

def SizeForm.bounds : SizeForm → List Char
  | .gt threshold => threshold.digits
  | .lt threshold => threshold.digits
  | .range low high => low.digits ++ '-' :: high.digits

def SizeForm.text (form : SizeForm) : List Char := form.word.toList ++ form.bounds

/-- The interval that a form documents: `[T,inf)`, `[0,T)` or `[L,H)`. -/
def SizeForm.Interval : SizeForm → Nat → Prop
  | .gt threshold, sz => threshold.value ≤ sz
  | .lt threshold, sz => sz < threshold.value
  | .range low high, sz => low.value ≤ sz ∧ sz < high.value

instance (form : SizeForm) (sz : Nat) : Decidable (form.Interval sz) := by
  cases form <;> unfold SizeForm.Interval <;> infer_instance

/-- The rule record that stands for a form: 0 marks the open side. -/
def SizeForm.rule (form : SizeForm) (node : Nat) : SizeRule :=
  match form with
  | .gt threshold => ⟨threshold.value, 0, node⟩
  | .lt threshold => ⟨0, threshold.value, node⟩
  | .range low high => ⟨low.value, high.value, node⟩

def SizeForm.IsRange : SizeForm → Prop
  | .range _ _ => True
  | _ => False

/-- A trailing comment: nothing, or blanks and a `#` with any text behind it. -/
def IsComment (comment : List Char) : Prop :=
  comment = []
  ∨ ∃ blanks text, comment = blanks ++ '#' :: text ∧ ∀ c ∈ blanks, c = ' ' ∨ c = '\t'

/-- One size rule line of a configuration file. -/
structure SizeLine where
  form : SizeForm
  node : Numeral 10
  comment : List Char
  valid : form.Valid
  nodeFits : node.value < 2 ^ 31
  isComment : IsComment comment
  plain : '\n' ∉ comment
  short : (form.text ++ (" = ".toList ++ (node.digits ++ comment))).length < 511

def SizeLine.text (line : SizeLine) : List Char :=
  line.form.text ++ (" = ".toList ++ (line.node.digits ++ line.comment))

def SizeLine.rule (line : SizeLine) : SizeRule := line.form.rule line.node.value

/-- A file holds the lines in order; its last newline may be missing. -/
def FileOf (lines : List SizeLine) (text : List Char) : Prop :=
  let joined := lines.flatMap (fun line => line.text ++ ['\n'])
  text = joined ∨ text ++ ['\n'] = joined

/-- What loading such a file is for: one rule per line, and the first line whose interval
contains a size decides it.
-/
def KeepsEveryLine (lines : List SizeLine) (tables : RuleTables) : Prop :=
  tables.sizeRules = lines.map SizeLine.rule
  ∧ ∀ sz,
      matchSize tables.sizeRules sz
      = match lines.find? (fun line => line.form.Interval sz) with
        | some line => line.node.value
        | none => -1

-----------------------------------------------------------------------------------------
-- The node column keeps 31 characters
-----------------------------------------------------------------------------------------

/-- The leading digits that a `%31s` column keeps. -/
def truncate (numeral : Numeral 10) : Numeral 10 where
  digits := numeral.digits.take 31
  nonempty := by simp [numeral.nonempty]
  valid := fun c member => numeral.valid c (List.mem_of_mem_take member)

theorem truncate_value (numeral : Numeral 10)
    : (truncate numeral).value = numeral.value / 10 ^ (numeral.digits.drop 31).length :=
  numeralValue_take 31 numeral.valid

/-- Dropping digits keeps the value only of a short numeral or of zero. -/
theorem truncate_value_eq_iff (numeral : Numeral 10)
    : (truncate numeral).value = numeral.value
      ↔ numeral.digits.length ≤ 31 ∨ numeral.value = 0 := by
  rw [truncate_value, Nat.div_eq_self, List.length_drop]
  constructor
  · rintro (zero | one)
    · exact Or.inr zero
    · refine Or.inl (Nat.sub_eq_zero_iff_le.mp ?_)
      exact (Nat.pow_eq_one.mp one).resolve_left (by omega)
  · rintro (short | zero)
    · exact Or.inr (by rw [Nat.sub_eq_zero_of_le short, Nat.pow_zero])
    · exact Or.inl zero

/-- A comment, with or without the newline, does not continue the number before it. -/
theorem IsComment.boundary {comment : List Char} (isComment : IsComment comment)
    (ending : List Char) (newline : ending = [] ∨ ending = ['\n'])
    : ∀ c ∈ (cString (comment ++ ending)).head?, isDigitOf 10 c = false := by
  intro c found
  have first : (comment ++ ending).head? = some c := by
    cases whole : comment ++ ending with
    | nil => simp [whole, cString] at found
    | cons d rest =>
        simp only [whole, cString, List.takeWhile_cons] at found
        split at found <;> simp_all
  rcases isComment with rfl | ⟨blanks, text, rfl, blank⟩
  · rcases newline with rfl | rfl
    · simp at first
    · simp only [List.nil_append, List.head?_cons, Option.some.injEq] at first
      exact first ▸ rfl
  · cases blanks with
    | nil =>
        simp only [List.nil_append, List.cons_append, List.head?_cons, Option.some.injEq]
          at first
        exact first ▸ rfl
    | cons d blanks =>
        simp only [List.cons_append, List.head?_cons, Option.some.injEq] at first
        subst first
        rcases blank d (by simp) with rfl | rfl <;> rfl

/-- The node column of a line: a number that fits, cut to 31 characters. -/
theorem nodeOf_column (numeral : Numeral 10) {rest : List Char}
    (fits : numeral.value < 2 ^ 31)
    (boundary : ∀ c ∈ rest.head?, isDigitOf 10 c = false)
    : ∃ word,
        sscanf [.blank, .word 31] (' ' :: (numeral.digits ++ rest)) = [.str word]
        ∧ nodeOf word = (truncate numeral).value := by
  have nonblank : ∀ c ∈ (truncate numeral).digits, (!isCSpace c) = true := by
    intro c member
    simp [(isDigitOf_ten_ne ((truncate numeral).valid c member)).1]
  let more := (rest.take (31 - numeral.digits.length)).takeWhile (fun c => !isCSpace c)
  have column : ((numeral.digits ++ rest).take 31).takeWhile (fun c => !isCSpace c)
      = (truncate numeral).digits ++ more := by
    rw [List.take_append]
    exact List.takeWhile_append_of_pos nonblank
  have stop : ∀ c ∈ more.head?, isDigitOf 10 c = false := by
    intro c found
    refine boundary c ?_
    cases rest with
    | nil => simp [more] at found
    | cons d rest =>
        cases room : 31 - numeral.digits.length with
        | zero => simp [more, room] at found
        | succ room =>
            simp only [more, room, List.take_succ_cons, List.takeWhile_cons] at found
            split at found <;> simp_all
  have smaller : (truncate numeral).value < 2 ^ 31 := by
    rw [truncate_value]
    exact Nat.lt_of_le_of_lt (Nat.div_le_self _ _) fits
  have number := atoi_numeral (truncate numeral) stop smaller
  have notLocal : (truncate numeral).digits ++ more ≠ "local".toList := by
    intro same
    cases whole : (truncate numeral).digits with
    | nil => exact (truncate numeral).nonempty whole
    | cons c digits =>
        rw [whole] at same
        have digit := (truncate numeral).valid c (by simp [whole])
        rw [(List.cons.inj same).1] at digit
        exact absurd digit (by decide)
  refine ⟨(truncate numeral).digits ++ more, ?_, ?_⟩
  · have skip : (' ' :: (numeral.digits ++ rest)).dropWhile isCSpace
        = numeral.digits ++ rest := by
      rw [List.dropWhile_cons_of_pos (by decide), (numeral.leading rest).1]
    simp only [sscanf, skip, (numeral.leading rest).1, column]
    simp [(truncate numeral).nonempty]
  · simp only [nodeOf, notLocal, if_false, number]

-----------------------------------------------------------------------------------------
-- A threshold line reaches no size branch, a range line does
-----------------------------------------------------------------------------------------

theorem loadOtherForm_sizeRules {line : List Char} (tables : RuleTables)
    (notGt : strncmpEq line "size_gt:".toList 9 = false)
    (notLt : strncmpEq line "size_lt:".toList 9 = false)
    (notRange : strncmpEq line "size_range:".toList 11 = false)
    : (loadOtherForm tables line).sizeRules = tables.sizeRules := by
  simp only [loadOtherForm, notGt, notLt, notRange, Bool.false_eq_true, if_false]
  split
  · split <;> rfl
  · rfl

theorem loadLine_of_letter {line rest : List Char} (tables : RuleTables)
    (letter : line = 's' :: rest)
    : loadLine tables line = loadOtherForm tables line := by
  have noAddr : sscanf addrFormat (cString line) = [] := by
    subst letter
    rfl
  have keep : ¬ (line.head? = some '#' ∨ line.head? = some '\n') := by
    simp [letter]
  simp only [loadLine, keep, if_false, noAddr]

/-- A threshold line misses all three prefix tests: the ninth character compared is the
NUL of the prefix, and the line has a digit there. It ends up among the name rules.
-/
theorem loadLine_threshold {line rest : List Char} (word : List Char)
    (threshold : Numeral 10) (tables : RuleTables)
    (isThreshold : word = "size_gt:".toList ∨ word = "size_lt:".toList)
    (whole : line = word ++ (threshold.digits ++ rest))
    : (loadLine tables line).sizeRules = tables.sizeRules := by
  obtain ⟨c, digits, first⟩ := List.exists_cons_of_ne_nil threshold.nonempty
  have notNul : c ≠ Char.ofNat 0 := digit_ne_nul (threshold.valid c (by simp [first]))
  have content : cString line = word ++ c :: cString (digits ++ rest) := by
    have plain : nul ∉ word ++ [c] := by
      rcases isThreshold with rfl | rfl <;> simpa [nul, eq_comm] using notNul
    simpa [whole, first] using cString_append (digits ++ rest) plain
  have letter : ∃ more, line = 's' :: more := by
    rcases isThreshold with rfl | rfl <;> exact ⟨_, whole⟩
  obtain ⟨more, letter⟩ := letter
  rw [loadLine_of_letter tables letter]
  have notGt : strncmpEq line "size_gt:".toList 9 = false := by
    rcases isThreshold with rfl | rfl
    · exact strncmpEq_of_ne 8 (by omega) (by rw [content]; simpa [cString, nul] using notNul)
    · exact strncmpEq_of_ne 5 (by omega) (by rw [content]; simp [cString, nul])
  have notLt : strncmpEq line "size_lt:".toList 9 = false := by
    rcases isThreshold with rfl | rfl
    · exact strncmpEq_of_ne 5 (by omega) (by rw [content]; simp [cString, nul])
    · exact strncmpEq_of_ne 8 (by omega) (by rw [content]; simpa [cString, nul] using notNul)
  have notRange : strncmpEq line "size_range:".toList 11 = false := by
    refine strncmpEq_of_ne 5 (by omega) ?_
    rw [content]
    rcases isThreshold with rfl | rfl <;> simp [cString, nul]
  exact loadOtherForm_sizeRules tables notGt notLt notRange

/-- A range line is recognised by its eleven-character prefix and stored with what the node
column reads.
-/
theorem loadLine_rangeColumn {chunk tail word : List Char} (low high : Numeral 10)
    (stale : List Char) (tables : RuleTables)
    (lowFits : low.value < 2 ^ 64) (highFits : high.value < 2 ^ 64)
    (column : sscanf [.blank, .word 31] (' ' :: cString tail) = [.str word])
    (whole : chunk
      = "size_range:".toList ++ ((low.digits ++ '-' :: high.digits) ++ (" = ".toList ++ tail)))
    : loadLine tables (fgetsStore stale chunk)
      = tables.addSizeRule low.value high.value word := by
  let columns := low.digits ++ '-' :: (high.digits ++ ' ' :: '=' :: ' ' :: cString tail)
  have behind : cString ((low.digits ++ '-' :: high.digits) ++ (" = ".toList ++ tail))
      = columns := by
    have plain : nul ∉ low.digits ++ '-' :: (high.digits ++ " = ".toList) := by
      simp only [List.mem_append, List.mem_cons, low.nul_not_mem, high.nul_not_mem, false_or,
        not_or]
      decide
    simpa [columns] using cString_append tail plain
  have content : cString (fgetsStore stale chunk) = "size_range:".toList ++ columns := by
    rw [cString_fgetsStore, whole, cString_append _ (by decide), behind]
  have rest : cString ((fgetsStore stale chunk).drop 11) = columns := by
    rw [cString_drop_fgetsStore stale (by simp [whole]), whole, ← behind]
    rfl
  have notGt : strncmpEq (fgetsStore stale chunk) "size_gt:".toList 9 = false :=
    strncmpEq_of_ne 5 (by omega) (by rw [content]; simp [cString, nul])
  have notLt : strncmpEq (fgetsStore stale chunk) "size_lt:".toList 9 = false :=
    strncmpEq_of_ne 5 (by omega) (by rw [content]; simp [cString, nul])
  have isRange : strncmpEq (fgetsStore stale chunk) "size_range:".toList 11 = true := by
    rw [strncmpEq, content]
    simp [cString, nul]
  have scanned : sscanf rangeFormat columns
      = [.num low.value, .num high.value, .str word] := by
    have equals : sscanf [.blank, .lit '=', .blank, .word 31] (' ' :: '=' :: ' ' :: cString tail)
        = [.str word] := by
      rw [← column]
      simp [sscanf, isCSpace]
    simp only [rangeFormat, columns]
    rw [sscanf_unsigned low _ (by simp [isDigitOf, digitValue]) lowFits, sscanf_lit,
      sscanf_unsigned high _ (by simp [isDigitOf, digitValue]) highFits, equals]
  rw [loadLine_of_letter tables (by rw [whole]; rfl)]
  simp only [loadOtherForm, notGt, notLt, isRange, rest, scanned, Bool.false_eq_true,
    if_false, if_true]

/-- A range line with a numeric node is stored as written, up to the 31 characters that the
node column keeps.
-/
theorem loadLine_range {chunk tail : List Char} (low high node : Numeral 10)
    (stale : List Char) (tables : RuleTables)
    (lowFits : low.value < 2 ^ 64) (highFits : high.value < 2 ^ 64)
    (nodeFits : node.value < 2 ^ 31)
    (boundary : ∀ c ∈ (cString tail).head?, isDigitOf 10 c = false)
    (whole : chunk
      = "size_range:".toList
        ++ ((low.digits ++ '-' :: high.digits) ++ (" = ".toList ++ (node.digits ++ tail))))
    : ∃ word,
        nodeOf word = (truncate node).value
        ∧ loadLine tables (fgetsStore stale chunk)
          = tables.addSizeRule low.value high.value word := by
  obtain ⟨word, column, number⟩ := nodeOf_column node nodeFits boundary
  rw [← cString_append tail node.nul_not_mem] at column
  exact ⟨word, number, loadLine_rangeColumn low high stale tables lowFits highFits column whole⟩

end Kumf.Interc
