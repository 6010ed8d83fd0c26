import Kumf.Interc.SizeForms
import Mathlib.Data.List.Forall2

/-! Whole configuration files of size rules: the table that the loop of `load_rules` leaves,
and exactly which files it loads as documented.
-/

namespace Kumf.Interc

open Kumf.Library

/-- The rule that one line of a file really adds. -/
def SizeLine.kept (line : SizeLine) : Option SizeRule :=
  match line.form with
  | .range low high => some ⟨low.value, high.value, (truncate line.node).value⟩
  | _ => none

/-- A chunk of the file that holds one line, with or without its newline. -/
def IsChunkOf (line : SizeLine) (chunk : List Char) : Prop :=
  ∃ ending, (ending = [] ∨ ending = ['\n']) ∧ chunk = line.text ++ ending

theorem Numeral.newline_not_mem (numeral : Numeral 10) : '\n' ∉ numeral.digits := by
  intro member
  exact absurd (numeral.valid '\n' member) (by decide)

theorem SizeLine.newline_not_mem (line : SizeLine) : '\n' ∉ line.text := by
  have word : '\n' ∉ line.form.word.toList := by
    cases line.form <;> simp [SizeForm.word]
  have bounds : '\n' ∉ line.form.bounds := by
    cases line.form <;> simp [SizeForm.bounds, Numeral.newline_not_mem]
  simp [SizeLine.text, SizeForm.text, word, bounds, line.plain, Numeral.newline_not_mem]

theorem SizeLine.text_length (line : SizeLine) : line.text.length < 511 := line.short

theorem SizeLine.text_ne_nil (line : SizeLine) : line.text ≠ [] := by
  simp [SizeLine.text]

/-- One turn of the loop on a size line, by the two form lemmas. -/
theorem loadLine_sizeLine (line : SizeLine) {chunk : List Char} (stale : List Char)
    (tables : RuleTables) (isChunk : IsChunkOf line chunk)
    (room : tables.sizeRules.length < maxNameRules)
    : (loadLine tables (fgetsStore stale chunk)).sizeRules
      = tables.sizeRules ++ line.kept.toList := by
  obtain ⟨ending, newline, rfl⟩ := isChunk
  have boundary := line.isComment.boundary ending newline
  have valid := line.valid
  have unchanged (threshold : Numeral 10) (isGt : line.form.bounds = threshold.digits)
      (isThreshold : line.form.word = "size_gt:" ∨ line.form.word = "size_lt:")
      : (loadLine tables (fgetsStore stale (line.text ++ ending))).sizeRules
        = tables.sizeRules := by
    have whole : fgetsStore stale (line.text ++ ending)
        = line.form.word.toList ++ (threshold.digits
          ++ (" = ".toList ++ (line.node.digits ++ (line.comment ++ ending))
            ++ nul :: stale.drop ((line.text ++ ending).length + 1))) := by
      simp [fgetsStore, SizeLine.text, SizeForm.text, isGt]
    have word := isThreshold.imp (congrArg String.toList) (congrArg String.toList)
    exact loadLine_threshold line.form.word.toList threshold tables word whole
  cases form : line.form with
  | gt threshold =>
      rw [unchanged threshold (by rw [form]; rfl) (by rw [form]; exact Or.inl rfl)]
      simp [SizeLine.kept, form]
  | lt threshold =>
      rw [unchanged threshold (by rw [form]; rfl) (by rw [form]; exact Or.inr rfl)]
      simp [SizeLine.kept, form]
  | range low high =>
      simp only [form, SizeForm.Valid] at valid
      obtain ⟨_, order, highFits⟩ := valid
      have lowFits := Nat.lt_trans order highFits
      have whole : line.text ++ ending
          = "size_range:".toList
            ++ ((low.digits ++ '-' :: high.digits)
              ++ (" = ".toList ++ (line.node.digits ++ (line.comment ++ ending)))) := by
        simp [SizeLine.text, form, SizeForm.text, SizeForm.word, SizeForm.bounds]
      obtain ⟨word, number, stored⟩ := loadLine_range low high line.node stale tables
        lowFits highFits line.nodeFits boundary whole
      rw [stored, RuleTables.addSizeRule_of_room room, number]
      simp [SizeLine.kept, form]

/-- The whole loop over the chunks of a file of size lines, by induction on the lines. The
rule count stays below the table size, so no line is dropped for want of room.
-/
theorem loadChunks_sizeLines {lines : List SizeLine} {chunks : List (List Char)}
    (stale : List Char) (tables : RuleTables) (matching : List.Forall₂ IsChunkOf lines chunks)
    (room : tables.sizeRules.length + lines.length ≤ maxNameRules)
    : (chunks.foldl loadChunk (stale, tables)).2.sizeRules
      = tables.sizeRules ++ lines.filterMap SizeLine.kept := by
  induction matching generalizing stale tables with
  | nil => simp
  | @cons line chunk lines chunks isChunk rest ih =>
      rw [List.length_cons] at room
      have stored := loadLine_sizeLine line stale tables isChunk (by omega)
      have kept : line.kept.toList.length ≤ 1 := by
        cases line.kept <;> simp
      have tail := ih (fgetsStore stale chunk) (loadLine tables (fgetsStore stale chunk))
        (by rw [stored, List.length_append]; omega)
      rw [List.foldl_cons, loadChunk, tail, stored, List.filterMap_cons]
      cases line.kept <;> simp

/-- The file is read line by line, since every line fits the buffer. -/
theorem FileOf.chunks {lines : List SizeLine} {text : List Char} (file : FileOf lines text)
    : List.Forall₂ IsChunkOf lines (fgetsAll lineSize text) := by
  have closed (some : List SizeLine)
      : List.Forall₂ IsChunkOf some
          ((some.map SizeLine.text).map (fun line => line ++ ['\n'])) := by
    induction some with
    | nil => exact .nil
    | cons line rest ih => exact .cons ⟨['\n'], Or.inr rfl, rfl⟩ ih
  have read (some : List SizeLine) (rest : List Char)
      : fgetsAll lineSize (some.flatMap (fun line => line.text ++ ['\n']) ++ rest)
        = (some.map SizeLine.text).map (fun line => line ++ ['\n'])
          ++ fgetsAll lineSize rest := by
    rw [← fgetsAll_lines, List.flatMap_map]
    · intro line member
      obtain ⟨sizeLine, _, rfl⟩ := List.mem_map.mp member
      exact sizeLine.newline_not_mem
    · intro line member
      obtain ⟨sizeLine, _, rfl⟩ := List.mem_map.mp member
      exact sizeLine.text_length
  rcases file with same | same
  · have all := read lines []
    rw [List.append_nil, ← same] at all
    rw [all]
    simpa [fgetsAll, fgetsLoop] using closed lines
  · rcases List.eq_nil_or_concat lines with rfl | ⟨front, last, rfl⟩
    · simp at same
    · have content : text
          = front.flatMap (fun line => line.text ++ ['\n']) ++ last.text := by
        rw [List.concat_eq_append, List.flatMap_append, List.flatMap_singleton,
          ← List.append_assoc] at same
        exact List.append_cancel_right same
      rw [content, read, fgetsAll_last last.newline_not_mem
        (Nat.le_of_lt last.text_length) last.text_ne_nil, List.concat_eq_append]
      exact List.rel_append (closed front) (.cons ⟨[], Or.inl rfl, by simp⟩ .nil)

/-- The size table after `load_rules` of a file of at most 256 size lines. -/
theorem loadRules_sizeRules {lines : List SizeLine} {text : List Char} (stale : List Char)
    (file : FileOf lines text) (few : lines.length ≤ 256)
    : (loadRules stale (some text) .initial).tables.sizeRules
      = lines.filterMap SizeLine.kept := by
  have loaded := loadChunks_sizeLines stale {} file.chunks (by simpa [maxNameRules] using few)
  simpa [loadRules, loadText, RuleState.initial] using loaded

-----------------------------------------------------------------------------------------
-- The first rule that covers a size is the first line that contains it
-----------------------------------------------------------------------------------------

theorem SizeForm.covers_rule {form : SizeForm} (valid : form.Valid) (node sz : Nat)
    : (form.rule node).covers sz = decide (form.Interval sz) := by
  rw [Bool.eq_iff_iff, SizeRule.covers_iff, decide_eq_true_iff]
  cases form with
  | gt threshold =>
      simp only [SizeForm.rule, SizeForm.Interval, true_or, and_true]
      exact or_iff_right (Nat.ne_of_gt valid.1)
  | lt threshold =>
      simp only [SizeForm.rule, SizeForm.Interval, true_or, true_and]
      exact or_iff_right (Nat.ne_of_gt valid.1)
  | range low high =>
      have highPos := Nat.lt_trans valid.1 valid.2.1
      simp only [SizeForm.rule, SizeForm.Interval]
      exact and_congr (or_iff_right (Nat.ne_of_gt valid.1))
        (or_iff_right (Nat.ne_of_gt highPos))

/-- With one rule per line, the first covering rule is the first containing line. -/
theorem matchSize_rules (lines : List SizeLine) (sz : Nat)
    : matchSize (lines.map SizeLine.rule) sz
      = match lines.find? (fun line => line.form.Interval sz) with
        | some line => line.node.value
        | none => -1 := by
  induction lines with
  | nil => rfl
  | cons line lines ih =>
      simp only [List.map_cons, matchSize, List.find?_cons, SizeLine.rule,
        SizeForm.covers_rule line.valid]
      cases decided : decide (line.form.Interval sz) with
      | true =>
          simp only [if_true]
          cases line.form <;> rfl
      | false => simpa [SizeLine.rule] using ih

theorem kept_eq_rule_iff (line : SizeLine)
    : line.kept = some line.rule
      ↔ line.form.IsRange ∧ (line.node.digits.length ≤ 31 ∨ line.node.value = 0) := by
  rw [← truncate_value_eq_iff]
  cases form : line.form <;>
    simp [SizeLine.kept, SizeLine.rule, SizeForm.rule, SizeForm.IsRange, form]

/-- A partial selection keeps every element only by selecting each one. -/
theorem filterMap_eq_map_iff {α β : Type} (select : α → Option β) (image : α → β)
    (elements : List α)
    : elements.filterMap select = elements.map image
      ↔ ∀ element ∈ elements, select element = some (image element) := by
  constructor
  · intro same
    induction elements with
    | nil => simp
    | cons first rest ih =>
        cases chosen : select first with
        | none =>
            have lengths := congrArg List.length same
            have bound := List.length_filterMap_le select rest
            simp only [List.filterMap_cons, chosen, List.length_map, List.length_cons]
              at lengths
            omega
        | some value =>
            simp only [List.filterMap_cons, chosen, List.map_cons, List.cons.injEq] at same
            simpa [chosen, same.1] using ih same.2
  · intro each
    induction elements with
    | nil => rfl
    | cons first rest ih =>
        simp [each first (by simp), ih (fun element member => each element (by simp [member]))]

/-- `load_rules` keeps every line of a file of size rules, and `match_size` answers with the
first line that contains the size, exactly when the file has no threshold line and no node
column longer than the 31 characters read of it (unless it is all zeros).
-/
theorem loadRules_keepsEveryLine_iff {lines : List SizeLine} {text : List Char}
    (stale : List Char) (file : FileOf lines text) (few : lines.length ≤ 256)
    : KeepsEveryLine lines (loadRules stale (some text) .initial).tables
      ↔ ∀ line ∈ lines,
          line.form.IsRange ∧ (line.node.digits.length ≤ 31 ∨ line.node.value = 0) := by
  have table := loadRules_sizeRules stale file few
  simp only [← kept_eq_rule_iff, ← filterMap_eq_map_iff]
  constructor
  · intro keeps
    rw [← table]
    exact keeps.1
  · intro kept
    rw [KeepsEveryLine, table, kept]
    exact ⟨rfl, matchSize_rules lines⟩

/-- A documented threshold rule: `size_gt:4096 = 1`. -/
def thresholdLine : SizeLine where
  form := .gt (.dec 4096)
  node := .dec 1
  comment := []
  valid := by simp [SizeForm.Valid]
  nodeFits := by simp
  isComment := Or.inl rfl
  plain := by simp
  short := by decide

/-- The threshold rule is not loaded at all: it lands among the name rules. -/
theorem loadRules_thresholdLine_lost
    : FileOf [thresholdLine] "size_gt:4096 = 1\n".toList
      ∧ ¬ KeepsEveryLine [thresholdLine]
          (loadRules [] (some "size_gt:4096 = 1\n".toList) .initial).tables := by
  refine ⟨Or.inl (by decide), fun keeps => ?_⟩
  exact absurd keeps.1 (by decide)

/-- A documented range rule: `size_range:4096-8192 = 1  # HOT`. -/
def rangeLine : SizeLine where
  form := .range (.dec 4096) (.dec 8192)
  node := .dec 1
  comment := "  # HOT".toList
  valid := by simp [SizeForm.Valid]
  nodeFits := by simp
  isComment := Or.inr ⟨[' ', ' '], " HOT".toList, rfl, by simp⟩
  plain := by decide
  short := by decide

theorem loadRules_rangeLine_kept
    : KeepsEveryLine [rangeLine]
        (loadRules [] (some "size_range:4096-8192 = 1  # HOT".toList) .initial).tables :=
  (loadRules_keepsEveryLine_iff [] (Or.inr (by decide)) (by decide)).mpr (by
    intro line member
    rw [List.mem_singleton.mp member]
    exact ⟨trivial, Or.inl (by decide)⟩)

end Kumf.Interc
