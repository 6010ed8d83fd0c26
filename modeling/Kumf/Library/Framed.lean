import Kumf.Library.PyText

/-! Lines of words between blanks, inside other text without capital letters: what a search
for a pattern that starts with two capitals finds in such a line.
-/

namespace Kumf.Library

open Pattern PyText

def isCapital (c : Char) : Bool := 65 ≤ c.toNat && c.toNat ≤ 90

/-- A text without capital letters. -/
def Plain (text : List Char) : Prop := ∀ c ∈ text, isCapital c = false

/-- The space between two words of a line. -/
structure Blanks where
  text : List Char
  nonempty : text ≠ []
  blank : ∀ c ∈ text, isSpace c = true
  oneLine : '\n' ∉ text

def Blanks.single : Blanks := ⟨[' '], by simp, List.forall_mem_singleton.mpr rfl, by simp⟩

/-- What stands around the words of a line. -/
structure Frame where
  lead : List Char
  tail : List Char
  leadPlain : Plain lead
  tailPlain : Plain tail
  apart : ∀ c ∈ tail.head?, isSpace c = true

def Frame.none : Frame := ⟨[], [], by simp [Plain], by simp [Plain], by simp⟩

def Frame.wrap (frame : Frame) (text : List Char) : List Char :=
  frame.lead ++ (text ++ frame.tail)

/-- Words with blanks between them. -/
inductive Spaced : List (List Char) → List Char → Prop where
  | one (word : List Char) : Spaced [word] word
  | cons (word : List Char) (gap : Blanks) {words : List (List Char)} {text : List Char}
      (rest : Spaced words text) : Spaced (word :: words) (word ++ (gap.text ++ text))

/-- A line that consists of the given words inside a frame. -/
def Framed (words : List (List Char)) (line : List Char) : Prop :=
  ∃ (frame : Frame) (text : List Char), Spaced words text ∧ line = frame.wrap text

/-- A word is not empty and has no blanks. -/
structure Solid (word : List Char) : Prop where
  nonempty : word ≠ []
  solid : ∀ c ∈ word, isSpace c = false

theorem Solid.of_check {word : List Char}
    (checked : (!word.isEmpty && word.all (fun c => !isSpace c)) = true)
    : Solid word := by
  rw [Bool.and_eq_true] at checked
  exact ⟨by simpa using checked.1, by simpa using checked.2⟩

/-- Pairs of capital letters. -/
def Capitals (pairs : List (Char × Char)) : Prop :=
  ∀ pair ∈ pairs, isCapital pair.1 = true ∧ isCapital pair.2 = true

instance (pairs : List (Char × Char)) : Decidable (Capitals pairs) :=
  inferInstanceAs
    (Decidable (∀ pair ∈ pairs, isCapital pair.1 = true ∧ isCapital pair.2 = true))

theorem isCapital_of_isSpace {c : Char} (space : isSpace c = true) : isCapital c = false := by
  simp only [isSpace, Bool.or_eq_true, Bool.and_eq_true, decide_eq_true_eq] at space
  rw [isCapital, Bool.and_eq_false_iff, decide_eq_false_iff_not, decide_eq_false_iff_not]
  omega

theorem Blanks.plain (gap : Blanks) : Plain gap.text :=
  fun c member => isCapital_of_isSpace (gap.blank c member)

theorem Spaced.eq_of_one {word text : List Char} (spaced : Spaced [word] text)
    : text = word := by
  cases spaced with
  | one => rfl
  | cons _ _ rest => cases rest

/-- The first of several words stands in front of a gap. -/
theorem Spaced.split {word next text : List Char} {words : List (List Char)}
    (spaced : Spaced (word :: next :: words) text)
    : ∃ (gap : Blanks) (rest : List Char), Spaced (next :: words) rest
        ∧ text = word ++ (gap.text ++ rest) := by
  cases spaced with
  | cons _ gap rest => exact ⟨gap, _, rest, rfl⟩

/-- Words put in a row with single spaces. -/
theorem Spaced.intercalate {words : List (List Char)} (nonempty : words ≠ [])
    : Spaced words ([' '].intercalate words) := by
  induction words with
  | nil => exact absurd rfl nonempty
  | cons word words ih =>
      cases words with
      | nil =>
          have alone : [' '].intercalate [word] = word := by simp
          rw [alone]
          exact .one word
      | cons next words =>
          have rest : [' '].intercalate (word :: next :: words)
              = word ++ ([' '] ++ [' '].intercalate (next :: words)) := by
            simp [List.intercalate]
          rw [rest]
          exact .cons word .single (ih (by simp))

/-- A line of two words. -/
theorem Framed.two {word last line : List Char} (framed : Framed [word, last] line)
    : ∃ (frame : Frame) (gap : Blanks), line = frame.wrap (word ++ (gap.text ++ last)) := by
  obtain ⟨frame, text, spaced, rfl⟩ := framed
  obtain ⟨gap, rest, behind, rfl⟩ := spaced.split
  rw [behind.eq_of_one]
  exact ⟨frame, gap, rfl⟩

theorem Blanks.head (gap : Blanks) (rest : List Char)
    : ∀ c ∈ (gap.text ++ rest).head?, isSpace c = true := by
  intro c first
  rw [List.head?_append_of_ne_nil _ gap.nonempty] at first
  exact gap.blank c (List.mem_of_head? first)

theorem Solid.head {word : List Char} (solid : Solid word) (rest : List Char)
    : ∀ c ∈ (word ++ rest).head?, isSpace c = false := by
  intro c first
  rw [List.head?_append_of_ne_nil _ solid.nonempty] at first
  exact solid.solid c (List.mem_of_head? first)

section
variable {pairs : List (Char × Char)}

theorem Capitals.first_ne (capitals : Capitals pairs) {c : Char} (small : isCapital c = false)
    : ∀ pair ∈ pairs, pair.1 ≠ c := by
  intro pair member same
  have capital := (capitals pair member).1
  rw [same, small] at capital
  cases capital

theorem Capitals.second_ne (capitals : Capitals pairs) {c : Char} (small : isCapital c = false)
    : ∀ pair ∈ pairs, pair.2 ≠ c := by
  intro pair member same
  have capital := (capitals pair member).2
  rw [same, small] at capital
  cases capital

/-- A text without capitals has no pair of them. -/
theorem Plain.clear {text : List Char} (plain : Plain text) (capitals : Capitals pairs)
    : Clear pairs text :=
  clear_of_lacks (fun pair member =>
    .inl (fun inText => capitals.first_ne (plain _ inText) pair member rfl))

/-- A plain text in front brings no pair. -/
theorem Clear.plain_append {front back : List Char} (clear : Clear pairs back)
    (plain : Plain front) (capitals : Capitals pairs)
    : Clear pairs (front ++ back) := by
  refine (plain.clear capitals).append clear (.inl ?_)
  intro c last
  exact capitals.first_ne (plain c (List.mem_of_getLast? last))

/-- A plain text behind brings no pair. -/
theorem Clear.append_plain {front back : List Char} (clear : Clear pairs front)
    (plain : Plain back) (capitals : Capitals pairs)
    : Clear pairs (front ++ back) := by
  refine clear.append (plain.clear capitals) (.inr ?_)
  intro c first
  exact capitals.second_ne (plain c (List.mem_of_head? first))

/-- A blank keeps two words apart. -/
theorem Spaced.clear {words : List (List Char)} {text : List Char} (spaced : Spaced words text)
    (capitals : Capitals pairs) (clear : ∀ word ∈ words, Clear pairs word)
    : Clear pairs text := by
  induction spaced with
  | one word => exact clear word List.mem_cons_self
  | cons word gap rest ih =>
      have behind := ih (fun other member => clear other (List.mem_cons_of_mem word member))
      refine (clear word List.mem_cons_self).append
        (Clear.plain_append behind gap.plain capitals) (.inr ?_)
      intro c first
      exact capitals.second_ne (isCapital_of_isSpace (gap.head _ c first))

/-- A pattern that begins with a pair is not found in a line of words without it. -/
theorem Framed.search_none {α : Type} {pattern : Pattern α} {words : List (List Char)}
    {line : List Char} (framed : Framed words line) (starts : pattern.StartsWith pairs)
    (capitals : Capitals pairs) (clear : ∀ word ∈ words, Clear pairs word)
    : pattern.search line = none := by
  obtain ⟨frame, text, spaced, rfl⟩ := framed
  have inner := Clear.append_plain (spaced.clear capitals clear) frame.tailPlain capitals
  exact (Clear.plain_append inner frame.leadPlain capitals).search_none starts

/-- A match at the first word is found. -/
theorem search_wrap {α : Type} {pattern : Pattern α} (starts : pattern.StartsWith pairs)
    (capitals : Capitals pairs) (frame : Frame) {text rest : List Char} {captured : α}
    (found : (pattern (text ++ frame.tail)).head? = some (captured, rest))
    : pattern.search (frame.wrap text) = some captured := by
  rw [Frame.wrap, starts.search_append
    (fun c member => capitals.first_ne (frame.leadPlain c member))]
  exact search_of_head found

end

-----------------------------------------------------------------------------------------
-- A part without blanks lies inside one of the words
-----------------------------------------------------------------------------------------

/-- A part without the separator lies on one side of it. -/
theorem infix_append_cons {part front back : List Char} {separator : Char}
    (inside : part <:+: front ++ separator :: back) (absent : separator ∉ part)
    : part <:+: front ∨ part <:+: back := by
  obtain ⟨before, after, same⟩ := inside
  rcases List.append_eq_append_iff.mp same with ⟨middle, rfl, _⟩ | ⟨middle, start, rest⟩
  · exact .inl ⟨before, middle, rfl⟩
  · cases middle with
    | nil =>
        rw [List.append_nil] at start
        exact .inl ⟨before, [], by simpa using start⟩
    | cons c middle =>
        obtain ⟨rfl, rfl⟩ := List.cons.inj rest
        rcases List.append_eq_append_iff.mp start with ⟨lead, _, whole⟩ | ⟨lead, _, whole⟩
        · exact (absent (by simp [whole])).elim
        · cases lead with
          | nil =>
              rw [List.nil_append] at whole
              exact (absent (by simp [← whole])).elim
          | cons d lead =>
              obtain ⟨_, rfl⟩ := List.cons.inj whole
              exact .inr ⟨lead, after, rfl⟩

/-- A part lies behind a lead that has none of its letters. -/
theorem infix_of_append {part lead back : List Char} (inside : part <:+: lead ++ back)
    (nonempty : part ≠ []) (foreign : ∀ c ∈ lead, c ∉ part)
    : part <:+: back := by
  induction lead with
  | nil => exact inside
  | cons c lead ih =>
      have split : part <:+: [] ++ c :: (lead ++ back) := inside
      rcases infix_append_cons split (foreign c List.mem_cons_self) with before | after
      · exact absurd (List.infix_nil.mp before) nonempty
      · exact ih after (fun d member => foreign d (List.mem_cons_of_mem c member))

/-- A part without blanks lies in one of the words. -/
theorem Spaced.infix_iff {words : List (List Char)} {text part : List Char}
    (spaced : Spaced words text) (solid : Solid part)
    : part <:+: text ↔ ∃ word ∈ words, part <:+: word := by
  induction spaced with
  | one word => simp
  | @cons word gap words text rest ih =>
      have foreign : ∀ c ∈ gap.text, c ∉ part := by
        intro c inGap inPart
        have blank := gap.blank c inGap
        rw [solid.solid c inPart] at blank
        cases blank
      constructor
      · intro inside
        obtain ⟨c, more, split⟩ := List.exists_cons_of_ne_nil gap.nonempty
        rw [split, List.cons_append] at inside
        rw [split] at foreign
        rcases infix_append_cons inside (foreign c List.mem_cons_self) with here | later
        · exact ⟨word, List.mem_cons_self, here⟩
        · have behind := infix_of_append later solid.nonempty
            (fun d member => foreign d (List.mem_cons_of_mem c member))
          obtain ⟨other, member, inOther⟩ := ih.mp behind
          exact ⟨other, List.mem_cons_of_mem word member, inOther⟩
      · intro found
        obtain ⟨other, member, inside⟩ := found
        rcases List.mem_cons.mp member with rfl | inRest
        · exact inside.trans (List.infix_append' [] _ _)
        · have inText := ih.mpr ⟨other, inRest, inside⟩
          exact inText.trans (by simpa using List.infix_append' (word ++ gap.text) text [])

/-- A tail without capitals adds no part that starts with one. -/
theorem Spaced.contains_iff {words : List (List Char)} {text part tail : List Char}
    (spaced : Spaced words text) (solid : Solid part) (plain : Plain tail)
    (apart : ∀ c ∈ tail.head?, isSpace c = true) (capital : ∃ c ∈ part, isCapital c = true)
    : contains (text ++ tail) part = true ↔ ∃ word ∈ words, part <:+: word := by
  rw [PyText.contains_iff, ← spaced.infix_iff solid]
  constructor
  · intro inside
    cases tail with
    | nil => simpa using inside
    | cons separator tail =>
        have absent : separator ∉ part := by
          intro inPart
          have blank := apart separator rfl
          rw [solid.solid separator inPart] at blank
          cases blank
        rcases infix_append_cons inside absent with here | later
        · exact here
        · obtain ⟨c, inPart, upper⟩ := capital
          have lower := plain c (List.mem_cons_of_mem separator (later.subset inPart))
          rw [upper] at lower
          cases lower
  · intro inside
    exact inside.trans (List.infix_append' [] text tail)

-----------------------------------------------------------------------------------------
-- Stripping takes off blanks of the frame only
-----------------------------------------------------------------------------------------

/-- Solid words with blanks between them are on one line. -/
theorem Spaced.oneLine {words : List (List Char)} {text : List Char}
    (spaced : Spaced words text) (solid : ∀ word ∈ words, Solid word)
    : '\n' ∉ text := by
  have inWord {word : List Char} (valid : Solid word) : '\n' ∉ word :=
    fun member => Bool.noConfusion (valid.solid _ member)
  induction spaced with
  | one word => exact inWord (solid word List.mem_cons_self)
  | cons word gap rest ih =>
      have behind := ih (fun other member => solid other (List.mem_cons_of_mem word member))
      simp [inWord (solid word List.mem_cons_self), gap.oneLine, behind]

theorem Spaced.ne_nil {words : List (List Char)} {text : List Char}
    (spaced : Spaced words text) (solid : ∀ word ∈ words, Solid word)
    : text ≠ [] := by
  cases spaced with
  | one => exact (solid _ List.mem_cons_self).nonempty
  | cons word gap rest => simp [(solid word List.mem_cons_self).nonempty]

/-- A text of words does not begin with a blank. -/
theorem Spaced.head {words : List (List Char)} {text : List Char}
    (spaced : Spaced words text) (solid : ∀ word ∈ words, Solid word)
    : ∀ c ∈ text.head?, isSpace c = false := by
  cases spaced with
  | one => simpa using (solid text List.mem_cons_self).head []
  | cons word gap rest => exact (solid word List.mem_cons_self).head _

/-- A text of words does not end with a blank. -/
theorem Spaced.last {words : List (List Char)} {text : List Char}
    (spaced : Spaced words text) (solid : ∀ word ∈ words, Solid word)
    : ∀ c ∈ text.getLast?, isSpace c = false := by
  induction spaced with
  | one word =>
      intro c last
      exact (solid word List.mem_cons_self).solid c (List.mem_of_getLast? last)
  | @cons word gap words text rest ih =>
      have later : ∀ other ∈ words, Solid other :=
        fun other member => solid other (List.mem_cons_of_mem word member)
      intro c last
      rw [List.getLast?_append_of_ne_nil _ (by simp [gap.nonempty]),
        List.getLast?_append_of_ne_nil _ (rest.ne_nil later)] at last
      exact ih later c last

/-- What is dropped in front stays in front of a text that is kept. -/
theorem dropWhile_append_kept {accepts : Char → Bool} (front : List Char) {back : List Char}
    (nonempty : back ≠ []) (stops : ∀ c ∈ back.head?, accepts c = false)
    : (front ++ back).dropWhile accepts = front.dropWhile accepts ++ back := by
  induction front with
  | nil =>
      cases back with
      | nil => exact absurd rfl nonempty
      | cons c back => simp [stops c rfl]
  | cons c front ih =>
      by_cases accepted : accepts c = true <;> simp [accepted, ih]

/-- What is dropped at the end stays behind a text that is kept. -/
theorem rdropWhile_append_kept {accepts : Char → Bool} {front : List Char} (back : List Char)
    (nonempty : front ≠ []) (stops : ∀ c ∈ front.getLast?, accepts c = false)
    : (front ++ back).rdropWhile accepts = front ++ back.rdropWhile accepts := by
  have kept : (back.reverse ++ front.reverse).dropWhile accepts
      = back.reverse.dropWhile accepts ++ front.reverse := by
    refine dropWhile_append_kept back.reverse (by simpa using nonempty) ?_
    rw [List.head?_reverse]
    exact stops
  simp [List.rdropWhile, kept]

/-- `str.strip` keeps the words and gives them a smaller frame. -/
theorem Framed.strip {words : List (List Char)} {line : List Char} (framed : Framed words line)
    (solid : ∀ word ∈ words, Solid word)
    : Framed words (strip line) := by
  obtain ⟨frame, text, spaced, rfl⟩ := framed
  have kept : frame.tail.rdropWhile isSpace <+: frame.tail := List.rdropWhile_prefix _ _
  let inner : Frame := {
    lead := frame.lead.dropWhile isSpace
    tail := frame.tail.rdropWhile isSpace
    leadPlain := fun c member => frame.leadPlain c (List.dropWhile_subset _ member)
    tailPlain := fun c member => frame.tailPlain c (kept.subset member)
    apart := by
      intro c first
      obtain ⟨rest, split⟩ := kept
      refine frame.apart c ?_
      rw [← split, List.head?_append, first]
      rfl }
  refine ⟨inner, text, spaced, ?_⟩
  have head : ∀ c ∈ (text ++ frame.tail).head?, isSpace c = false := by
    rw [List.head?_append_of_ne_nil _ (spaced.ne_nil solid)]
    exact spaced.head solid
  have last : ∀ c ∈ (frame.lead.dropWhile isSpace ++ text).getLast?, isSpace c = false := by
    rw [List.getLast?_append_of_ne_nil _ (spaced.ne_nil solid)]
    exact spaced.last solid
  rw [Frame.wrap, PyText.strip, dropWhile_append_kept _ (by simp [spaced.ne_nil solid]) head,
    ← List.append_assoc, rdropWhile_append_kept _ (by simp [spaced.ne_nil solid]) last,
    List.append_assoc]
  rfl

end Kumf.Library
