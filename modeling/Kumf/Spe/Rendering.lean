import Kumf.Library.Framed
import Kumf.Spe.Lines

/-! Lines of a dump from what they say: how packets are spelled, what they mean for a sample,
and that no pattern for another kind of line matches in them.
-/

namespace Kumf.Spe

open Kumf.Library Pattern PyText

/-- `RE_SOURCE`: the known event names. -/
inductive EventName where
  | l1dAccess
  | l1dRefill
  | tlbAccess
  | tlbRefill
  | llcAccess
  | llcRefill
  | remoteAccess
  | retired
  | notRetired
  deriving DecidableEq, Repr

def EventName.text : EventName → List Char
  | .l1dAccess => "L1D-ACCESS".toList
  | .l1dRefill => "L1D-REFILL".toList
  | .tlbAccess => "TLB-ACCESS".toList
  | .tlbRefill => "TLB-REFILL".toList
  | .llcAccess => "LLC-ACCESS".toList
  | .llcRefill => "LLC-REFILL".toList
  | .remoteAccess => "REMOTE-ACCESS".toList
  | .retired => "RETIRED".toList
  | .notRetired => "NOT-RETIRED".toList

inductive LatLabel where
  | issue
  | tot
  | xlat
  deriving DecidableEq, Repr

def LatLabel.text : LatLabel → List Char
  | .issue => "ISSUE".toList
  | .tot => "TOT".toList
  | .xlat => "XLAT".toList

inductive OpType where
  | ld
  | st
  deriving DecidableEq, Repr

def OpType.text : OpType → List Char
  | .ld => "LD".toList
  | .st => "ST".toList

inductive OpReg where
  | gpReg
  | simdFp
  | sve
  | neon
  deriving DecidableEq, Repr

def OpReg.text : OpReg → List Char
  | .gpReg => "GP-REG".toList
  | .simdFp => "SIMD-FP".toList
  | .sve => "SVE".toList
  | .neon => "NEON".toList

/-- A hexadecimal literal. -/
def literal (address : Numeral 16) : List Char := "0x".toList ++ address.digits

/-- What a packet line of a dump says. -/
inductive Saying where
  | pc (address : Numeral 16)
  | va (address : Numeral 16)
  | lat (cycles : Numeral 10) (label : Option LatLabel)
  | ev (first : EventName) (more : List EventName)
  | op (type : OpType) (reg : OpReg)
  | ts (time : Numeral 10)

namespace Saying

/-- The words of the line. -/
def words : Saying → List (List Char)
  | .pc address => ["PC".toList, literal address]
  | .va address => ["VA".toList, literal address]
  | .lat cycles label => "LAT".toList :: cycles.digits :: (label.map LatLabel.text).toList
  | .ev first more => "EV".toList :: (first :: more).map EventName.text
  | .op type reg => [type.text, reg.text]
  | .ts time => ["TS".toList, time.digits]

/-- A line that says it. -/
def Line (saying : Saying) (line : List Char) : Prop := Framed saying.words line

/-- PC and TS packets end the record before them. -/
def closes : Saying → Bool
  | .pc _ => true
  | .ts _ => true
  | _ => false

end Saying

/-- The part of a sample that is counted. -/
def Sample.counted (sample : Sample) : Sample :=
  { sample with pc := none, ev := none, op := none }

/-- Set the latency of a label. -/
def Sample.setLat (sample : Sample) (label : Option LatLabel) (cycles : Option Nat) : Sample :=
  match label with
  | some .tot => { sample with latTot := cycles }
  | some .issue => { sample with latIssue := cycles }
  | some .xlat => { sample with latXlat := cycles }
  | none => { sample with lat9e := cycles }

/-- What a line adds to the counted part of the sample. -/
def Saying.absorb (sample : Sample) : Saying → Sample
  | .pc _ => {}
  | .ts _ => {}
  | .va address => { sample with va := some (literal address) }
  | .lat cycles label => sample.setLat label (some cycles.value)
  | .ev first more =>
      { sample with
        llcRefill := decide (.llcRefill ∈ first :: more) || sample.llcRefill
        llcAccess := decide (.llcAccess ∈ first :: more) || sample.llcAccess
        tlbRefill := decide (.tlbRefill ∈ first :: more) || sample.tlbRefill }
  | .op type reg =>
      { sample with
        isLoad := decide (type = .ld) || sample.isLoad
        isStore := decide (type = .st) || sample.isStore
        isSve := decide (reg ≠ .gpReg) || sample.isSve }

/-- A packet does to the counted part of a sample what a line says. -/
structure Saying.Means (saying : Saying) (packet : Packet) : Prop where
  closes : packet.closes = saying.closes
  absorbs
    : ∀ sample, (streamAbsorb sample packet).counted = saying.absorb sample.counted

-----------------------------------------------------------------------------------------
-- No line bears the mark of another kind of line
-----------------------------------------------------------------------------------------

/-- The letter pairs that lines are recognised by. -/
def marks : List (Char × Char) :=
  [('P', 'E'), ('T', 'S'), ('P', 'C'), ('V', 'A'), ('L', 'A'), ('E', 'V'), ('L', 'D'),
    ('S', 'T')]

/-- The marks that do not occur in the line. -/
def Saying.foreign : Saying → List (Char × Char)
  | .pc _ => marks.erase ('P', 'C')
  | .va _ => marks.erase ('V', 'A')
  | .lat _ _ => marks.erase ('L', 'A')
  | .ev _ _ => marks.erase ('E', 'V')
  | .op _ _ => (marks.erase ('L', 'D')).erase ('S', 'T')
  | .ts _ => marks.erase ('T', 'S')

theorem marks_capitals : Capitals marks := by
  decide

/-- What a line must not say is among the marks. -/
theorem Saying.foreign_subset (saying : Saying) : saying.foreign ⊆ marks := by
  cases saying with
  | op type reg => exact List.Subset.trans List.erase_subset List.erase_subset
  | _ => exact List.erase_subset

theorem rePc_starts : rePc.StartsWith [('P', 'C')] := startsWith_word_bind

theorem reVa_starts : reVa.StartsWith [('V', 'A')] := startsWith_word_bind

theorem reLat_starts : reLat.StartsWith [('L', 'A')] := startsWith_word_bind

theorem reEv_starts : reEv.StartsWith [('E', 'V')] := startsWith_word_bind

/-- `RE_OP` begins with LD or ST. -/
theorem reOp_starts : reOp.StartsWith [('L', 'D'), ('S', 'T')] :=
  startsWith_either_bind startsWith_word_bind startsWith_word_bind

theorem reTs_starts : reTs.StartsWith [('T', 'S')] := startsWith_word_bind

/-- Each mark has a letter that is no hexadecimal digit. -/
theorem marks_noHex {pair : Char × Char} (member : pair ∈ marks)
    : isHex pair.1 = false ∧ pair.1 ∉ "0x".toList
      ∨ isHex pair.2 = false ∧ pair.2 ∉ "0x".toList := by
  revert pair
  decide

theorem isHex_of_ten {c : Char} (digit : isDigitOf 10 c = true) : isHex c = true := by
  rw [isHex, isDigitOf, decide_eq_true_iff]
  rw [isDigitOf, decide_eq_true_iff] at digit
  omega

/-- Digits bear no mark, with or without a prefix. -/
theorem digits_clear {front digits : List Char} (known : front ⊆ "0x".toList)
    (valid : ∀ c ∈ digits, isHex c = true)
    : Clear marks (front ++ digits) := by
  have absent {c : Char} (noHex : isHex c = false) (noPrefix : c ∉ "0x".toList)
      : c ∉ front ++ digits := by
    intro member
    rcases List.mem_append.mp member with inFront | inDigits
    · exact noPrefix (known inFront)
    · rw [valid c inDigits] at noHex
      cases noHex
  refine clear_of_lacks (fun pair member => ?_)
  rcases marks_noHex member with ⟨noHex, noPrefix⟩ | ⟨noHex, noPrefix⟩
  · exact .inl (absent noHex noPrefix)
  · exact .inr (absent noHex noPrefix)

/-- An address has no mark in it. -/
theorem literal_clear (address : Numeral 16) : Clear marks (literal address) :=
  digits_clear (List.Subset.refl _) address.valid

/-- A number has no mark in it. -/
theorem decimal_clear (number : Numeral 10) : Clear marks number.digits :=
  digits_clear (List.nil_subset _) (fun c member => isHex_of_ten (number.valid c member))

/-- The name of an event has no mark in it. -/
theorem EventName.text_clear (name : EventName) : Clear marks name.text := by
  cases name <;> decide

/-- The label XLAT bears the mark of its line. -/
theorem LatLabel.text_clear (label : LatLabel) : Clear (marks.erase ('L', 'A')) label.text := by
  cases label <;> decide

/-- An operation has no mark in it but its own. -/
theorem OpType.text_clear (type : OpType)
    : Clear ((marks.erase ('L', 'D')).erase ('S', 'T')) type.text := by
  cases type <;> decide

theorem OpReg.text_clear (reg : OpReg) : Clear marks reg.text := by
  cases reg <;> decide

/-- A line bears no mark but its own. -/
theorem Saying.words_clear (saying : Saying)
    : ∀ word ∈ saying.words, Clear saying.foreign word := by
  have free {word : List Char} (clear : Clear marks word) : Clear saying.foreign word :=
    clear.mono saying.foreign_subset
  cases saying with
  | pc address =>
      have head : Clear (marks.erase ('P', 'C')) "PC".toList := by decide
      simpa [words] using ⟨head, free (literal_clear address)⟩
  | va address =>
      have head : Clear (marks.erase ('V', 'A')) "VA".toList := by decide
      simpa [words] using ⟨head, free (literal_clear address)⟩
  | lat cycles label =>
      have head : Clear (marks.erase ('L', 'A')) "LAT".toList := by decide
      cases label with
      | none => simpa [words] using ⟨head, free (decimal_clear cycles)⟩
      | some label => simpa [words] using ⟨head, free (decimal_clear cycles), label.text_clear⟩
  | ev first more =>
      have head : Clear (marks.erase ('E', 'V')) "EV".toList := by decide
      simpa [words] using
        ⟨head, free first.text_clear, fun name _ => free name.text_clear⟩
  | op type reg => simpa [words] using ⟨type.text_clear, free reg.text_clear⟩
  | ts time =>
      have head : Clear (marks.erase ('T', 'S')) "TS".toList := by decide
      simpa [words] using ⟨head, free (decimal_clear time)⟩

/-- A pattern with foreign marks passes over the line. -/
theorem Saying.passes {α : Type} {pattern : Pattern α} {pairs : List (Char × Char)}
    {saying : Saying} {line : List Char} (framed : saying.Line line)
    (starts : pattern.StartsWith pairs) (foreign : pairs ⊆ saying.foreign)
    : pattern.search line = none := by
  refine Framed.search_none framed starts ?_
    (fun word member => (saying.words_clear word member).mono foreign)
  exact fun pair member => marks_capitals pair (saying.foreign_subset (foreign member))

/-- No line of a record says what a header of perf says. -/
theorem Saying.perf_foreign (saying : Saying) : [('P', 'E')] ⊆ saying.foreign := by
  cases saying <;> simp [foreign, marks]

/-- No header is recognised in a packet line. -/
theorem Saying.noHeader {saying : Saying} {line : List Char} (framed : saying.Line line)
    : isHeader line = false := by
  have none {letters : List Char} : (word ('P' :: 'E' :: letters)).search line = none :=
    passes framed startsWith_word saying.perf_foreign
  have absent {letters : List Char} : startsWith line ('P' :: 'E' :: letters) = false := by
    refine Bool.eq_false_of_not_eq_true (fun front => ?_)
    have inside := contains_iff.mpr (List.isPrefixOf_iff_prefix.mp front).isInfix
    rw [contains, none] at inside
    cases inside
  rw [isHeader, endsSection, reAuxtrace, reMmap]
  simp [none, absent]

-----------------------------------------------------------------------------------------
-- The words of a line have no blanks
-----------------------------------------------------------------------------------------

/-- A blank is no hexadecimal digit. -/
theorem isHex_of_isSpace {c : Char} (space : isSpace c = true) : isHex c = false := by
  simp only [isSpace, Bool.or_eq_true, Bool.and_eq_true, decide_eq_true_eq] at space
  rw [isHex, isDigitOf, decide_eq_false_iff_not, digitValue]
  split_ifs <;> omega

/-- A digit is no blank. -/
theorem isSpace_of_isDigitOf {base : Nat} {c : Char} (small : base ≤ 16)
    (digit : isDigitOf base c = true)
    : isSpace c = false := by
  refine Bool.eq_false_of_not_eq_true (fun space => ?_)
  have noHex := isHex_of_isSpace space
  rw [isDigitOf, decide_eq_true_iff] at digit
  rw [isHex, isDigitOf, decide_eq_false_iff_not] at noHex
  omega

/-- A numeral is one word. -/
theorem Numeral.solid {base : Nat} (number : Numeral base) (small : base ≤ 16)
    : Solid number.digits where
  nonempty := number.nonempty
  solid := fun c member => isSpace_of_isDigitOf small (number.valid c member)

/-- An address is one word. -/
theorem literal_solid (address : Numeral 16) : Solid (literal address) where
  nonempty := by simp [literal]
  solid := by
    intro c member
    rcases List.mem_append.mp member with inPrefix | inDigits
    · have solid : Solid "0x".toList := .of_check rfl
      exact solid.solid c inPrefix
    · exact (Numeral.solid address (Nat.le_refl 16)).solid c inDigits

theorem EventName.text_solid (name : EventName) : Solid name.text := by
  cases name <;> exact .of_check rfl

theorem LatLabel.text_solid (label : LatLabel) : Solid label.text := by
  cases label <;> exact .of_check rfl

theorem OpType.text_solid (type : OpType) : Solid type.text := by
  cases type <;> exact .of_check rfl

theorem OpReg.text_solid (reg : OpReg) : Solid reg.text := by
  cases reg <;> exact .of_check rfl

/-- The words of a line have no blanks in them. -/
theorem Saying.words_solid (saying : Saying) : ∀ word ∈ saying.words, Solid word := by
  cases saying with
  | pc address =>
      have head : Solid "PC".toList := .of_check rfl
      simpa [words] using ⟨head, literal_solid address⟩
  | va address =>
      have head : Solid "VA".toList := .of_check rfl
      simpa [words] using ⟨head, literal_solid address⟩
  | lat cycles label =>
      have head : Solid "LAT".toList := .of_check rfl
      have digits := Numeral.solid cycles (by omega)
      cases label with
      | none => simpa [words] using ⟨head, digits⟩
      | some label => simpa [words] using ⟨head, digits, label.text_solid⟩
  | ev first more =>
      have head : Solid "EV".toList := .of_check rfl
      simpa [words] using ⟨head, first.text_solid, fun name _ => name.text_solid⟩
  | op type reg => simpa [words] using ⟨type.text_solid, reg.text_solid⟩
  | ts time =>
      have head : Solid "TS".toList := .of_check rfl
      simpa [words] using ⟨head, Numeral.solid time (by omega)⟩

/-- Both parsers strip a line first. -/
theorem Saying.Line.strip {saying : Saying} {line : List Char} (framed : saying.Line line)
    : saying.Line (strip line) :=
  Framed.strip framed saying.words_solid

end Kumf.Spe
