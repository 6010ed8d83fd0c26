import Kumf.Library.CText
import Kumf.Library.WordBits
import Mathlib.Data.List.Pairwise

/-! `spe_event_config`: the event configuration from the format descriptions of the kernel. Of a
description it reads the first bit only, and everything goes to the word `config`.
-/

namespace Kumf.SelfProfile

open Kumf.Library

/-- The files by path, as far as `fopen` opens them. -/
abbrev Files : Type := List Char → Option (List Char)

/-- The path that `read_format_bits` opens. -/
def formatPath (name : List Char) : List Char :=
  snprintf 256 ("/sys/bus/event_source/devices/arm_spe_0/format/".toList ++ name)

/-- `read_format_bits` -/
def readFormatBits (files : Files) (name : List Char) : Int :=
  match files (formatPath name) with
  | none => -1
  | some content =>
      match (cString (fgetsChunk 63 content).1).dropWhile (· ≠ ':') with
      | [] => 0
      | _ :: text => atoi text

/-- `spe_event_config` -/
def speEventConfig (files : Files) (load store minLatency : Int) : BitVec 64 :=
  let loadBit := readFormatBits files "load_filter".toList
  let storeBit := readFormatBits files "store_filter".toList
  let latencyBit := readFormatBits files "min_latency".toList
  let config := 0#64
  let config := if load ≠ 0 ∧ 0 ≤ loadBit then config ||| bitAt loadBit else config
  let config := if store ≠ 0 ∧ 0 ≤ storeBit then config ||| bitAt storeBit else config
  if 0 < minLatency ∧ 0 ≤ latencyBit then
    config ||| shiftWord (BitVec.ofInt 64 minLatency) latencyBit
  else
    config

/-- The words of `struct perf_event_attr` that descriptions place fields in. -/
inductive ConfigWord where
  | config
  | config1
  | config2
  deriving DecidableEq, Repr

def ConfigWord.text : ConfigWord → List Char
  | config => "config".toList
  | config1 => "config1".toList
  | config2 => "config2".toList

/-- These words of `struct perf_event_attr`. -/
structure EventAttr where
  config : BitVec 64
  config1 : BitVec 64
  config2 : BitVec 64
  deriving DecidableEq, Repr

def EventAttr.word (attr : EventAttr) : ConfigWord → BitVec 64
  | .config => attr.config
  | .config1 => attr.config1
  | .config2 => attr.config2

/-- The attribute of `profile_thread_fn`: zeroed, then `config` set. -/
def speAttr (files : Files) (load store minLatency : Int) : EventAttr where
  config := speEventConfig files load store minLatency
  config1 := 0#64
  config2 := 0#64

-----------------------------------------------------------------------------------------
-- Fields and their descriptions
-----------------------------------------------------------------------------------------

/-- The bits from `lo` to `hi` of a word. -/
structure BitField where
  word : ConfigWord
  lo : Nat
  hi : Nat
  ordered : lo ≤ hi
  inside : hi < 64

namespace BitField

def width (field : BitField) : Nat := field.hi + 1 - field.lo

def Covers (field : BitField) (word : ConfigWord) (i : Nat) : Prop :=
  field.word = word ∧ field.lo ≤ i ∧ i ≤ field.hi

def Disjoint (first second : BitField) : Prop :=
  ∀ word i, first.Covers word i → ¬ second.Covers word i

instance {α : Type}
    : Std.Symm (fun first second : BitField × α => first.1.Disjoint second.1) where
  symm := fun _ _ apart word i inSecond inFirst => apart word i inFirst inSecond

/-- `W:lo` for a single bit or `W:lo-hi`, as a line or without the newline. -/
def Describes (text : List Char) (field : BitField) : Prop :=
  ∃ range newline,
    text = field.word.text ++ ':' :: (Nat.toDigits 10 field.lo ++ (range ++ newline))
    ∧ (range = [] ∧ field.hi = field.lo ∨ range = '-' :: Nat.toDigits 10 field.hi)
    ∧ (newline = [] ∨ newline = ['\n'])

end BitField

/-- The three fields with what goes into them: a flag is one bit, and the latency fits. -/
structure Request where
  loadFilter : BitField
  storeFilter : BitField
  minLatency : BitField
  load : Int
  store : Int
  latency : Nat
  disjoint : [loadFilter, storeFilter, minLatency].Pairwise BitField.Disjoint
  latencyFits : latency < 2 ^ minLatency.width
  latencyInt : latency < 2 ^ 31

/-- The fields with the numbers that they are to carry. -/
def Request.parts (request : Request) : List (BitField × Nat) :=
  [(request.loadFilter, if request.load ≠ 0 then 1 else 0),
    (request.storeFilter, if request.store ≠ 0 then 1 else 0),
    (request.minLatency, request.latency)]

/-- Each field has its number, and the bits outside of all fields are 0. -/
structure Carries (attr : EventAttr) (parts : List (BitField × Nat)) : Prop where
  inside
    : ∀ part ∈ parts, ∀ j < part.1.width,
        (attr.word part.1.word).getLsbD (part.1.lo + j) = part.2.testBit j
  outside
    : ∀ word i, (∀ part ∈ parts, ¬ part.1.Covers word i)
      → (attr.word word).getLsbD i = false

/-- The format files of the kernel. -/
structure Request.DescribedBy (request : Request) (files : Files) : Prop where
  loadFilter
    : ∃ text, files (formatPath "load_filter".toList) = some text
      ∧ request.loadFilter.Describes text
  storeFilter
    : ∃ text, files (formatPath "store_filter".toList) = some text
      ∧ request.storeFilter.Describes text
  minLatency
    : ∃ text, files (formatPath "min_latency".toList) = some text
      ∧ request.minLatency.Describes text

-----------------------------------------------------------------------------------------
-- Reading a description
-----------------------------------------------------------------------------------------

/-- A character that neither ends the line nor the string. -/
def Solid (c : Char) : Prop := c ≠ '\n' ∧ c ≠ nul

/-- The digits of a number hold no blank. -/
theorem digits_solid (n : Nat) : ∀ c ∈ Nat.toDigits 10 n, Solid c := by
  intro c member
  have digit : isDigitOf 10 c = true := isDigitOf_toDigits (by omega) (by omega) n c member
  refine ⟨?_, digit_ne_nul digit⟩
  rintro rfl
  exact absurd digit (by decide)

/-- A bit position has two digits at most. -/
theorem digits_short {n : Nat} (small : n < 64) : (Nat.toDigits 10 n).length ≤ 2 :=
  (Nat.length_toDigits_le_iff (by omega) (by omega)).mpr (by omega)

/-- The name of a word holds neither blank nor colon. -/
theorem ConfigWord.text_solid (word : ConfigWord) : ∀ c ∈ word.text, Solid c ∧ c ≠ ':' := by
  have checked : word.text.all (fun c => (c ≠ '\n' && c ≠ nul) && c ≠ ':') = true := by
    cases word <;> rfl
  intro c member
  have allowed := List.all_eq_true.mp checked c member
  simp only [Bool.and_eq_true, decide_eq_true_eq] at allowed
  exact allowed

/-- The name of a word has seven letters at most. -/
theorem ConfigWord.text_short (word : ConfigWord) : word.text.length ≤ 7 := by
  cases word <;> decide

/-- One call of `fgets` takes a whole short line, with or without the newline. -/
theorem cString_fgetsChunk {line newline : List Char} (solid : ∀ c ∈ line, Solid c)
    (short : line.length < 63) (newlines : newline = [] ∨ newline = ['\n'])
    : cString (fgetsChunk 63 (line ++ newline)).1 = line ++ newline := by
  have plain : '\n' ∉ line := fun member => (solid '\n' member).1 rfl
  have taken : (fgetsChunk 63 (line ++ newline)).1 = line ++ newline := by
    rcases newlines with rfl | rfl
    · rw [List.append_nil, fgetsChunk_last plain (Nat.le_of_lt short)]
    · rw [fgetsChunk_line [] plain short]
  have ended : nul ∉ line ++ newline := by
    intro member
    rcases List.mem_append.mp member with inLine | atEnd
    · exact (solid nul inLine).2 rfl
    · rcases newlines with rfl | rfl
      · cases atEnd
      · exact absurd (List.mem_singleton.mp atEnd) (by decide)
  rw [taken, cString_eq ended]

/-- A description up to its newline: the number of the first bit stands behind the colon. -/
theorem BitField.Describes.parts {field : BitField} {text : List Char}
    (describes : field.Describes text)
    : ∃ range newline,
        text = (field.word.text ++ ':' :: (Nat.toDigits 10 field.lo ++ range)) ++ newline
        ∧ (∀ c ∈ range, Solid c)
        ∧ range.length ≤ 3
        ∧ (∀ c ∈ (range ++ newline).head?, isDigitOf 10 c = false)
        ∧ (newline = [] ∨ newline = ['\n']) := by
  obtain ⟨range, newline, rfl, ranges, newlines⟩ := describes
  refine ⟨range, newline, by simp only [List.append_assoc, List.cons_append], ?_, ?_, ?_,
    newlines⟩
  · rcases ranges with ⟨rfl, _⟩ | rfl
    · exact List.forall_mem_nil _
    · exact List.forall_mem_cons.mpr ⟨⟨by decide, by decide⟩, digits_solid field.hi⟩
  · rcases ranges with ⟨rfl, _⟩ | rfl
    · exact Nat.zero_le 3
    · exact Nat.succ_le_succ (digits_short field.inside)
  · rcases ranges with ⟨rfl, _⟩ | rfl
    · rcases newlines with rfl | rfl <;> simp [isDigitOf, digitValue]
    · simp [isDigitOf, digitValue]

/-- Of a description the number of the first bit is read. -/
theorem readFormatBits_eq {files : Files} {name text : List Char} {field : BitField}
    (found : files (formatPath name) = some text) (describes : field.Describes text)
    : readFormatBits files name = field.lo := by
  obtain ⟨range, newline, rfl, rangeSolid, rangeShort, boundary, newlines⟩ := describes.parts
  have small : field.lo < 64 := Nat.lt_of_le_of_lt field.ordered field.inside
  have solid
      : ∀ c ∈ field.word.text ++ ':' :: (Nat.toDigits 10 field.lo ++ range), Solid c := by
    refine List.forall_mem_append.mpr ⟨fun c member => (field.word.text_solid c member).1, ?_⟩
    exact List.forall_mem_cons.mpr
      ⟨⟨by decide, by decide⟩,
        List.forall_mem_append.mpr ⟨digits_solid field.lo, rangeSolid⟩⟩
  have short : (field.word.text ++ ':' :: (Nat.toDigits 10 field.lo ++ range)).length < 63 := by
    have word := field.word.text_short
    have digits := digits_short small
    simp only [List.length_append, List.length_cons]
    omega
  have colon
      : (field.word.text ++ ':' :: (Nat.toDigits 10 field.lo ++ (range ++ newline))).dropWhile
          (· ≠ ':')
        = ':' :: (Nat.toDigits 10 field.lo ++ (range ++ newline)) := by
    rw [List.dropWhile_append_of_pos
      (fun c member => decide_eq_true (field.word.text_solid c member).2)]
    exact List.dropWhile_cons_of_neg (by decide)
  have number : atoi ((Numeral.dec field.lo).digits ++ (range ++ newline)) = field.lo := by
    rw [atoi_numeral (Numeral.dec field.lo) boundary (by rw [Numeral.value_dec]; omega),
      Numeral.value_dec]
  unfold readFormatBits
  rw [found]
  dsimp only
  rw [cString_fgetsChunk solid short newlines]
  simp only [List.append_assoc, List.cons_append, colon]
  exact number

-----------------------------------------------------------------------------------------
-- Parts that are all put into one word
-----------------------------------------------------------------------------------------

/-- A set bit of a number that fits a field lies in the field. -/
theorem BitField.covers_of_testBit {field : BitField} {value i : Nat}
    (fits : value < 2 ^ field.width) (low : field.lo ≤ i)
    (bit : value.testBit (i - field.lo) = true)
    : field.Covers field.word i := by
  have order := field.ordered
  refine ⟨rfl, low, ?_⟩
  by_contra beyond
  have small : value < 2 ^ (i - field.lo) := by
    refine Nat.lt_of_lt_of_le fits (Nat.pow_le_pow_right (by omega) ?_)
    unfold width
    omega
  rw [Nat.testBit_lt_two_pow small] at bit
  cases bit

/-- `config` collects all parts, whatever their words are, and the other words are 0. -/
structure PacksAll (attr : EventAttr) (parts : List (BitField × Nat)) : Prop where
  config
    : ∀ i,
        attr.config.getLsbD i = true
        ↔ i < 64 ∧ ∃ part ∈ parts, part.1.lo ≤ i ∧ part.2.testBit (i - part.1.lo) = true
  others : ∀ word, word ≠ .config → attr.word word = 0#64

section
variable {attr : EventAttr} {parts : List (BitField × Nat)}

/-- A number of a field of another word is missing there. -/
theorem Carries.config_of_ne_zero (carries : Carries attr parts) (packs : PacksAll attr parts)
    (fits : ∀ part ∈ parts, part.2 < 2 ^ part.1.width) {part : BitField × Nat}
    (member : part ∈ parts) (nonzero : part.2 ≠ 0)
    : part.1.word = .config := by
  obtain ⟨j, bit⟩ := Nat.exists_testBit_of_ne_zero nonzero
  have covers := part.1.covers_of_testBit (i := part.1.lo + j) (fits part member)
    (Nat.le_add_right _ _) (by rwa [Nat.add_sub_cancel_left])
  have within : j < part.1.width := by
    have upper := covers.2.2
    unfold BitField.width
    omega
  have set := carries.inside part member j within
  by_contra other
  rw [packs.others part.1.word other, bit] at set
  exact absurd set (by simp)

/-- Where all fields lie in `config`, apart and each with room, all of them are carried. -/
theorem Carries.of_config (packs : PacksAll attr parts)
    (fits : ∀ part ∈ parts, part.2 < 2 ^ part.1.width)
    (disjoint : parts.Pairwise (fun first second => first.1.Disjoint second.1))
    (placed : ∀ part ∈ parts, part.2 ≠ 0 → part.1.word = .config)
    : Carries attr parts := by
  have owner
    : ∀ part ∈ parts, ∀ i, part.1.lo ≤ i → part.2.testBit (i - part.1.lo) = true →
      part.1.Covers .config i := by
    intro part member i low bit
    have nonzero : part.2 ≠ 0 := by
      intro zero
      rw [zero, Nat.zero_testBit] at bit
      cases bit
    rw [← placed part member nonzero]
    exact part.1.covers_of_testBit (fits part member) low bit
  constructor
  case inside =>
      intro part member j within
      by_cases word : part.1.word = .config
      · rw [word, Bool.eq_iff_iff, EventAttr.word, packs.config]
        constructor
        · rintro ⟨_, other, otherMember, low, bit⟩
          have covers := owner other otherMember _ low bit
          have own : part.1.Covers .config (part.1.lo + j) := by
            refine ⟨word, Nat.le_add_right _ _, ?_⟩
            have order := part.1.ordered
            unfold BitField.width at within
            omega
          have same : other = part := by
            by_contra apart
            exact disjoint.forall otherMember member apart _ _ covers own
          rwa [same, Nat.add_sub_cancel_left] at bit
        · intro bit
          refine ⟨?_, part, member, Nat.le_add_right _ _, by rwa [Nat.add_sub_cancel_left]⟩
          have order := part.1.ordered
          have upper := part.1.inside
          unfold BitField.width at within
          omega
      · have zero : part.2 = 0 := by
          by_contra nonzero
          exact word (placed part member nonzero)
        rw [packs.others part.1.word word, zero, BitVec.getLsbD_zero, Nat.zero_testBit]
  case outside =>
      intro word i uncovered
      by_cases config : word = .config
      · rw [config, EventAttr.word, Bool.eq_false_iff]
        intro set
        obtain ⟨_, part, member, low, bit⟩ := (packs.config i).mp set
        exact uncovered part member (config ▸ owner part member i low bit)
      · rw [packs.others word config, BitVec.getLsbD_zero]

end

-----------------------------------------------------------------------------------------
-- The configuration that is asked for
-----------------------------------------------------------------------------------------

section
variable {request : Request} {files : Files}

/-- What is asked for has room in its fields. -/
theorem Request.parts_fit (request : Request)
    : ∀ part ∈ request.parts, part.2 < 2 ^ part.1.width := by
  have flag (field : BitField) (n : Int) : (if n ≠ 0 then 1 else 0) < 2 ^ field.width := by
    have order := field.ordered
    refine Nat.lt_of_lt_of_le (m := 2 ^ 1) (by split <;> omega) (Nat.pow_le_pow_right (by omega) ?_)
    unfold BitField.width
    omega
  simp only [parts, List.forall_mem_cons]
  exact ⟨flag _ _, flag _ _, request.latencyFits, List.forall_mem_nil _⟩

/-- The fields of a request lie apart. -/
theorem Request.parts_disjoint (request : Request)
    : request.parts.Pairwise (fun first second => first.1.Disjoint second.1) :=
  (List.pairwise_map (l := request.parts)).mp request.disjoint

/-- A flag that is not set leaves the configuration as it is, as a shifted 0 does. -/
theorem or_flag (config : BitVec 64) (flag : Int) (lo : Nat)
    : (if flag ≠ 0 ∧ 0 ≤ (lo : Int) then config ||| bitAt lo else config)
      = config ||| shiftWord (BitVec.ofNat 64 (if flag ≠ 0 then 1 else 0)) lo := by
  by_cases set : flag ≠ 0
  · rw [if_pos ⟨set, Int.natCast_nonneg lo⟩, if_pos set]
    rfl
  · rw [if_neg (fun both => set both.1), if_neg set, shiftWord, BitVec.zero_shiftLeft,
      BitVec.or_zero]

/-- The latency is put in only where it changes anything. -/
theorem or_latency (config : BitVec 64) (latency lo : Nat)
    : (if 0 < (latency : Int) ∧ 0 ≤ (lo : Int) then
        config ||| shiftWord (BitVec.ofInt 64 latency) lo
      else
        config)
      = config ||| shiftWord (BitVec.ofNat 64 latency) lo := by
  rw [BitVec.ofInt_natCast]
  rcases Nat.eq_zero_or_pos latency with rfl | positive
  · rw [if_neg (fun both => absurd both.1 (by omega)), shiftWord, BitVec.zero_shiftLeft,
      BitVec.or_zero]
  · rw [if_pos ⟨Int.natCast_pos.mpr positive, Int.natCast_nonneg lo⟩]

/-- All three numbers are put in at their first bits. -/
theorem speEventConfig_eq (described : request.DescribedBy files)
    : speEventConfig files request.load request.store request.latency
      = request.parts.foldl
          (fun config part => config ||| shiftWord (BitVec.ofNat 64 part.2) part.1.lo) 0#64 := by
  obtain ⟨loadText, loadFound, loadDescribes⟩ := described.loadFilter
  obtain ⟨storeText, storeFound, storeDescribes⟩ := described.storeFilter
  obtain ⟨latencyText, latencyFound, latencyDescribes⟩ := described.minLatency
  unfold speEventConfig
  rw [readFormatBits_eq loadFound loadDescribes, readFormatBits_eq storeFound storeDescribes,
    readFormatBits_eq latencyFound latencyDescribes]
  dsimp only
  rw [or_flag, or_flag, or_latency]
  rfl

/-- The attribute packs what was asked for at the places the files name. -/
theorem speAttr_packs (described : request.DescribedBy files)
    : PacksAll (speAttr files request.load request.store request.latency) request.parts := by
  constructor
  case config =>
      intro i
      have small (part : BitField × Nat) : part.1.lo < 64 :=
        Nat.lt_of_le_of_lt part.1.ordered part.1.inside
      simp only [speAttr, speEventConfig_eq described, foldl_or_getLsbD,
        shiftWord_getLsbD _ (small _), BitVec.getLsbD_ofNat, Nat.zero_testBit, Bool.and_eq_true,
        decide_eq_true_eq, Bool.false_eq_true, and_false, false_or]
      constructor
      · rintro ⟨part, member, bound, low, _, bit⟩
        exact ⟨bound, part, member, low, bit⟩
      · rintro ⟨bound, part, member, low, bit⟩
        exact ⟨part, member, bound, low, by omega, bit⟩
  case others =>
      intro word other
      cases word
      case config => exact absurd rfl other
      case config1 => rfl
      case config2 => rfl

/-- The attribute carries the three numbers just if those that are not 0 belong to `config`. -/
theorem speAttr_carries_iff (described : request.DescribedBy files)
    : Carries (speAttr files request.load request.store request.latency) request.parts
      ↔ ∀ part ∈ request.parts, part.2 ≠ 0 → part.1.word = .config :=
  ⟨fun carries _ member nonzero =>
      carries.config_of_ne_zero (speAttr_packs described) request.parts_fit member nonzero,
    Carries.of_config (speAttr_packs described) request.parts_fit request.parts_disjoint⟩

end

-----------------------------------------------------------------------------------------
-- The latency in a word of its own
-----------------------------------------------------------------------------------------

def sysfsFiles : Files := fun path =>
  if path = formatPath "load_filter".toList then some "config:33\n".toList
  else if path = formatPath "store_filter".toList then some "config:34\n".toList
  else if path = formatPath "min_latency".toList then some "config2:0-11\n".toList
  else none

/-- What `profile_thread_fn` asks for. -/
def profileRequest : Request where
  loadFilter := ⟨.config, 33, 33, by omega, by omega⟩
  storeFilter := ⟨.config, 34, 34, by omega, by omega⟩
  minLatency := ⟨.config2, 0, 11, by omega, by omega⟩
  load := 1
  store := 1
  latency := 32
  disjoint := by
    refine .cons (List.forall_mem_cons.mpr ⟨?_, List.forall_mem_cons.mpr ⟨?_, ?_⟩⟩)
      (.cons (List.forall_mem_cons.mpr ⟨?_, ?_⟩) (List.pairwise_singleton _ _))
    · rintro word i ⟨_, _, high⟩ ⟨_, low, _⟩
      dsimp only at high low
      omega
    · rintro _ i ⟨rfl, _⟩ ⟨apart, _⟩
      cases apart
    · exact List.forall_mem_nil _
    · rintro _ i ⟨rfl, _⟩ ⟨apart, _⟩
      cases apart
    · exact List.forall_mem_nil _
  latencyFits := by decide
  latencyInt := by omega

/-- The example's files name its fields. -/
theorem profileRequest_described : profileRequest.DescribedBy sysfsFiles where
  loadFilter :=
    ⟨"config:33\n".toList, by decide, [], ['\n'], by decide, .inl ⟨rfl, rfl⟩, .inr rfl⟩
  storeFilter :=
    ⟨"config:34\n".toList, by decide, [], ['\n'], by decide, .inl ⟨rfl, rfl⟩, .inr rfl⟩
  minLatency :=
    ⟨"config2:0-11\n".toList, by decide, "-11".toList, ['\n'], by decide, .inr (by decide),
      .inr rfl⟩

theorem speAttr_carries_profileRequest
    : Carries (speAttr sysfsFiles 1 1 32) profileRequest.parts
      ↔ ∀ part ∈ profileRequest.parts, part.2 ≠ 0 → part.1.word = .config :=
  speAttr_carries_iff profileRequest_described

/-- The latency switches on bit 5 of `config`, and `config2` stays without it. -/
theorem profileRequest_not_carried
    : speAttr sysfsFiles 1 1 32 = ⟨bitAt 33 ||| bitAt 34 ||| bitAt 5, 0#64, 0#64⟩
      ∧ ¬ Carries (speAttr sysfsFiles 1 1 32) profileRequest.parts := by
  have attr : speAttr sysfsFiles 1 1 32 = ⟨bitAt 33 ||| bitAt 34 ||| bitAt 5, 0#64, 0#64⟩ := by
    decide
  refine ⟨attr, fun carries => ?_⟩
  have member : (profileRequest.minLatency, 32) ∈ profileRequest.parts :=
    List.mem_cons_of_mem _ (List.mem_cons_of_mem _ List.mem_cons_self)
  have latency := carries.inside _ member 5 (by decide)
  rw [attr] at latency
  exact absurd latency (by decide)

end Kumf.SelfProfile
