import Kumf.PacToInterc.HotRouting
import Kumf.PacToInterc.PageRanges
import Kumf.Spe.HotRanges

/-! `generate_interc_conf_page_ranges` read back by `load_rules` and `match_addr`: one address
rule for each range, among comments of any length.
-/

namespace Kumf.PacToInterc

open Kumf.Library PyText

/-- `f"{n:x}"` -/
def hexInt (n : Int) : List Char :=
  (if n < 0 then ['-'] else []) ++ Nat.toDigits 16 n.natAbs

section
variable {F : Type} [PyReal F]

/-- `f"{(end - start)/1024/1024:.1f}"` -/
def sizeMb (range : PageRange F) : List Char :=
  PyReal.format1
    (PyFloat.divide (PyFloat.quotient (range.stop - range.start).toNat 1024) 1024 : F)

/-- The comment behind a rule. -/
def rangeNote (range : PageRange F) : List Char :=
  " # ".toList ++ str range.pageCount ++ " pages, ".toList ++ sizeMb range
    ++ "MB, access=".toList ++ str range.totalAccess

/-- The rule of a range. -/
def rangeRule (node : Node) (range : PageRange F) : List Char :=
  "0x".toList ++ hexInt range.start ++ "-0x".toList ++ hexInt range.stop ++ " = ".toList
    ++ node.text ++ " ".toList ++ rangeNote range

omit [PyReal F] in
def rangesOf (tier : String) (ranges : List (PageRange F)) : List (PageRange F) :=
  ranges.filter (fun range => range.tier = tier.toList)

omit [PyReal F] in
/-- The title over the rules of a tier. -/
def tierTitle (tier : String) (ranges : List (PageRange F)) (node : Node) : List Char :=
  "# ".toList ++ tier.toList ++ " pages: ".toList ++ str (ranges.map PageRange.pageCount).sum
    ++ " pages in ".toList ++ str ranges.length ++ " ranges → node ".toList ++ node.text

/-- The lines of a tier. -/
def tierLines (tier : String) (ranges : List (PageRange F)) (node : Node) : List (List Char) :=
  tierTitle tier (rangesOf tier ranges) node
    :: (rangesOf tier ranges).map (rangeRule node)

/-- The lines that the generator writes. -/
def rangeConfLines (ranges : List (PageRange F)) (fastNode slowNode : Node) (now : Stamp)
    : List (List Char) :=
  ["# KUMF interc configuration (page-range based)".toList,
    "# Generated: ".toList ++ now.text,
    "# Fast node: ".toList ++ fastNode.text ++ " | Slow node: ".toList ++ slowNode.text,
    []]
  ++ tierLines "HOT" ranges fastNode
  ++ [] :: tierLines "WARM" ranges fastNode
  ++ [] :: tierLines "COLD" ranges slowNode

/-- `generate_interc_conf_page_ranges`: the text that it writes to its output file. -/
def generateIntercConfPageRanges (ranges : List (PageRange F)) (fastNode slowNode : Node)
    (now : Stamp)
    : List Char :=
  unlines (rangeConfLines ranges fastNode slowNode now)

end

-----------------------------------------------------------------------------------------
-- What a line adds to the address rules
-----------------------------------------------------------------------------------------

/-- A line of the file, however it falls into chunks, adds some rules. -/
def AddsRules (line : List Char) (rules : List Interc.AddrRule) : Prop :=
  ∀ state : List Char × Interc.RuleTables,
    state.2.addrRules.length + rules.length ≤ Interc.maxAddrRules
    → ((fgetsAll Interc.lineSize (line ++ ['\n'])).foldl Interc.loadChunk state).2.addrRules
      = state.2.addrRules ++ rules

/-- Chunks without the address form leave the address rules alone. -/
theorem loadChunks_noAddress {chunks : List (List Char)}
    (none : ∀ chunk ∈ chunks, Spe.NoAddress chunk) (state : List Char × Interc.RuleTables)
    : (chunks.foldl Interc.loadChunk state).2.addrRules = state.2.addrRules := by
  induction chunks generalizing state with
  | nil => rfl
  | cons chunk chunks ih =>
      rw [List.foldl_cons, ih (fun other member => none other (List.mem_cons_of_mem chunk member))]
      exact Spe.loadLine_addrRules state.2 state.1 (none chunk List.mem_cons_self)

/-- A line without the address form adds nothing. -/
theorem AddsRules.of_free {line : List Char} (free : Spe.AddressFree line) : AddsRules line [] := by
  intro state _
  rw [loadChunks_noAddress, List.append_nil]
  exact forall_fgetsAll_line (by decide) free.oneLine free.pieces
    (fun _ member => absurd member List.not_mem_nil)

/-- The lines of a file add their rules one after the other. -/
theorem loadText_addrRules {lines : List (List Char × List Interc.AddrRule)}
    (oneLine : ∀ line ∈ lines, '\n' ∉ line.1)
    (adds : ∀ line ∈ lines, AddsRules line.1 line.2)
    (state : List Char × Interc.RuleTables)
    (room : state.2.addrRules.length + (lines.flatMap Prod.snd).length ≤ Interc.maxAddrRules)
    : ((fgetsAll Interc.lineSize (unlines (lines.map Prod.fst))).foldl Interc.loadChunk
        state).2.addrRules
      = state.2.addrRules ++ lines.flatMap Prod.snd := by
  induction lines generalizing state with
  | nil => exact (List.append_nil _).symm
  | cons line lines ih =>
      rw [List.flatMap_cons, List.length_append] at room
      have first := adds line List.mem_cons_self state (by omega)
      have split : fgetsAll Interc.lineSize (unlines ((line :: lines).map Prod.fst))
          = fgetsAll Interc.lineSize (line.1 ++ ['\n'])
            ++ fgetsAll Interc.lineSize (unlines (lines.map Prod.fst)) := by
        rw [← fgetsAll_line _ (by decide) (oneLine line List.mem_cons_self), unlines,
          List.map_cons, List.flatMap_cons, List.append_assoc, List.singleton_append]
        rfl
      rw [split, List.foldl_append,
        ih (fun other member => oneLine other (List.mem_cons_of_mem line member))
          (fun other member => adds other (List.mem_cons_of_mem line member)) _
          (by rw [first, List.length_append]; omega),
        first, List.flatMap_cons, List.append_assoc]

/-- A chunk without the letter of a prefix has no address. -/
theorem noAddress_of_unmarked {chunk : List Char} (absent : 'x' ∉ chunk)
    : Spe.NoAddress chunk := by
  intro start stop node scanned
  have marks := (Spe.addrFormat_shape scanned).2
  have present : 'x' ∈ cString chunk := List.count_pos_iff.mp (by omega)
  exact absent ((List.takeWhile_prefix _).sublist.mem present)

/-- The part of a rule that `load_rules` reads. -/
def ruleFront (start stop : Nat) (token : List Char) : List Char :=
  "0x".toList ++ (Nat.toDigits 16 start ++ ("-0x".toList ++ (Nat.toDigits 16 stop
    ++ (" = ".toList ++ token))))

/-- A node column: some characters without blanks. -/
structure Column (token : List Char) : Prop where
  nonempty : token ≠ []
  solid : ∀ c ∈ token, isCSpace c = false ∧ c ≠ nul

/-- The front of a rule is on one line and has no NUL. -/
theorem ruleFront_plain (start stop : Nat) {token : List Char} (column : Column token)
    : ∀ c ∈ ruleFront start stop token, c ≠ nul ∧ c ≠ '\n' := by
  have digits (n : Nat) : ∀ c ∈ Nat.toDigits 16 n, c ≠ nul ∧ c ≠ '\n' := by
    intro c member
    have digit := isDigitOf_toDigits (by omega) (by omega) n c member
    constructor
    · rintro rfl
      exact absurd digit (by decide)
    · rintro rfl
      exact absurd digit (by decide)
  have literal {text : List Char}
      (checked : text.all (fun c => c ≠ nul ∧ c ≠ '\n') = true)
      : ∀ c ∈ text, c ≠ nul ∧ c ≠ '\n' :=
    List.all_iff_forall_prop.mp checked
  unfold ruleFront
  simp only [List.forall_mem_append]
  refine ⟨literal rfl, digits start, literal rfl, digits stop, literal rfl, fun c member => ?_⟩
  obtain ⟨solid, notNul⟩ := column.solid c member
  refine ⟨notNul, ?_⟩
  rintro rfl
  exact absurd solid (by decide)

/-- The address form reads both bounds and the node. -/
theorem sscanf_ruleFront {start stop : Nat} {token more : List Char} (column : Column token)
    (startFits : start < 2 ^ 64) (stopFits : stop < 2 ^ 64)
    : sscanf Interc.addrFormat (ruleFront start stop token ++ ' ' :: more)
      = [.num start, .num stop, .str (token.take 31)] := by
  have regroup : ruleFront start stop token ++ ' ' :: more
      = '0' :: 'x' :: (Nat.toDigits 16 start ++ ('-' :: '0' :: 'x' :: (Nat.toDigits 16 stop
        ++ (' ' :: '=' :: ' ' :: (token ++ ' ' :: more))))) := by
    simp [ruleFront]
  have blank (text : List Char) (format : List Directive)
      : sscanf (.blank :: .lit '=' :: format) (' ' :: '=' :: text) = sscanf format text := by
    have skip : (' ' :: '=' :: text).dropWhile isCSpace = '=' :: text := by
      rw [List.dropWhile_cons_of_pos (by decide), List.dropWhile_cons_of_neg (by decide)]
    rw [sscanf, skip, sscanf_lit]
  rw [regroup, Interc.addrFormat, sscanf_lit, sscanf_lit, sscanf_hex _ startFits, sscanf_lit,
    sscanf_lit, sscanf_lit, sscanf_hex _ stopFits, blank,
    Interc.sscanf_column column.nonempty (fun c member => (column.solid c member).1)]
  · rintro c ⟨⟩
    decide
  · rintro c ⟨⟩
    decide

/-- While there is room, the rule is stored. -/
theorem loadLine_ruleFront {start stop : Nat} {token more : List Char} (column : Column token)
    (startFits : start < 2 ^ 64) (stopFits : stop < 2 ^ 64) {tables : Interc.RuleTables}
    (room : tables.addrRules.length < Interc.maxAddrRules) (stale : List Char)
    : (Interc.loadLine tables
        (fgetsStore stale (ruleFront start stop token ++ ' ' :: more))).addrRules
      = tables.addrRules ++ [⟨start, stop, Interc.nodeOf (token.take 31)⟩] := by
  have content : cString (fgetsStore stale (ruleFront start stop token ++ ' ' :: more))
      = ruleFront start stop token ++ ' ' :: cString more := by
    rw [cString_fgetsStore, cString_append _
      (fun member => (ruleFront_plain start stop column nul member).1 rfl)]
    rfl
  have first : (fgetsStore stale (ruleFront start stop token ++ ' ' :: more)).head? = some '0' :=
    rfl
  unfold Interc.loadLine
  rw [content, first, sscanf_ruleFront column startFits stopFits, if_neg (by decide)]
  dsimp only
  rw [if_pos room]

/-- The line of a rule adds it, with any note behind it that does not look like an address. -/
theorem AddsRules.of_rule {start stop : Nat} {token note : List Char} (column : Column token)
    (startFits : start < 2 ^ 64) (stopFits : stop < 2 ^ 64)
    (short : (ruleFront start stop token).length < 511) (unmarked : Spe.Unmarked note)
    : AddsRules (ruleFront start stop token ++ ' ' :: note)
        [⟨start, stop, Interc.nodeOf (token.take 31)⟩] := by
  intro state room
  have oneLine : '\n' ∉ ruleFront start stop token ++ ' ' :: note := by
    intro member
    rcases List.mem_append.mp member with front | behind
    · exact (ruleFront_plain start stop column _ front).2 rfl
    rcases List.mem_cons.mp behind with blank | inNote
    · exact absurd blank (by decide)
    · exact (unmarked _ inNote).2 rfl
  obtain ⟨left, fits⟩ := Nat.exists_eq_add_of_lt short
  have beyond : 511 - (ruleFront start stop token).length = left + 1 := by omega
  have taken : (ruleFront start stop token ++ ' ' :: note ++ ['\n']).take 511
      = ruleFront start stop token ++ ' ' :: (note ++ ['\n']).take left := by
    rw [List.append_assoc, List.take_append, List.take_of_length_le (Nat.le_of_lt short), beyond,
      List.cons_append, List.take_succ_cons]
  have later : ∀ c ∈ (ruleFront start stop token ++ ' ' :: note ++ ['\n']).drop 511,
      c ∈ note ++ ['\n'] := by
    rw [List.append_assoc, List.drop_append, List.drop_eq_nil_of_le (Nat.le_of_lt short), beyond,
      List.nil_append, List.cons_append, List.drop_succ_cons]
    exact fun c member => List.mem_of_mem_drop member
  rw [fgetsAll_first (by decide) oneLine]
  have size : Interc.lineSize - 1 = 511 := rfl
  rw [size, taken, List.foldl_cons, loadChunks_noAddress]
  · exact loadLine_ruleFront column startFits stopFits
      (Nat.lt_of_lt_of_le (Nat.lt_succ_self _) room) state.1
  · intro chunk member
    refine noAddress_of_unmarked (fun inside => ?_)
    have inNote := later 'x' (mem_of_mem_fgetsAll member 'x' inside)
    rcases List.mem_append.mp inNote with inside | newline
    · exact (unmarked 'x' inside).1 rfl
    · exact absurd newline (by decide)

-----------------------------------------------------------------------------------------
-- The lines of the configuration
-----------------------------------------------------------------------------------------

/-- The name of a node is one column. -/
theorem Node.column_text (node : Node) : Column node.text :=
  ⟨node.text_plain.1, node.text_plain.2⟩

/-- A number has no x and no newline. -/
theorem unmarked_strInt (n : Int) : Spe.Unmarked (str n) := by
  intro c member
  rcases mem_str member with digit | rfl
  · constructor
    · rintro rfl
      exact absurd digit (by decide)
    · rintro rfl
      exact absurd digit (by decide)
  · decide

theorem Node.unmarked_text (node : Node) : Spe.Unmarked node.text := by
  cases node with
  | id n => exact unmarked_strInt n
  | home => exact Spe.unmarked_of_check rfl

/-- Encoding brings no x and no newline. -/
theorem unmarked_utf8 {text : List Char} (unmarked : Spe.Unmarked text)
    : Spe.Unmarked (utf8 text) := by
  intro c member
  constructor
  · rintro rfl
    exact (unmarked _ (mem_of_mem_utf8 (by decide) member)).1 rfl
  · rintro rfl
    exact (unmarked _ (mem_of_mem_utf8 (by decide) member)).2 rfl

/-- The front of a rule fits the buffer with a short token. -/
theorem ruleFront_length {start stop : Nat} {token : List Char} (startFits : start < 2 ^ 64)
    (stopFits : stop < 2 ^ 64)
    : (ruleFront start stop token).length ≤ 40 + token.length := by
  have digits {n : Nat} (fits : n < 2 ^ 64) : (Nat.toDigits 16 n).length ≤ 16 :=
    (Nat.length_toDigits_le_iff (by omega) (by omega)).mpr (by omega)
  have first := digits startFits
  have second := digits stopFits
  simp only [ruleFront, List.length_append, String.length_toList]
  have literals : "0x".length = 2 ∧ "-0x".length = 3 ∧ " = ".length = 3 := by decide
  omega

section
variable {F : Type} [PyReal F]

omit [PyReal F] in
/-- A range of addresses. -/
def PageRange.InSpace (range : PageRange F) : Prop := 0 ≤ range.start ∧ range.stop < 2 ^ 64

omit [PyReal F] in
instance (range : PageRange F) : Decidable range.InSpace :=
  inferInstanceAs (Decidable (_ ∧ _))

omit [PyReal F] in
/-- The rule that a range becomes. -/
def PageRange.addrRule (node : Node) (range : PageRange F) : Interc.AddrRule :=
  ⟨range.start.toNat, range.stop.toNat, node.stored⟩

/-- The note behind a rule has no x and no newline. -/
theorem rangeNote_unmarked (format : ∀ x : F, Spe.Unmarked (PyReal.format1 x))
    (range : PageRange F)
    : Spe.Unmarked (rangeNote range) :=
  (((((Spe.unmarked_of_check rfl).append (Spe.unmarked_str _)).append
    (Spe.unmarked_of_check rfl)).append (format _)).append
    (Spe.unmarked_of_check rfl)).append (unmarked_strInt _)

/-- The bytes of a rule: what `load_rules` reads, and the note. -/
theorem utf8_rangeRule {range : PageRange F} (inSpace : range.InSpace) (node : Node)
    : utf8 (rangeRule node range)
      = ruleFront range.start.toNat range.stop.toNat node.text
        ++ ' ' :: utf8 (rangeNote range) := by
  have ordered := range.ordered
  obtain ⟨nonneg, _⟩ := inSpace
  have printed {n : Int} (low : 0 ≤ n) : hexInt n = Nat.toDigits 16 n.toNat := by
    rw [hexInt, if_neg (by omega), List.nil_append]
    congr 1
    omega
  have parts : rangeRule node range
      = (ruleFront range.start.toNat range.stop.toNat node.text ++ [' ']) ++ rangeNote range := by
    delta rangeRule
    rw [ruleFront, printed nonneg, printed (nonneg.trans ordered)]
    simp only [List.append_assoc]
    rfl
  have digits (n : Nat) : Ascii (Nat.toDigits 16 n) := by
    intro c member
    have digit := isDigitOf_hex (isDigitOf_toDigits (by omega) (by omega) n c member)
    omega
  have literal {text : List Char} (checked : text.all (fun c => c.toNat ≤ 127) = true)
      : Ascii text := by
    simpa [Ascii] using checked
  have ascii : Ascii (ruleFront range.start.toNat range.stop.toNat node.text ++ [' ']) :=
    ((literal rfl).append ((digits _).append ((literal rfl).append ((digits _).append
      ((literal rfl).append node.tidy_text.ascii))))).append (literal rfl)
  rw [parts, utf8_append, utf8_ascii ascii, List.append_assoc, List.singleton_append]

/-- The line of a range adds its rule. -/
theorem AddsRules.of_rangeRule (format : ∀ x : F, Spe.Unmarked (PyReal.format1 x))
    {range : PageRange F} (inSpace : range.InSpace) {node : Node} (short : node.text.length ≤ 470)
    : AddsRules (utf8 (rangeRule node range)) [range.addrRule node] := by
  have ordered := range.ordered
  obtain ⟨nonneg, below⟩ := inSpace
  have startFits : range.start.toNat < 2 ^ 64 := by omega
  have stopFits : range.stop.toNat < 2 ^ 64 := by omega
  have length : (ruleFront range.start.toNat range.stop.toNat node.text).length
      ≤ 40 + node.text.length :=
    ruleFront_length startFits stopFits
  rw [utf8_rangeRule ⟨nonneg, below⟩]
  exact .of_rule node.column_text startFits stopFits (by omega)
    (unmarked_utf8 (rangeNote_unmarked format range))

theorem utf8_rangeRule_oneLine (format : ∀ x : F, Spe.Unmarked (PyReal.format1 x))
    {range : PageRange F} (inSpace : range.InSpace) (node : Node)
    : '\n' ∉ utf8 (rangeRule node range) := by
  rw [utf8_rangeRule inSpace]
  intro member
  rcases List.mem_append.mp member with front | behind
  · exact (ruleFront_plain _ _ node.column_text _ front).2 rfl
  rcases List.mem_cons.mp behind with blank | inNote
  · exact absurd blank (by decide)
  · exact (unmarked_utf8 (rangeNote_unmarked format range) _ inNote).2 rfl

-----------------------------------------------------------------------------------------
-- The whole file
-----------------------------------------------------------------------------------------

/-- A comment with the rules that it adds. -/
def commentEntry (line : List Char) : List Char × List Interc.AddrRule := (utf8 line, [])

def ruleEntry (node : Node) (range : PageRange F) : List Char × List Interc.AddrRule :=
  (utf8 (rangeRule node range), [range.addrRule node])

def tierEntries (tier : String) (ranges : List (PageRange F)) (node : Node)
    : List (List Char × List Interc.AddrRule) :=
  commentEntry (tierTitle tier (rangesOf tier ranges) node)
    :: (rangesOf tier ranges).map (ruleEntry node)

/-- The lines of the configuration with the rules that they add. -/
def confEntries (ranges : List (PageRange F)) (fastNode slowNode : Node) (now : Stamp)
    : List (List Char × List Interc.AddrRule) :=
  [commentEntry "# KUMF interc configuration (page-range based)".toList,
    commentEntry ("# Generated: ".toList ++ now.text),
    commentEntry
      ("# Fast node: ".toList ++ fastNode.text ++ " | Slow node: ".toList ++ slowNode.text),
    commentEntry []]
  ++ tierEntries "HOT" ranges fastNode
  ++ commentEntry [] :: tierEntries "WARM" ranges fastNode
  ++ commentEntry [] :: tierEntries "COLD" ranges slowNode

/-- The lines of a tier with what each of them adds. -/
theorem tierEntries_lines (tier : String) (ranges : List (PageRange F)) (node : Node)
    : (tierEntries tier ranges node).map Prod.fst = (tierLines tier ranges node).map utf8 := by
  rw [tierEntries, tierLines, List.map_cons, List.map_cons, List.map_map, List.map_map]
  rfl

/-- The lines of the file with what each of them adds. -/
theorem confEntries_lines (ranges : List (PageRange F)) (fastNode slowNode : Node) (now : Stamp)
    : (confEntries ranges fastNode slowNode now).map Prod.fst
      = (rangeConfLines ranges fastNode slowNode now).map utf8 := by
  simp only [confEntries, rangeConfLines, List.map_append, List.map_cons, tierEntries_lines]
  rfl

/-- The address rules of the configuration. -/
def rangeRules (ranges : List (PageRange F)) (fastNode slowNode : Node) : List Interc.AddrRule :=
  (rangesOf "HOT" ranges).map (PageRange.addrRule fastNode)
    ++ (rangesOf "WARM" ranges).map (PageRange.addrRule fastNode)
    ++ (rangesOf "COLD" ranges).map (PageRange.addrRule slowNode)

/-- What the lines of a tier add together. -/
theorem tierEntries_rules (tier : String) (ranges : List (PageRange F)) (node : Node)
    : (tierEntries tier ranges node).flatMap Prod.snd
      = (rangesOf tier ranges).map (PageRange.addrRule node) := by
  rw [tierEntries, List.flatMap_cons, List.flatMap_map]
  change List.flatMap (fun range => [PageRange.addrRule node range]) (rangesOf tier ranges) = _
  exact List.flatMap_pure_eq_map _ _

/-- What the lines of the file add together. -/
theorem confEntries_rules (ranges : List (PageRange F)) (fastNode slowNode : Node) (now : Stamp)
    : (confEntries ranges fastNode slowNode now).flatMap Prod.snd
      = rangeRules ranges fastNode slowNode := by
  simp only [confEntries, List.flatMap_append, List.flatMap_cons, tierEntries_rules]
  rfl

/-- An entry of the file: its line ends where it should, and it adds the rules named beside it. -/
structure EntryFits (entry : List Char × List Interc.AddrRule) : Prop where
  oneLine : '\n' ∉ entry.1
  adds : AddsRules entry.1 entry.2

omit [PyReal F] in
/-- A comment adds no rule. -/
theorem EntryFits.of_comment {line : List Char} (comment : line.head? = some '#')
    (unmarked : Spe.Unmarked line)
    : EntryFits (commentEntry line) :=
  ⟨(Spe.addressFree_comment comment unmarked).oneLine,
    .of_free (Spe.addressFree_comment comment unmarked)⟩

theorem EntryFits.of_empty : EntryFits (commentEntry []) :=
  ⟨Spe.addressFree_nil.oneLine, .of_free Spe.addressFree_nil⟩

/-- Every line of a tier adds what it is said to add. -/
theorem tierEntries_fit (format : ∀ x : F, Spe.Unmarked (PyReal.format1 x)) {tier : String}
    (plain : Spe.Unmarked tier.toList) {ranges : List (PageRange F)}
    (inSpace : ∀ range ∈ ranges, range.InSpace) {node : Node} (short : node.text.length ≤ 470)
    : ∀ entry ∈ tierEntries tier ranges node, EntryFits entry := by
  intro entry member
  rcases List.mem_cons.mp member with rfl | rule
  · refine .of_comment rfl ?_
    exact (((((((Spe.unmarked_of_check rfl).append plain).append
      (Spe.unmarked_of_check rfl)).append (Spe.unmarked_str _)).append
      (Spe.unmarked_of_check rfl)).append (Spe.unmarked_str _)).append
      (Spe.unmarked_of_check rfl)).append node.unmarked_text
  · obtain ⟨range, ofTier, rfl⟩ := List.mem_map.mp rule
    have valid := inSpace range (List.mem_filter.mp ofTier).1
    exact ⟨utf8_rangeRule_oneLine format valid node, .of_rangeRule format valid short⟩

/-- Every line of the file adds what it is said to add. -/
theorem confEntries_fit (format : ∀ x : F, Spe.Unmarked (PyReal.format1 x))
    {ranges : List (PageRange F)} (inSpace : ∀ range ∈ ranges, range.InSpace)
    {fastNode slowNode : Node} (fastShort : fastNode.text.length ≤ 470)
    (slowShort : slowNode.text.length ≤ 470) (now : Stamp)
    : ∀ entry ∈ confEntries ranges fastNode slowNode now, EntryFits entry := by
  unfold confEntries
  simp only [List.forall_mem_append, List.forall_mem_cons]
  refine ⟨⟨⟨
    ⟨.of_comment rfl (Spe.unmarked_of_check rfl), .of_comment rfl ?_, .of_comment rfl ?_,
      .of_empty, nofun⟩, ?hot⟩, .of_empty, ?warm⟩, .of_empty, ?cold⟩
  · exact (Spe.unmarked_of_check rfl).append (Spe.unmarked_stamp now)
  · exact (((Spe.unmarked_of_check rfl).append fastNode.unmarked_text).append
      (Spe.unmarked_of_check rfl)).append slowNode.unmarked_text
  case hot => exact tierEntries_fit format (Spe.unmarked_of_check rfl) inSpace fastShort
  case warm => exact tierEntries_fit format (Spe.unmarked_of_check rfl) inSpace fastShort
  case cold => exact tierEntries_fit format (Spe.unmarked_of_check rfl) inSpace slowShort

omit [PyReal F] in
/-- Each range is in at most one tier. -/
theorem rangeRules_length (ranges : List (PageRange F)) (fastNode slowNode : Node)
    : (rangeRules ranges fastNode slowNode).length ≤ ranges.length := by
  have distinct : ["HOT", "WARM", "COLD"].Pairwise
      (fun tier other : String => tier.toList ≠ other.toList) := by
    decide
  have apart : ["HOT", "WARM", "COLD"].Pairwise (fun tier other : String => ∀ range : PageRange F,
      ¬ (decide (range.tier = tier.toList) = true
          ∧ decide (range.tier = other.toList) = true)) := by
    refine distinct.imp (fun differ range both => differ ?_)
    rw [← of_decide_eq_true both.1, of_decide_eq_true both.2]
  have total := sum_filters_le (fun _ => 1) apart ranges
  simp only [List.map_cons, List.map_nil, List.sum_cons, List.sum_nil, List.map_const',
    List.sum_replicate_nat, Nat.mul_one] at total
  simp only [rangeRules, rangesOf, List.length_append, List.length_map]
  omega

/-- In a new process the loop starts from empty tables. -/
theorem loadedAddrRules_eq (stale conf : List Char)
    : Spe.loadedAddrRules stale conf
      = ((fgetsAll Interc.lineSize (utf8 conf)).foldl Interc.loadChunk
          (stale, ({} : Interc.RuleTables))).2.addrRules :=
  rfl

/-- `load_rules` reads every range back. -/
theorem loadedAddrRules_ranges (format : ∀ x : F, Spe.Unmarked (PyReal.format1 x))
    {ranges : List (PageRange F)} (few : ranges.length ≤ Interc.maxAddrRules)
    (inSpace : ∀ range ∈ ranges, range.InSpace) {fastNode slowNode : Node}
    (fastShort : fastNode.text.length ≤ 470) (slowShort : slowNode.text.length ≤ 470)
    (now : Stamp) (stale : List Char)
    : Spe.loadedAddrRules stale (generateIntercConfPageRanges ranges fastNode slowNode now)
      = rangeRules ranges fastNode slowNode := by
  have fit := confEntries_fit format inSpace fastShort slowShort now
  have room : ((confEntries ranges fastNode slowNode now).flatMap Prod.snd).length
      ≤ Interc.maxAddrRules := by
    rw [confEntries_rules]
    exact (rangeRules_length ranges fastNode slowNode).trans few
  have loaded := loadText_addrRules (fun entry member => (fit entry member).oneLine)
    (fun entry member => (fit entry member).adds) (stale, ({} : Interc.RuleTables))
    (by rwa [List.length_nil, Nat.zero_add])
  rw [confEntries_lines, confEntries_rules, List.nil_append, ← utf8_unlines] at loaded
  rw [loadedAddrRules_eq, generateIntercConfPageRanges]
  exact loaded

-----------------------------------------------------------------------------------------
-- The node of an address
-----------------------------------------------------------------------------------------

/-- What the rules have to answer. -/
structure RoutesRanges (ranges : List (PageRange F)) (fastNode slowNode : Int)
    (addrRules : List Interc.AddrRule)
    : Prop where
  fast
    : ∀ range ∈ ranges,
        range.tier = "HOT".toList ∨ range.tier = "WARM".toList
        → ∀ a : Nat, range.Contains a → Interc.matchAddr addrRules a = fastNode
  slow
    : ∀ range ∈ ranges,
        range.tier = "COLD".toList
        → ∀ a : Nat, range.Contains a → Interc.matchAddr addrRules a = slowNode
  elsewhere
    : ∀ a : Nat,
        (∀ range ∈ ranges, ¬ range.Contains a) → Interc.matchAddr addrRules a = -1

/-- Disjoint ranges of addresses that fit the table, each in a tier. -/
structure RoutableRanges (ranges : List (PageRange F)) : Prop where
  few : ranges.length ≤ 8192
  tiers
    : ∀ range ∈ ranges,
        (range.tier = "HOT".toList ∨ range.tier = "WARM".toList)
        ∨ range.tier = "COLD".toList
  inSpace : ∀ range ∈ ranges, range.InSpace
  disjoint
    : ranges.Pairwise (fun range other => ∀ a, ¬ (range.Contains a ∧ other.Contains a))

omit [PyReal F] in
/-- The rule of a range is about its addresses. -/
theorem addrRule_contains {range : PageRange F} (inSpace : range.InSpace) (node : Node) (a : Nat)
    : (range.addrRule node).contains a = true ↔ range.Contains a := by
  have ordered := range.ordered
  have nonneg := inSpace.1
  rw [Interc.AddrRule.contains_iff, PageRange.Contains, PageRange.addrRule]
  dsimp only
  omega

omit [PyReal F] in
/-- The rules of a file, by the tiers of their ranges. -/
theorem mem_rangeRules {ranges : List (PageRange F)} {fastNode slowNode : Node}
    {rule : Interc.AddrRule}
    : rule ∈ rangeRules ranges fastNode slowNode
      ↔ ∃ range ∈ ranges,
          ((range.tier = "HOT".toList ∨ range.tier = "WARM".toList)
            ∧ range.addrRule fastNode = rule)
          ∨ (range.tier = "COLD".toList ∧ range.addrRule slowNode = rule) := by
  simp only [rangeRules, rangesOf, List.mem_append, List.mem_map, List.mem_filter,
    decide_eq_true_eq]
  constructor
  · rintro ((⟨range, ⟨member, tier⟩, same⟩ | ⟨range, ⟨member, tier⟩, same⟩)
      | ⟨range, ⟨member, tier⟩, same⟩)
    · exact ⟨range, member, .inl ⟨.inl tier, same⟩⟩
    · exact ⟨range, member, .inl ⟨.inr tier, same⟩⟩
    · exact ⟨range, member, .inr ⟨tier, same⟩⟩
  · rintro ⟨range, member, ⟨tier | tier, same⟩ | ⟨tier, same⟩⟩
    · exact .inl (.inl ⟨range, ⟨member, tier⟩, same⟩)
    · exact .inl (.inr ⟨range, ⟨member, tier⟩, same⟩)
    · exact .inr ⟨range, ⟨member, tier⟩, same⟩

/-- The rules that contain an address agree on its node. -/
theorem matchAddr_of_agree {rules : List Interc.AddrRule} {rule : Interc.AddrRule} {a : Nat}
    (member : rule ∈ rules) (contains : rule.contains a = true)
    (agree : ∀ other ∈ rules, other.contains a = true → other.node = rule.node)
    : Interc.matchAddr rules a = rule.node := by
  rw [Interc.matchAddr_eq_find?]
  cases found : rules.find? (fun rule => rule.contains a) with
  | none => exact absurd contains (List.find?_eq_none.mp found rule member)
  | some other =>
      exact agree other (List.mem_of_find?_eq_some found)
        (by simpa using List.find?_some found)

/-- An address in no rule has no node. -/
theorem matchAddr_of_absent {rules : List Interc.AddrRule} {a : Nat}
    (absent : ∀ rule ∈ rules, ¬ rule.contains a = true)
    : Interc.matchAddr rules a = -1 := by
  rw [Interc.matchAddr_eq_find?, List.find?_eq_none.mpr absent]
  rfl

section
variable {ranges : List (PageRange F)}

omit [PyReal F] in
/-- Only one range contains an address. -/
theorem RoutableRanges.same (valid : RoutableRanges ranges) {range other : PageRange F}
    (member : range ∈ ranges) (otherMember : other ∈ ranges) {a : Int}
    (contains : range.Contains a) (otherContains : other.Contains a)
    : other = range := by
  by_contra distinct
  have symmetric : Std.Symm (fun range other : PageRange F =>
      ∀ a, ¬ (range.Contains a ∧ other.Contains a)) :=
    ⟨fun _ _ apart a both => apart a both.symm⟩
  exact valid.disjoint.forall otherMember member distinct a ⟨otherContains, contains⟩

omit [PyReal F] in
/-- The rules of disjoint ranges send each address to the node of its range. -/
theorem RoutableRanges.routes (valid : RoutableRanges ranges) (fastNode slowNode : Node)
    : RoutesRanges ranges fastNode.stored slowNode.stored
        (rangeRules ranges fastNode slowNode) := by
  have cold : "HOT".toList ≠ "COLD".toList ∧ "WARM".toList ≠ "COLD".toList := by decide
  constructor
  case fast =>
    intro range member tier a contains
    have rule : range.addrRule fastNode ∈ rangeRules ranges fastNode slowNode :=
      mem_rangeRules.mpr ⟨range, member, .inl ⟨tier, rfl⟩⟩
    refine matchAddr_of_agree rule
      ((addrRule_contains (valid.inSpace range member) fastNode a).mpr contains) ?_
    intro other otherRule otherContains
    obtain ⟨range', member', ⟨_, rfl⟩ | ⟨tier', rfl⟩⟩ := mem_rangeRules.mp otherRule
    · rfl
    · rw [addrRule_contains (valid.inSpace range' member')] at otherContains
      rw [valid.same member member' contains otherContains] at tier'
      rcases tier with hot | warm
      · exact absurd (hot.symm.trans tier') cold.1
      · exact absurd (warm.symm.trans tier') cold.2
  case slow =>
    intro range member tier a contains
    have rule : range.addrRule slowNode ∈ rangeRules ranges fastNode slowNode :=
      mem_rangeRules.mpr ⟨range, member, .inr ⟨tier, rfl⟩⟩
    refine matchAddr_of_agree rule
      ((addrRule_contains (valid.inSpace range member) slowNode a).mpr contains) ?_
    intro other otherRule otherContains
    obtain ⟨range', member', ⟨tier', rfl⟩ | ⟨_, rfl⟩⟩ := mem_rangeRules.mp otherRule
    · rw [addrRule_contains (valid.inSpace range' member')] at otherContains
      rw [valid.same member member' contains otherContains] at tier'
      rcases tier' with hot | warm
      · exact absurd (hot.symm.trans tier) cold.1
      · exact absurd (warm.symm.trans tier) cold.2
    · rfl
  case elsewhere =>
    intro a outside
    refine matchAddr_of_absent (fun rule member contains => ?_)
    obtain ⟨range, inRanges, ⟨_, rfl⟩ | ⟨_, rfl⟩⟩ := mem_rangeRules.mp member
    · exact outside range inRanges
        ((addrRule_contains (valid.inSpace range inRanges) fastNode a).mp contains)
    · exact outside range inRanges
        ((addrRule_contains (valid.inSpace range inRanges) slowNode a).mp contains)

end

/-- A node of a C `int` is printed with few digits and stored as it is. -/
theorem Node.stored_id {n : Nat} (fits : n < 2 ^ 31)
    : (Node.id n).stored = n ∧ (Node.id n).text.length ≤ 10 := by
  have printed : (Node.id n).text = (Numeral.dec n).digits := str_natCast n
  have length : (Numeral.dec n).digits.length ≤ 10 :=
    (Nat.length_toDigits_le_iff (by omega) (by omega)).mpr (by omega)
  have number : atoi ((Numeral.dec n).digits ++ []) = (Numeral.dec n).value :=
    atoi_numeral (Numeral.dec n) nofun (by rwa [Numeral.value_dec])
  rw [List.append_nil, Numeral.value_dec] at number
  have notLocal : (Numeral.dec n).digits ≠ "local".toList := by
    intro same
    have digit := (Numeral.dec n).valid 'l' (by rw [same]; decide)
    exact absurd digit (by decide)
  rw [Node.stored, printed, List.take_of_length_le (by omega), Interc.nodeOf, if_neg notLocal]
  exact ⟨number, length⟩

/-- Read back by `load_rules`, the configuration sends every address of a range to the node of
its tier.
-/
theorem matchAddr_rangeConf (format : ∀ x : F, Spe.Unmarked (PyReal.format1 x))
    {ranges : List (PageRange F)} (valid : RoutableRanges ranges) {fastNode slowNode : Nat}
    (fastFits : fastNode < 2 ^ 31) (slowFits : slowNode < 2 ^ 31) (now : Stamp)
    (stale : List Char)
    : RoutesRanges ranges fastNode slowNode
        (Spe.loadedAddrRules stale
          (generateIntercConfPageRanges ranges (.id fastNode) (.id slowNode) now)) := by
  obtain ⟨fastStored, fastShort⟩ := Node.stored_id fastFits
  obtain ⟨slowStored, slowShort⟩ := Node.stored_id slowFits
  have routes := valid.routes (.id fastNode) (.id slowNode)
  rw [fastStored, slowStored] at routes
  rwa [loadedAddrRules_ranges format valid.few valid.inSpace (by omega) (by omega)]

end

/-- A range of whole pages at an address. -/
def pagesAt (start : Int) (pageCount : Nat) (tier : String) : PageRange ℚ where
  start
  stop := start + 4096 * pageCount
  tier := tier.toList
  pageCount
  totalAccess := 0
  avgPac := 0
  ordered := by omega

def tieredRanges : List (PageRange ℚ) :=
  [pagesAt 0x400000 3 "HOT", pagesAt 0x7f0000000000 1 "COLD", pagesAt 0x403000 2 "WARM"]

theorem tieredRanges_routable : RoutableRanges tieredRanges where
  few := by decide
  tiers := by decide
  inSpace := by decide
  disjoint := by
    simp only [tieredRanges, List.pairwise_cons, List.forall_mem_cons, PageRange.Contains, pagesAt]
    refine ⟨⟨?_, ?_, List.forall_mem_nil _⟩, ⟨?_, List.forall_mem_nil _⟩,
      List.forall_mem_nil _, .nil⟩
    all_goals
      intro a both
      omega

theorem matchAddr_rangeConf_tiered
    : RoutesRanges tieredRanges 0 1
        (Spe.loadedAddrRules []
          (generateIntercConfPageRanges tieredRanges (.id 0) (.id 1) ⟨2026, 1, 1, 0, 0, 0⟩)) :=
  matchAddr_rangeConf (fun _ => Spe.unmarked_tenths _) tieredRanges_routable
    (by decide : 0 < 2 ^ 31) (by decide : 1 < 2 ^ 31) ⟨2026, 1, 1, 0, 0, 0⟩ []

/-- A node that no `int` holds comes back as another one. -/
theorem wideNode_misrouted
    : RoutableRanges tieredRanges
      ∧ ¬ RoutesRanges tieredRanges 4294967297 0
          (Spe.loadedAddrRules []
            (generateIntercConfPageRanges tieredRanges (.id 4294967297) (.id 0)
              ⟨2026, 1, 1, 0, 0, 0⟩)) := by
  refine ⟨tieredRanges_routable, fun routes => ?_⟩
  have answer := routes.fast _ List.mem_cons_self (.inl rfl) 0x400000
    ⟨by decide, by decide⟩
  rw [loadedAddrRules_ranges (fun _ => Spe.unmarked_tenths _) (by decide)
    tieredRanges_routable.inSpace (by decide) (by decide)] at answer
  exact absurd answer (by decide)

end Kumf.PacToInterc
