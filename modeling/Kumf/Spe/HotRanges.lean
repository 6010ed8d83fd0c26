import Kumf.Interc.ConfLines
import Kumf.Library.Keeping
import Kumf.Library.PyInt
import Kumf.PacToInterc.AllocBased
import Kumf.Spe.ReportRun

/-! The configuration of `generate_report` under `load_rules`. Its ranges start with
`page_range:`, which no form of the loader has, so no line reaches the address table.
-/

namespace Kumf.Spe

open Kumf.Library PyText Kumf.Interc Kumf.PacToInterc

-----------------------------------------------------------------------------------------
-- The address form
-----------------------------------------------------------------------------------------

/-- A line of the address form starts with a zero and has two hexadecimal prefixes. -/
theorem addrFormat_shape {text : List Char} {start stop : Nat} {node : List Char}
    (scanned : sscanf addrFormat text = [.num start, .num stop, .str node])
    : text.head? = some '0' ∧ 2 ≤ text.count 'x' := by
  obtain ⟨behindZero, rfl, zero⟩ := sscanf_lit_eq_cons scanned
  obtain ⟨number, rfl, form⟩ := sscanf_lit_eq_cons zero
  obtain ⟨rest, suffix, dash⟩ := sscanf_unsigned_eq_cons form
  obtain ⟨behindDash, rfl, second⟩ := sscanf_lit_eq_cons dash
  obtain ⟨behindSecond, rfl, last⟩ := sscanf_lit_eq_cons second
  obtain ⟨stopNumber, rfl, _⟩ := sscanf_lit_eq_cons last
  have behind : 1 ≤ number.count 'x' := by
    refine le_trans ?_ (suffix.sublist.count_le 'x')
    simp
  refine ⟨rfl, ?_⟩
  rw [List.count_cons_of_ne (by decide), List.count_cons_self]
  omega

/-- No part of the line in the buffer of `load_rules` has the address form. -/
structure AddressFree (line : List Char) : Prop where
  oneLine : '\n' ∉ line
  first : line.head? ≠ some '0'
  later : (line.drop 511).count 'x' ≤ 1

/-- A chunk that does not go to the address table. -/
def NoAddress (chunk : List Char) : Prop :=
  ∀ start stop node, sscanf addrFormat (cString chunk) ≠ [.num start, .num stop, .str node]

/-- The first piece has the wrong first character, a later one too few prefixes. -/
theorem AddressFree.pieces {line : List Char} (free : AddressFree line) (k : Nat)
    : NoAddress (((line ++ ['\n']).drop (k * 511)).take 511) := by
  intro start stop node scanned
  obtain ⟨first, prefixes⟩ := addrFormat_shape scanned
  have inside : cString (((line ++ ['\n']).drop (k * 511)).take 511)
      <+: (line ++ ['\n']).drop (k * 511) :=
    (List.takeWhile_prefix _).trans (List.take_prefix _ _)
  cases k with
  | zero =>
      rw [Nat.zero_mul, List.drop_zero] at first inside
      obtain ⟨rest, whole⟩ := inside
      have head : (line ++ ['\n']).head? = some '0' := by
        rw [← whole, List.head?_append, first]
        rfl
      cases line with
      | nil => cases head
      | cons c line => exact free.first head
  | succ k =>
      have counted := inside.sublist.count_le 'x'
      have order : 511 ≤ (k + 1) * 511 := by omega
      have fewer := (List.drop_sublist_drop_left (line ++ ['\n']) order).count_le 'x'
      have ended : ((line ++ ['\n']).drop 511).count 'x' ≤ 1 := by
        rw [List.drop_append, List.count_append]
        have newline : (['\n'].drop (511 - line.length)).count 'x' = 0 :=
          List.count_eq_zero.mpr (fun member => by simpa using List.mem_of_mem_drop member)
        have := free.later
        omega
      omega

/-- The other forms leave the address rules alone. -/
theorem loadOtherForm_addrRules (tables : RuleTables) (line : List Char)
    : (loadOtherForm tables line).addrRules = tables.addrRules := by
  have added (minSize maxSize : Nat) (node : List Char)
      : (tables.addSizeRule minSize maxSize node).addrRules = tables.addrRules := by
    unfold RuleTables.addSizeRule
    split
    · rfl
    · rfl
  unfold loadOtherForm
  split
  · split
    · exact added _ _ _
    · rfl
  split
  · split
    · exact added _ _ _
    · rfl
  split
  · split
    · exact added _ _ _
    · rfl
  · split
    · split
      · rfl
      · rfl
    · rfl

/-- A line without an address rule leaves them alone. -/
theorem loadLine_addrRules (tables : RuleTables) (stale : List Char) {chunk : List Char}
    (none : NoAddress chunk)
    : (loadLine tables (fgetsStore stale chunk)).addrRules = tables.addrRules := by
  unfold loadLine
  split
  · rfl
  · split
    case h_1 start stop node scanned =>
        rw [cString_fgetsStore] at scanned
        exact absurd scanned (none start stop node)
    case h_2 => exact loadOtherForm_addrRules _ _

/-- The address rules after `load_rules` has read a configuration, in a process without rules. -/
def loadedAddrRules (stale conf : List Char) : List AddrRule :=
  (loadRules stale (some (utf8 conf)) .initial).tables.addrRules

/-- A file without the address form leaves the address table empty, by induction on its chunks. -/
theorem loadedAddrRules_unlines {lines : List (List Char)} (stale : List Char)
    (free : ∀ line ∈ lines, AddressFree (utf8 line))
    : loadedAddrRules stale (unlines lines) = [] := by
  have lineFree : ∀ line ∈ lines.map utf8, AddressFree line := List.forall_mem_map.mpr free
  have kept (tables : RuleTables) (text : List Char)
      (chunks : ∀ chunk ∈ fgetsAll lineSize text, NoAddress chunk)
      : (loadText stale tables text).addrRules = tables.addrRules := by
    unfold loadText
    generalize fgetsAll lineSize text = read at chunks
    induction read generalizing stale tables with
    | nil => rfl
    | cons chunk read ih =>
        rw [List.foldl_cons]
        exact (ih _ _ (fun other member =>
          chunks other (List.mem_cons_of_mem chunk member))).trans
          (loadLine_addrRules tables stale (chunks chunk List.mem_cons_self))
  rw [loadedAddrRules, utf8_unlines]
  exact kept {} (unlines (lines.map utf8))
    (forall_fgetsAll_lines (by decide) (fun line member => (lineFree line member).oneLine)
      (fun line member => (lineFree line member).pieces))

-----------------------------------------------------------------------------------------
-- The lines of the configuration
-----------------------------------------------------------------------------------------

/-- A text without the letter of a hexadecimal prefix, on one line. -/
def Unmarked (text : List Char) : Prop := ∀ c ∈ text, c ≠ 'x' ∧ c ≠ '\n'

theorem unmarked_of_check {text : List Char}
    (checked : text.all (fun c => c ≠ 'x' && c ≠ '\n') = true)
    : Unmarked text := by
  simpa [Unmarked] using checked

/-- Texts without marks one behind the other. -/
theorem Unmarked.append {front back : List Char} (left : Unmarked front) (right : Unmarked back)
    : Unmarked (front ++ back) :=
  fun c member => (List.mem_append.mp member).elim (left c) (right c)

theorem Unmarked.count_eq_zero {text : List Char} (unmarked : Unmarked text)
    : text.count 'x' = 0 :=
  List.count_eq_zero.mpr (fun member => (unmarked 'x' member).1 rfl)

/-- Hexadecimal digits are no marks. -/
theorem unmarked_of_hexDigits {text : List Char} (digits : ∀ c ∈ text, isDigitOf 16 c = true)
    : Unmarked text := by
  intro c member
  have digit := digits c member
  constructor
  · rintro rfl
    exact absurd digit (by decide)
  · rintro rfl
    exact absurd digit (by decide)

theorem unmarked_toDigits (n : Nat) : Unmarked (Nat.toDigits 10 n) :=
  unmarked_of_hexDigits (fun c member =>
    isDigitOf_hex_of_ten (isDigitOf_toDigits (by omega) (by omega) n c member))

theorem unmarked_str (n : Nat) : Unmarked (str n) := by
  rw [str_natCast]
  exact unmarked_toDigits n

theorem unmarked_padded (width n : Nat) : Unmarked (padded width n) := by
  refine Unmarked.append (fun c member => ?_) (unmarked_toDigits n)
  rw [(List.mem_replicate.mp member).2]
  decide

/-- A date has no marks. -/
theorem unmarked_stamp (stamp : Stamp) : Unmarked stamp.text := by
  have dash : Unmarked "-".toList := unmarked_of_check rfl
  have blank : Unmarked " ".toList := unmarked_of_check rfl
  have colon : Unmarked ":".toList := unmarked_of_check rfl
  have part (width n : Nat) : Unmarked (padded width n) := unmarked_padded width n
  exact ((((((((((part _ _).append dash).append (part _ _)).append dash).append (part _ _)).append
    blank).append (part _ _)).append colon).append (part _ _)).append colon).append (part _ _)

/-- A comment without a prefix is no address. -/
theorem addressFree_comment {line : List Char} (comment : line.head? = some '#')
    (unmarked : Unmarked line)
    : AddressFree (utf8 line) where
  oneLine := fun member => (unmarked _ (mem_of_mem_utf8 (by decide) member)).2 rfl
  first := by
    cases line with
    | nil => cases comment
    | cons c line =>
        cases comment
        exact fun starts => absurd (Option.some.inj starts) (by decide)
  later := by
    have none : (utf8 line).count 'x' = 0 :=
      List.count_eq_zero.mpr (fun member =>
        (unmarked 'x' (mem_of_mem_utf8 (by decide) member)).1 rfl)
    have fewer := (List.drop_sublist 511 (utf8 line)).count_le 'x'
    omega

theorem addressFree_nil : AddressFree (utf8 []) where
  oneLine := List.not_mem_nil
  first := nofun
  later := Nat.zero_le 1

/-- The line of a range of pages. -/
def pageRangeLine (range : Nat × Nat) : List Char :=
  "page_range:".toList ++ hex range.1 ++ "-".toList ++ hex range.2
    ++ " = local  # HOT tier (home-node-relative)".toList

/-- The line of a range is ASCII. -/
theorem utf8_pageRangeLine (range : Nat × Nat)
    : utf8 (pageRangeLine range) = pageRangeLine range := by
  have digits (n : Nat) : Ascii (hex n) := by
    refine Ascii.append (Tidy.of_check rfl).ascii (fun c member => ?_)
    have digit := isDigitOf_hex (isDigitOf_toDigits (by omega) (by omega) n c member)
    omega
  have form : Ascii "page_range:".toList := (Tidy.of_check rfl).ascii
  have dash : Ascii "-".toList := (Tidy.of_check rfl).ascii
  have note : Ascii " = local  # HOT tier (home-node-relative)".toList := (Tidy.of_check rfl).ascii
  exact utf8_ascii ((((form.append (digits _)).append dash).append (digits _)).append note)

/-- A range has one prefix behind its first address. -/
theorem addressFree_pageRangeLine (range : Nat × Nat)
    : AddressFree (utf8 (pageRangeLine range)) := by
  have note : Unmarked " = local  # HOT tier (home-node-relative)".toList := unmarked_of_check rfl
  have zero : Unmarked "-0".toList := unmarked_of_check rfl
  have number (n : Nat) : Unmarked (Nat.toDigits 16 n) :=
    unmarked_of_hexDigits (isDigitOf_toDigits (by omega) (by omega) n)
  let front := Nat.toDigits 16 range.1 ++ "-0".toList
  let back := Nat.toDigits 16 range.2 ++ " = local  # HOT tier (home-node-relative)".toList
  have frontFree : Unmarked front := (number range.1).append zero
  have backFree : Unmarked back := (number range.2).append note
  have regroup (first second : List Char)
      : "page_range:".toList ++ ("0x".toList ++ first) ++ "-".toList ++ ("0x".toList ++ second)
          ++ " = local  # HOT tier (home-node-relative)".toList
        = "page_range:0x".toList ++ (first ++ "-0".toList ++ ['x']
          ++ (second ++ " = local  # HOT tier (home-node-relative)".toList)) := by
    simp
  have parts : pageRangeLine range = "page_range:0x".toList ++ (front ++ ['x'] ++ back) :=
    regroup (Nat.toDigits 16 range.1) (Nat.toDigits 16 range.2)
  rw [utf8_pageRangeLine, parts]
  constructor
  · intro member
    rcases List.mem_append.mp member with inForm | member
    · exact absurd inForm (by decide)
    rcases List.mem_append.mp member with member | inBack
    · rcases List.mem_append.mp member with inFront | mark
      · exact (frontFree _ inFront).2 rfl
      · exact absurd mark (by decide)
    · exact (backFree _ inBack).2 rfl
  · exact fun starts => absurd (Option.some.inj starts) (by decide)
  · have count : (front ++ ['x'] ++ back).count 'x' = 1 := by
      rw [List.count_append, List.count_append, frontFree.count_eq_zero,
        backFree.count_eq_zero]
      rfl
    have short : "page_range:0x".toList.drop 511 = [] := List.drop_eq_nil_of_le (by decide)
    rw [List.drop_append, short, List.nil_append, ← count]
    exact (List.drop_sublist _ _).count_le 'x'

variable {F : Type} [PyReal F]

/-- A size in MB has no marks. -/
theorem megabytesOf_unmarked (format : ∀ x : F, Unmarked (PyReal.format1 x)) (pages : Nat)
    : Unmarked (megabytesOf F pages) :=
  (format _).append (unmarked_of_check rfl)

/-- No line of the ranges is an address rule. -/
theorem rangeLines_addressFree (format : ∀ x : F, Unmarked (PyReal.format1 x))
    (ranges : List (Nat × Nat)) (hotCount : Nat)
    : ∀ line ∈ rangeLines F ranges hotCount, AddressFree (utf8 line) := by
  intro line member
  rcases List.mem_append.mp member with member | more
  · rcases List.mem_append.mp member with title | range
    · rw [List.mem_singleton.mp title]
      refine addressFree_comment rfl ?_
      exact ((((((unmarked_of_check rfl).append (unmarked_str _)).append
        (unmarked_of_check rfl)).append (unmarked_str _)).append
        (unmarked_of_check rfl)).append (megabytesOf_unmarked format _)).append
        (unmarked_of_check rfl)
    · obtain ⟨bounds, _, rfl⟩ := List.mem_map.mp range
      exact addressFree_pageRangeLine bounds
  · split at more
    · rw [List.mem_singleton.mp more]
      refine addressFree_comment rfl ?_
      exact ((unmarked_of_check rfl).append (unmarked_str _)).append (unmarked_of_check rfl)
    · cases more

/-- The lines in front of the ranges. -/
def confHeader (clock : Clock) (thresholds : Thresholds F) (pages : List (PageScore F))
    : List (List Char) :=
  ["# KUMF auto-generated interc configuration".toList,
    "# Generated: ".toList ++ clock.conf,
    "# Pages: ".toList ++ str pages.length ++ " (HOT:".toList
      ++ str (hotPages thresholds pages).length ++ " WARM:".toList
      ++ str (warmPages thresholds pages).length ++ " COLD:".toList
      ++ str (coldPages thresholds pages).length ++ ")".toList,
    []]

/-- No line of the header is an address rule. -/
theorem confHeader_addressFree {clock : Clock} (date : Unmarked clock.conf)
    (thresholds : Thresholds F) (pages : List (PageScore F))
    : ∀ line ∈ confHeader clock thresholds pages, AddressFree (utf8 line) := by
  simp only [confHeader, List.forall_mem_cons]
  refine ⟨addressFree_comment rfl (unmarked_of_check rfl), addressFree_comment rfl ?_,
    addressFree_comment rfl ?_, addressFree_nil, nofun⟩
  · exact (unmarked_of_check rfl).append date
  · exact (((((((((unmarked_of_check rfl).append (unmarked_str _)).append
      (unmarked_of_check rfl)).append (unmarked_str _)).append
      (unmarked_of_check rfl)).append (unmarked_str _)).append
      (unmarked_of_check rfl)).append (unmarked_str _)).append (unmarked_of_check rfl))

/-- Whether or not every hot page can be read, the file has no address line. -/
theorem writeConf_left {clock : Clock} (date : Unmarked clock.conf)
    (format : ∀ x : F, Unmarked (PyReal.format1 x)) (thresholds : Thresholds F)
    (pages : List (PageScore F)) (files : Files F)
    : ∃ lines,
        (stateLeft ((writeConf clock thresholds pages).run files)).kumfConf
          = some (unlines lines)
        ∧ ∀ line ∈ lines, AddressFree (utf8 line) := by
  have header := confHeader_addressFree date thresholds pages
  have keeps (page : PageScore F) : Keeps id (pageAddress page) := by
    unfold pageAddress
    split
    · exact keeps_pure _
    · exact keeps_throw _
  let written : Files F :=
    { files with kumfConf := some (unlines (confHeader clock thresholds pages)) }
  have unchanged := keeps_mapM keeps (hotPages thresholds pages) written
  have run : (writeConf clock thresholds pages).run files
      = ((hotPages thresholds pages).mapM pageAddress >>= fun addresses =>
          if hotPages thresholds pages ≠ [] then
            writeKumfConf (unlines (confHeader clock thresholds pages
              ++ rangeLines F
                (findContiguousRanges (addresses.insertionSort (· ≤ ·)))
                (hotPages thresholds pages).length))
          else pure ()).run written :=
    rfl
  rw [run, EStateM.run_bind]
  cases ran : ((hotPages thresholds pages).mapM pageAddress).run written with
  | error raised left =>
      rw [ran] at unchanged
      exact ⟨_, congrArg Files.kumfConf unchanged, header⟩
  | ok addresses left =>
      rw [ran] at unchanged
      dsimp only
      split
      · refine ⟨_, rfl, fun line member => ?_⟩
        rcases List.mem_append.mp member with inHeader | range
        · exact header line inHeader
        · exact rangeLines_addressFree format _ _ line range
      · exact ⟨_, congrArg Files.kumfConf unchanged, header⟩

-----------------------------------------------------------------------------------------
-- What the address table covers
-----------------------------------------------------------------------------------------

/-- An address inside a page. -/
def PageScore.Holds (page : PageScore F) (addr : Nat) : Prop :=
  ∃ start, intHex page.page = some start ∧ start ≤ addr ∧ addr < start + 4096

/-- The address table sends the hot pages, and only them, to the home node of the caller. -/
def CoversHot (hot : List (PageScore F)) (rules : List AddrRule) : Prop :=
  ∀ addr < 2 ^ 64,
    ((∃ page ∈ hot, page.Holds addr) → matchAddr rules addr = -2)
    ∧ ((¬ ∃ page ∈ hot, page.Holds addr) → matchAddr rules addr = -1)

omit [PyReal F] in
/-- An empty table covers the hot pages if no address lies in one. -/
theorem coversHot_nil_iff {hot : List (PageScore F)}
    : CoversHot hot []
      ↔ ∀ page ∈ hot, ∀ start, intHex page.page = some start → 2 ^ 64 ≤ start := by
  constructor
  · intro covers page member start read
    by_contra low
    have routed := (covers start (Nat.lt_of_not_le low)).1
      ⟨page, member, start, read, Nat.le_refl _, Nat.lt_add_of_pos_right (by decide)⟩
    cases routed
  · intro high addr small
    refine ⟨?_, fun _ => rfl⟩
    rintro ⟨page, member, start, read, low, _⟩
    have bound := high page member start read
    omega

/-- The table that `load_rules` makes of the configuration is empty. -/
theorem kumfConf_addrRules {clock : Clock} (stamp : ∃ stamp : Stamp, clock.conf = stamp.text)
    (format : ∀ x : F, Unmarked (PyReal.format1 x)) (thresholds : Thresholds F)
    (pages : List (PageScore F)) (files : Files F) (stale : List Char)
    : ∃ text,
        (stateLeft ((writeConf clock thresholds pages).run files)).kumfConf = some text
        ∧ loadedAddrRules stale text = [] := by
  obtain ⟨stamp, conf⟩ := stamp
  obtain ⟨lines, written, free⟩ :=
    writeConf_left (conf ▸ unmarked_stamp stamp) format thresholds pages files
  exact ⟨_, written, loadedAddrRules_unlines stale free⟩

/-- Read back by `load_rules`, the configuration covers the hot pages exactly if none of them
lies in the address space.
-/
theorem kumfConf_coversHot_iff {clock : Clock}
    (stamp : ∃ stamp : Stamp, clock.conf = stamp.text)
    (format : ∀ x : F, Unmarked (PyReal.format1 x)) (pacScores : PacScores F)
    (thresholds : Thresholds F) (files : Files F) (stale : List Char)
    : ∃ text,
        (stateLeft
          ((writeConf clock thresholds (sortedPages pacScores)).run files)).kumfConf = some text
        ∧ (CoversHot (hotPages thresholds pacScores.values) (loadedAddrRules stale text)
          ↔ ∀ page ∈ pacScores.values, pacFrom thresholds.hot page = true
            → ∀ start, intHex page.page = some start → 2 ^ 64 ≤ start) := by
  obtain ⟨text, written, empty⟩ :=
    kumfConf_addrRules stamp format thresholds (sortedPages pacScores) files stale
  refine ⟨text, written, ?_⟩
  rw [empty, coversHot_nil_iff]
  simp only [hotPages, List.mem_filter, and_imp]

theorem unmarked_tenths (n : Int) : Unmarked (tenths n) := by
  have sign : Unmarked (if n < 0 then ['-'] else []) := by
    split
    · exact unmarked_of_check rfl
    · exact nofun
  have point : Unmarked ['.'] := unmarked_of_check rfl
  exact (sign.append (unmarked_toDigits _)).append (point.append (unmarked_toDigits _))

theorem midnight_stamp : midnight.conf = (⟨2026, 1, 1, 0, 0, 0⟩ : Stamp).text := by decide

/-- The file for one page. -/
theorem kumfConf_coversHot_iff_onePage
    : ∃ text,
        (stateLeft
          ((writeConf midnight ⟨300, 150, 75⟩ (sortedPages onePage)).run {})).kumfConf
            = some text
        ∧ (CoversHot (hotPages ⟨300, 150, 75⟩ onePage.values) (loadedAddrRules [] text)
          ↔ ∀ page ∈ onePage.values, pacFrom 300 page = true
            → ∀ start, intHex page.page = some start → 2 ^ 64 ≤ start) :=
  kumfConf_coversHot_iff ⟨_, midnight_stamp⟩ (fun _ => unmarked_tenths _) onePage
    ⟨300, 150, 75⟩ {} []

/-- The one hot page makes one range, and its first address is not routed. -/
theorem onePage_unrouted
    : findContiguousRanges [0x1000] = [(0x1000, 0x1fff)]
      ∧ ∃ text,
          (stateLeft
            ((writeConf midnight ⟨300, 150, 75⟩ (sortedPages onePage)).run {})).kumfConf
          = some text
          ∧ (∃ page ∈ hotPages ⟨300, 150, 75⟩ onePage.values, page.Holds 0x1000)
          ∧ matchAddr (loadedAddrRules [] text) 0x1000 = -1 := by
  obtain ⟨text, written, empty⟩ := kumfConf_addrRules ⟨_, midnight_stamp⟩
    (fun _ => unmarked_tenths _) ⟨300, 150, 75⟩ (sortedPages onePage) {} []
  refine ⟨rfl, text, written,
    ⟨_, List.mem_filter.mpr ⟨List.mem_singleton_self _, ?_⟩, ?_⟩, ?_⟩
  · exact decide_eq_true (le_refl (300 : ℚ))
  · exact ⟨0x1000, by decide, by decide, by decide⟩
  · rw [empty]
    rfl

end Kumf.Spe
