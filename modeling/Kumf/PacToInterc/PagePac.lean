import Kumf.Library.PyLines
import Kumf.Spe.ReportFigures
import Kumf.Spe.Scoring

/-! `load_page_pac` on the `page_pac.csv` of `generate_report`: the columns come back by their
positions, page by page in the order of the PAC.
-/

namespace Kumf.PacToInterc

open Kumf.Library PyText Kumf.Spe

/-- A page that `load_page_pac` returns. -/
structure PageRecord (F : Type) where
  page : List Char
  pageAddr : Int
  accessCount : Int
  avgLatTot : F
  maxLatTot : Int
  pac : F
  llcRefillPct : F
  svePct : F
  tier : List Char
  deriving DecidableEq, Repr

section
variable {F : Type} (readFloat : List Char → Option F)

/-- One turn of the loop of `load_page_pac`; `none` is a `ValueError`. -/
def loadPageLine (pages : List (PageRecord F)) (line : List Char)
    : Option (List (PageRecord F)) :=
  match (strip line).splitOn ',' with
  | page :: access :: avg :: largest :: pac :: llc :: sve :: _ :: tier :: _ => do
      let accessCount ← parseInt 10 access
      let avgLatTot ← readFloat avg
      let maxLatTot ← parseInt 10 largest
      let pac ← readFloat pac
      let llcRefillPct ← readFloat llc
      let svePct ← readFloat sve
      let pageAddr ← parseInt 16 page
      return pages ++ [{
        page := page, pageAddr, accessCount, avgLatTot, maxLatTot, pac, llcRefillPct, svePct,
        tier }]
  | _ => some pages

/-- `load_page_pac`, on the text of the file. -/
def loadPagePac (text : List Char) : Option (List (PageRecord F)) :=
  (((universalNewlines text).splitOn '\n').drop 1).foldlM (loadPageLine readFloat) []

/-- A number that is printed in a cell of its own and read back. -/
structure ReadsBack [PyReal F] (number : Number F) : Prop where
  exact : readFloat number.text = some number.toFloat
  solid : ∀ c ∈ number.text, c ≠ ',' ∧ isSpace c = false

/-- The floats of a page are printed exactly. -/
structure PrintsExactly [PyReal F] (page : PageScore F) : Prop where
  avgLatTot : ReadsBack readFloat page.avgLatTot
  pac : ReadsBack readFloat (.float page.pac)
  llcRefillPct : ReadsBack readFloat page.llcRefillPct
  svePct : ReadsBack readFloat page.svePct

end

section
variable {F : Type} [PyReal F]

/-- The texts that `compute_pac_scores` gives to a page: its address and its two counts. -/
structure Shaped (score : PageScore F) : Prop where
  page : ∃ address : Nat, score.page = hex address
  ldStRatio : ∃ loads stores : Nat, score.ldStRatio = str loads ++ ':' :: str stores

/-- The tier that the thresholds assign to a PAC. -/
structure Assigned (thresholds : Thresholds F) (pac : F) (tier : List Char) : Prop where
  hot : tier = "HOT".toList ↔ PyReal.atLeast pac thresholds.hot = true
  warm
    : tier = "WARM".toList
      ↔ PyReal.atLeast pac thresholds.hot = false ∧ PyReal.atLeast pac thresholds.warm = true
  cold
    : tier = "COLD".toList
      ↔ PyReal.atLeast pac thresholds.hot = false ∧ PyReal.atLeast pac thresholds.warm = false

/-- A record says what the report knows of a page. -/
structure Matches (thresholds : Thresholds F) (score : PageScore F) (record : PageRecord F)
    : Prop where
  page : record.page = score.page
  pageAddr : ∃ address : Nat, score.page = hex address ∧ record.pageAddr = address
  accessCount : record.accessCount = score.accessCount
  avgLatTot : record.avgLatTot = score.avgLatTot.toFloat
  maxLatTot : record.maxLatTot = score.maxLatTot
  pac : record.pac = score.pac
  llcRefillPct : record.llcRefillPct = score.llcRefillPct.toFloat
  svePct : record.svePct = score.svePct.toFloat
  tier : Assigned thresholds score.pac record.tier

/-- `generate_report` writes the assigned tier. -/
theorem assigned_tier (thresholds : Thresholds F) (score : PageScore F)
    : Assigned thresholds score.pac (Spe.tier thresholds score) := by
  unfold Spe.tier pacFrom
  cases hot : PyReal.atLeast score.pac thresholds.hot with
  | true => constructor <;> simp [hot]
  | false =>
      cases warm : PyReal.atLeast score.pac thresholds.warm with
      | true => constructor <;> simp [hot, warm]
      | false => constructor <;> simp [hot, warm]

/-- No PAC has two tiers. -/
theorem Assigned.unique {thresholds : Thresholds F} {pac : F} {tier other : List Char}
    (assigned : Assigned thresholds pac tier) (also : Assigned thresholds pac other)
    : tier = other := by
  cases hot : PyReal.atLeast pac thresholds.hot with
  | true => exact (assigned.hot.mpr hot).trans (also.hot.mpr hot).symm
  | false =>
      cases warm : PyReal.atLeast pac thresholds.warm with
      | true => exact (assigned.warm.mpr ⟨hot, warm⟩).trans (also.warm.mpr ⟨hot, warm⟩).symm
      | false =>
          exact (assigned.cold.mpr ⟨hot, warm⟩).trans (also.cold.mpr ⟨hot, warm⟩).symm

end

-----------------------------------------------------------------------------------------
-- The pages of a run are shaped
-----------------------------------------------------------------------------------------

/-- The pages of `parse_stream` are printed addresses. -/
theorem parseStream_keys {lines : List (List Char)} {entry : List Char × PageStats}
    (member : entry ∈ (parseStream lines none).pageStats.entries)
    : ∃ address : Nat, entry.1 = hex address := by
  rw [(parseStream_samples lines).1] at member
  obtain ⟨item, inItems, same⟩ := Dict.exists_item_of_mem _ _ member
  obtain ⟨sample, _, given⟩ := List.mem_filterMap.mp inItems
  obtain ⟨page, key, rfl⟩ := Option.map_eq_some_iff.mp given
  obtain ⟨va, _, printed⟩ := Option.bind_eq_some_iff.mp key
  unfold pageKey at printed
  split at printed
  · cases printed
  · obtain ⟨address, _, rfl⟩ := Option.map_eq_some_iff.mp printed
    exact ⟨_, same.symm⟩

/-- Scoring printed addresses gives shaped pages, by induction on the entries. -/
theorem foldlM_addScore_shaped {F : Type} [PyDivision F] {mlpEstimate : F}
    {entries : List (List Char × PageStats)} {start pacScores : PacScores F}
    (keys : ∀ entry ∈ entries, ∃ address : Nat, entry.1 = hex address)
    (before : ∀ score ∈ start.values, Shaped score)
    (computed : entries.foldlM (addScore mlpEstimate) start = some pacScores)
    : ∀ score ∈ pacScores.values, Shaped score := by
  induction entries generalizing start with
  | nil =>
      cases computed
      exact before
  | cons entry rest ih =>
      rw [List.foldlM_cons] at computed
      obtain ⟨middle, added, computed⟩ := Option.bind_eq_some_iff.mp computed
      refine ih (fun other member => keys other (List.mem_cons_of_mem entry member)) ?_ computed
      unfold addScore at added
      split at added
      · cases added
        exact before
      · obtain ⟨score, scored, rfl⟩ := Option.map_eq_some_iff.mp added
        obtain ⟨exact, _, rfl⟩ := Option.map_eq_some_iff.mp scored
        intro other member
        obtain ⟨otherEntry, listed, rfl⟩ := List.mem_map.mp member
        rcases Dict.mem_put listed with older | ⟨_, _, rfl⟩
        · exact before _ (List.mem_map_of_mem older)
        · exact ⟨keys entry List.mem_cons_self, _, _, rfl⟩

/-- The scores of a parsed stream are shaped. -/
theorem computePacScores_shaped {F : Type} [PyDivision F] {lines : List (List Char)}
    {mlpEstimate : F} {pacScores : PacScores F}
    (computed : computePacScores (parseStream lines none).pageStats mlpEstimate = some pacScores)
    : ∀ score ∈ pacScores.values, Shaped score :=
  foldlM_addScore_shaped (fun _ => parseStream_keys)
    (fun _ member => absurd member List.not_mem_nil) computed

section
variable {F : Type} [PyReal F]

-----------------------------------------------------------------------------------------
-- The cells of a row
-----------------------------------------------------------------------------------------

/-- A text that stands in a cell: no comma and no blank. -/
def Cell (text : List Char) : Prop := ∀ c ∈ text, c ≠ ',' ∧ isSpace c = false

theorem Cell.of_check {text : List Char}
    (checked : text.all (fun c => c ≠ ',' ∧ isSpace c = false) = true)
    : Cell text :=
  List.all_iff_forall_prop.mp checked

theorem cell_of_hexDigits {text : List Char} (digits : ∀ c ∈ text, isDigitOf 16 c = true)
    : Cell text := by
  intro c member
  refine ⟨?_, isSpace_hex (digits c member)⟩
  rintro rfl
  exact absurd (digits ',' member) (by decide)

theorem cell_toDigits (n : Nat) : Cell (Nat.toDigits 10 n) :=
  cell_of_hexDigits (fun c member =>
    isDigitOf_hex_of_ten (isDigitOf_toDigits (by omega) (by omega) n c member))

/-- Cells one behind the other. -/
theorem Cell.append {front back : List Char} (left : Cell front) (right : Cell back)
    : Cell (front ++ back) := by
  intro c member
  exact (List.mem_append.mp member).elim (left c) (right c)

theorem cell_str (n : Nat) : Cell (str n) := by
  rw [str_natCast]
  exact cell_toDigits n

/-- An address is a cell. -/
theorem cell_hex (n : Nat) : Cell (hex n) := by
  have zeroX : Cell "0x".toList := .of_check (by decide)
  exact zeroX.append (cell_of_hexDigits (isDigitOf_toDigits (by omega) (by omega) n))

/-- The name of a tier is a cell. -/
theorem cell_tier (thresholds : Thresholds F) (score : PageScore F)
    : Cell (Spe.tier thresholds score) := by
  unfold Spe.tier
  split
  · exact .of_check (by decide)
  split
  · exact .of_check (by decide)
  · exact .of_check (by decide)

/-- A ratio is a cell. -/
theorem cell_ratio (loads stores : Nat) : Cell (str loads ++ ':' :: str stores) := by
  have colon : Cell [':'] := .of_check (by decide)
  exact (cell_str loads).append (colon.append (cell_str stores))

/-- The cells of a row. -/
def csvCells (thresholds : Thresholds F) (score : PageScore F) : List (List Char) :=
  [score.page, str score.accessCount, score.avgLatTot.text, str score.maxLatTot,
    PyReal.repr score.pac, score.llcRefillPct.text, score.svePct.text, score.ldStRatio,
    Spe.tier thresholds score]

/-- No cell of a row has a comma or a blank. -/
theorem cells_csvCells {readFloat : List Char → Option F} {score : PageScore F}
    (thresholds : Thresholds F) (shaped : Shaped score) (exact : PrintsExactly readFloat score)
    : ∀ cell ∈ csvCells thresholds score, Cell cell := by
  obtain ⟨⟨address, page⟩, ⟨loads, stores, ratio⟩⟩ := shaped
  simp only [csvCells, List.forall_mem_cons, page, ratio]
  exact ⟨cell_hex address, cell_str score.accessCount, exact.avgLatTot.solid,
    cell_str score.maxLatTot, exact.pac.solid, exact.llcRefillPct.solid, exact.svePct.solid,
    cell_ratio loads stores, cell_tier thresholds score, nofun⟩

/-- A row has no blanks. -/
theorem csvRow_solid {thresholds : Thresholds F} {score : PageScore F}
    (cells : ∀ cell ∈ csvCells thresholds score, Cell cell)
    : ∀ c ∈ csvRow thresholds score, isSpace c = false := by
  intro c member
  by_cases comma : c = ','
  · rw [comma]
    rfl
  · have outside : c ∉ [','] := by simpa using comma
    obtain ⟨cell, listed, inside⟩ := (mem_intercalate outside).mp member
    exact (cells cell listed c inside).2

/-- A row falls into its cells. -/
theorem splitOn_csvRow {thresholds : Thresholds F} {score : PageScore F}
    (cells : ∀ cell ∈ csvCells thresholds score, Cell cell)
    : (strip (csvRow thresholds score)).splitOn ',' = csvCells thresholds score := by
  have solid := csvRow_solid cells
  have stripped := strip_eq (fun c first => solid c (List.mem_of_mem_head? first))
    (fun c last => solid c (List.mem_of_getLast? last))
  rw [stripped]
  exact List.splitOn_intercalate ','
    (fun cell member comma => (cells cell member ',' comma).1 rfl) (List.cons_ne_nil _ _)

-----------------------------------------------------------------------------------------
-- Rows and files
-----------------------------------------------------------------------------------------

/-- A row of the CSV is read as a record of its page. -/
theorem loadPageLine_csvRow {readFloat : List Char → Option F} {score : PageScore F}
    (thresholds : Thresholds F) (shaped : Shaped score) (exact : PrintsExactly readFloat score)
    (pages : List (PageRecord F))
    : ∃ record, Matches thresholds score record
      ∧ loadPageLine readFloat pages (csvRow thresholds score) = some (pages ++ [record]) := by
  have split := splitOn_csvRow (cells_csvCells thresholds shaped exact)
  obtain ⟨address, page⟩ := shaped.page
  have pac : readFloat (PyReal.repr score.pac) = some score.pac := exact.pac.exact
  refine ⟨{
    page := score.page
    pageAddr := address
    accessCount := score.accessCount
    avgLatTot := score.avgLatTot.toFloat
    maxLatTot := score.maxLatTot
    pac := score.pac
    llcRefillPct := score.llcRefillPct.toFloat
    svePct := score.svePct.toFloat
    tier := Spe.tier thresholds score },
    ⟨rfl, ⟨address, page, rfl⟩, rfl, rfl, rfl, rfl, rfl, rfl, assigned_tier thresholds score⟩,
    ?_⟩
  have readAddress : parseInt 16 score.page = some (address : Int) := by
    rw [page, parseInt_hex]
  unfold loadPageLine
  rw [split, csvCells]
  simp only [parseInt_str, exact.avgLatTot.exact, pac, exact.llcRefillPct.exact,
    exact.svePct.exact, readAddress, Option.bind_eq_bind, Option.bind_some, Option.pure_def]

/-- The rows of some pages and the empty line at the end, by induction on the pages. -/
theorem foldlM_loadPageLine {readFloat : List Char → Option F} {scores : List (PageScore F)}
    (thresholds : Thresholds F) (shaped : ∀ score ∈ scores, Shaped score)
    (exact : ∀ score ∈ scores, PrintsExactly readFloat score) (pages : List (PageRecord F))
    : ∃ records, List.Forall₂ (Matches thresholds) scores records
      ∧ (scores.map (csvRow thresholds) ++ [[]]).foldlM (loadPageLine readFloat) pages
        = some (pages ++ records) := by
  induction scores generalizing pages with
  | nil => exact ⟨[], .nil, by rw [List.append_nil]; rfl⟩
  | cons score scores ih =>
      obtain ⟨record, same, read⟩ := loadPageLine_csvRow thresholds
        (shaped score List.mem_cons_self) (exact score List.mem_cons_self) pages
      obtain ⟨records, others, rest⟩ := ih
        (fun other member => shaped other (List.mem_cons_of_mem score member))
        (fun other member => exact other (List.mem_cons_of_mem score member))
        (pages ++ [record])
      refine ⟨record :: records, .cons same others, ?_⟩
      rw [List.map_cons, List.cons_append, List.foldlM_cons, read]
      simpa using rest

/-- The header has no blanks. -/
theorem csvHeader_solid : ∀ c ∈ csvHeader, isSpace c = false :=
  List.all_iff_forall_prop.mp (by decide)

/-- Without blanks in its lines, a text is read as these lines and an empty one. -/
theorem lines_of_solid {lines : List (List Char)}
    (solid : ∀ line ∈ lines, ∀ c ∈ line, isSpace c = false)
    : (universalNewlines (unlines lines)).splitOn '\n' = lines ++ [[]] := by
  have absent {c : Char} (space : isSpace c = true) : ∀ line ∈ lines, c ∉ line := by
    intro line member inside
    rw [solid line member c inside] at space
    cases space
  have noReturn : '\r' ∉ unlines lines := by
    simpa [unlines] using absent rfl
  rw [universalNewlines_eq noReturn, splitOn_unlines (absent rfl)]

/-- The CSV of some pages, in whatever order, is read as one record for each. -/
theorem loadPagePac_csvText {readFloat : List Char → Option F} {scores : List (PageScore F)}
    (thresholds : Thresholds F) (shaped : ∀ score ∈ scores, Shaped score)
    (exact : ∀ score ∈ scores, PrintsExactly readFloat score)
    : ∃ records, List.Forall₂ (Matches thresholds) scores records
      ∧ loadPagePac readFloat (csvText thresholds scores) = some records := by
  obtain ⟨records, same, read⟩ := foldlM_loadPageLine thresholds shaped exact []
  refine ⟨records, same, ?_⟩
  have solid : ∀ line ∈ csvHeader :: scores.map (csvRow thresholds),
      ∀ c ∈ line, isSpace c = false := by
    rw [List.forall_mem_cons, List.forall_mem_map]
    exact ⟨csvHeader_solid, fun score member => csvRow_solid
      (cells_csvCells thresholds (shaped score member) (exact score member))⟩
  rw [loadPagePac, csvText, lines_of_solid solid]
  exact read

end

-----------------------------------------------------------------------------------------
-- The file that a report leaves
-----------------------------------------------------------------------------------------

section
variable {F : Type} [PyReal F]

/-- Every run of `generate_report` leaves the CSV of its sorted pages, wherever it stops. -/
theorem generateReport_pagePac (clock : Clock) (pacScores : PacScores F)
    (thresholds : Thresholds F) (recordsParsed totalLines : Nat) (files : Files F)
    : (stateLeft
        ((generateReport clock pacScores thresholds recordsParsed totalLines).run files)).pagePac
      = some (csvText thresholds (sortedPages pacScores)) := by
  obtain ⟨text, left, -⟩ :=
    reportLeft_eq clock pacScores thresholds recordsParsed totalLines files
  exact congrArg Files.pagePac left

/-- Matching records have the PAC of their pages, in the same order. -/
theorem map_pac {thresholds : Thresholds F} {scores : List (PageScore F)}
    {records : List (PageRecord F)} (same : List.Forall₂ (Matches thresholds) scores records)
    : records.map PageRecord.pac = scores.map PageScore.pac := by
  induction same with
  | nil => rfl
  | cons first _ ih => rw [List.map_cons, List.map_cons, first.pac, ih]

/-- The records of a tier are the rows of the tier, by induction on the pages. -/
theorem records_of_tier {thresholds : Thresholds F} {scores : List (PageScore F)}
    {records : List (PageRecord F)} (same : List.Forall₂ (Matches thresholds) scores records)
    (tier : PageTier)
    : (records.filter (fun record => record.tier = tier.label)).map PageRecord.accessCount
      = (tier.rows thresholds scores).map (fun score => (score.accessCount : Int)) := by
  induction same with
  | nil => rfl
  | @cons score record scores records first _ ih =>
      have written := first.tier.unique (assigned_tier thresholds score)
      rw [PageTier.rows, List.filter_cons, List.filter_cons, written]
      rw [PageTier.rows] at ih
      by_cases inTier : Spe.tier thresholds score = tier.label
      case pos => simp [inTier, ih, first.accessCount]
      case neg => simp [inTier, ih]

/-- The CSV that a report leaves is read as one record for each page, in descending order of
the PAC, with the columns of the page and its tier.
-/
theorem loadPagePac_generateReport {readFloat : List Char → Option F} (clock : Clock)
    (pacScores : PacScores F) (thresholds : Thresholds F) (recordsParsed totalLines : Nat)
    (files : Files F)
    (shaped : ∀ score ∈ pacScores.values, Shaped score)
    (exact : ∀ score ∈ pacScores.values, PrintsExactly readFloat score)
    (comparable : Comparable (pacScores.values.map PageScore.pac))
    : ∃ text records,
        (stateLeft
          ((generateReport clock pacScores thresholds recordsParsed totalLines).run
            files)).pagePac
        = some text
        ∧ loadPagePac readFloat text = some records
        ∧ List.Forall₂ (Matches thresholds) (sortedPages pacScores) records
        ∧ (sortedPages pacScores).Perm pacScores.values
        ∧ records.Pairwise (fun earlier later => PyFloat.less earlier.pac later.pac = false) := by
  have perm := sortedPages_perm pacScores
  obtain ⟨records, same, read⟩ := loadPagePac_csvText thresholds
    (fun score member => shaped score (perm.mem_iff.mp member))
    (fun score member => exact score (perm.mem_iff.mp member))
  refine ⟨_, records, generateReport_pagePac clock pacScores thresholds recordsParsed
    totalLines files, read, same, perm, ?_⟩
  have falling : (records.map PageRecord.pac).Pairwise
      (fun earlier later => PyFloat.less earlier later = false) := by
    rw [map_pac same]
    exact List.pairwise_map.mpr comparable.pairwise_sorted
  exact List.pairwise_map.mp falling

/-- Read from the CSV that a report leaves, the records of a tier are as many as its rows, with the
accesses of these.
-/
theorem loadPagePac_tier {readFloat : List Char → Option F} (clock : Clock)
    (pacScores : PacScores F) (thresholds : Thresholds F) (recordsParsed totalLines : Nat)
    (files : Files F)
    (shaped : ∀ score ∈ pacScores.values, Shaped score)
    (exact : ∀ score ∈ pacScores.values, PrintsExactly readFloat score) (tier : PageTier)
    : ∃ text records,
        (reportLeft clock pacScores thresholds recordsParsed totalLines files).pagePac = some text
        ∧ loadPagePac readFloat text = some records
        ∧ (records.filter (fun record => record.tier = tier.label)).length
          = (tier.rows thresholds (sortedPages pacScores)).length
        ∧ ((records.filter (fun record => record.tier = tier.label)).map
          PageRecord.accessCount).sum
          = totalAccess (tier.rows thresholds (sortedPages pacScores)) := by
  have perm := sortedPages_perm pacScores
  obtain ⟨records, same, read⟩ := loadPagePac_csvText thresholds
    (fun score member => shaped score (perm.mem_iff.mp member))
    (fun score member => exact score (perm.mem_iff.mp member))
  have accesses := records_of_tier same tier
  refine ⟨_, records, generateReport_pagePac clock pacScores thresholds recordsParsed
    totalLines files, read, ?_, ?_⟩
  · simpa using congrArg List.length accesses
  · have cast := map_list_sum (Nat.castAddMonoidHom Int)
      ((tier.rows thresholds (sortedPages pacScores)).map PageScore.accessCount)
    rw [List.map_map] at cast
    rw [accesses]
    exact cast.symm

end

/-- A reader of texts with a digit behind the point, for exact arithmetic. -/
def readTenths (text : List Char) : Option ℚ :=
  match text.splitOn '.' with
  | [whole] => (parseInt 10 whole).map (fun n => n)
  | [whole, tenth] => do return (← parseInt 10 whole) + (← parseInt 10 tenth) / 10
  | _ => none

/-- A number of tenths is printed and read back. -/
theorem readsBack_tenths (n : Nat) : ReadsBack readTenths (.float (n / 10 : ℚ)) := by
  have printed : (Number.float (n / 10 : ℚ)).text
      = Nat.toDigits 10 (n / 10) ++ '.' :: Nat.toDigits 10 (n % 10) := by
    have exact : (10 : ℚ) * (n / 10) = (n : Int) := by
      push_cast
      ring
    change tenths (roundHalfEven (10 * (n / 10 : ℚ))) = _
    rw [exact, roundHalfEven_intCast]
    rfl
  constructor
  · have apart := List.splitOn_append_cons_self_of_not_mem
      (notMem_toDigits (c := '.') (by rfl) (n / 10)) (Nat.toDigits 10 (n % 10))
    rw [List.splitOn_eq_singleton (notMem_toDigits (by rfl) (n % 10))] at apart
    rw [printed, readTenths, apart]
    simp only [parseInt_toDigits, Option.bind_eq_bind, Option.bind_some, Option.pure_def]
    change some (((n / 10 : Nat) : ℚ) + ((n % 10 : Nat) : ℚ) / 10) = some (n / 10 : ℚ)
    have whole : (n : ℚ) = ((10 * (n / 10) + n % 10 : Nat) : ℚ) := by rw [Nat.div_add_mod]
    congr 1
    rw [whole]
    push_cast
    ring
  · intro c member
    rw [printed] at member
    have point : Cell ['.'] := .of_check (by decide)
    exact (cell_toDigits _).append (point.append (cell_toDigits _)) c member

/-- A number of tenths reads back. -/
theorem readsBack_of_tenths {x : ℚ} (n : Nat) (same : n / 10 = x)
    : ReadsBack readTenths (.float x) := by
  rw [← same]
  exact readsBack_tenths n

/-- A page with a single load, and its latency as PAC. -/
def loadedOnce (page : List Char) (latency : Nat) : PageScore ℚ where
  page := page
  accessCount := 1
  avgLatTot := .float latency
  maxLatTot := latency
  latTotSum := latency
  pac := latency
  llcRefillPct := .float 0
  svePct := .float 0
  ldStRatio := "1:0".toList

/-- A page that was loaded once has numbers that read back. -/
theorem printsExactly_loadedOnce (page : List Char) (latency : Nat)
    : PrintsExactly readTenths (loadedOnce page latency) where
  avgLatTot := readsBack_of_tenths (10 * latency) (by push_cast; ring)
  pac := readsBack_of_tenths (10 * latency) (by simp only [loadedOnce]; push_cast; ring)
  llcRefillPct := readsBack_of_tenths 0 (by norm_num)
  svePct := readsBack_of_tenths 0 (by norm_num)

/-- A cold, a hot and a warm page. -/
def threePages : PacScores ℚ where
  entries :=
    [("0x1000".toList, loadedOnce "0x1000".toList 12),
      ("0x2000".toList, loadedOnce "0x2000".toList 450),
      ("0x3000".toList, loadedOnce "0x3000".toList 160)]
  nodup := by decide

/-- A page of each tier. -/
theorem loadPagePac_generateReport_threePages
    : ∃ text records,
        (stateLeft ((generateReport midnight threePages ⟨300, 150, 75⟩ 3 24).run {})).pagePac
          = some text
        ∧ loadPagePac readTenths text = some records
        ∧ records.map PageRecord.page = ["0x2000".toList, "0x3000".toList, "0x1000".toList]
        ∧ records.map PageRecord.pac = [450, 160, 12]
        ∧ records.map PageRecord.tier = ["HOT".toList, "WARM".toList, "COLD".toList] := by
  have known : ∀ score ∈ threePages.values,
      score = loadedOnce "0x1000".toList 12 ∨ score = loadedOnce "0x2000".toList 450
        ∨ score = loadedOnce "0x3000".toList 160 := by
    decide +kernel
  have shaped : ∀ score ∈ threePages.values, Shaped score := by
    intro score member
    rcases known score member with rfl | rfl | rfl
    · exact ⟨⟨0x1000, by decide⟩, 1, 0, by decide⟩
    · exact ⟨⟨0x2000, by decide⟩, 1, 0, by decide⟩
    · exact ⟨⟨0x3000, by decide⟩, 1, 0, by decide⟩
  have exact : ∀ score ∈ threePages.values, PrintsExactly readTenths score := by
    intro score member
    rcases known score member with rfl | rfl | rfl
    all_goals exact printsExactly_loadedOnce _ _
  obtain ⟨text, records, left, read, same, -, -⟩ :=
    loadPagePac_generateReport midnight threePages ⟨300, 150, 75⟩ 3 24 {} shaped exact
      (comparable_rat _)
  have sorted : sortedPages threePages
      = [loadedOnce "0x2000".toList 450, loadedOnce "0x3000".toList 160,
          loadedOnce "0x1000".toList 12] := by
    decide +kernel
  rw [sorted] at same
  obtain ⟨hot, behind, first, rest, rfl⟩ := List.forall₂_cons_left_iff.mp same
  obtain ⟨warm, last, second, final, rfl⟩ := List.forall₂_cons_left_iff.mp rest
  obtain ⟨cold, none_, third, empty, rfl⟩ := List.forall₂_cons_left_iff.mp final
  cases empty
  refine ⟨text, _, left, read, ?_, ?_, ?_⟩
  · simp [first.page, second.page, third.page, loadedOnce]
  · simp [first.pac, second.pac, third.pac, loadedOnce]
  · simp [first.tier.hot.mpr (by decide +kernel), second.tier.warm.mpr (by decide +kernel),
      third.tier.cold.mpr (by decide +kernel)]

end Kumf.PacToInterc
