import Kumf.Spe.Report
import Mathlib.Tactic.NormNum

/-! The configuration of `generate_report` and its whole run. The loop over the latencies
counts under keys that `lat_ranges` does not have, so the run ends there.
-/

namespace Kumf.Spe

open Kumf.Library PyText

/-- The loop of `_find_contiguous_ranges` over the pages behind the first one. -/
def contiguousFrom (start stop : Nat) : List Nat → List (Nat × Nat)
  | [] => [(start, stop + 0xfff)]
  | page :: rest =>
      if page = stop + 0x1000 then
        contiguousFrom start page rest
      else
        (start, stop + 0xfff) :: contiguousFrom page page rest

/-- `_find_contiguous_ranges` -/
def findContiguousRanges : List Nat → List (Nat × Nat)
  | [] => []
  | page :: rest => contiguousFrom page page rest

variable {F : Type} [PyReal F]

/-- `int(page, 16)` -/
def pageAddress (page : PageScore F) : Writes F Nat :=
  match intHex page.page with
  | some address => pure address
  | none => throw (.valueError page.page)

/-- The lines for the ranges of hot pages. -/
def rangeLines (F : Type) [PyReal F] (ranges : List (Nat × Nat)) (hotCount : Nat)
    : List (List Char) :=
  ["# Hot page ranges: ".toList ++ str ranges.length ++ " ranges covering ".toList ++ str hotCount
    ++ " pages (".toList ++ megabytesOf F hotCount ++ ")".toList]
  ++ (ranges.take 200).map (fun range =>
    "page_range:".toList ++ hex range.1 ++ "-".toList ++ hex range.2
      ++ " = local  # HOT tier (home-node-relative)".toList)
  ++ (if 200 < ranges.length then
      ["# ... ".toList ++ str (ranges.length - 200 : Nat)
        ++ " more ranges (see page_pac.csv for full list)".toList]
    else [])

/-- The part of `generate_report` that writes `kumf.conf`. -/
def writeConf (clock : Clock) (thresholds : Thresholds F) (pages : List (PageScore F))
    : Writes F Unit := do
  let hot := hotPages thresholds pages
  let header := [
    "# KUMF auto-generated interc configuration".toList,
    "# Generated: ".toList ++ clock.conf,
    "# Pages: ".toList ++ str pages.length ++ " (HOT:".toList ++ str hot.length
      ++ " WARM:".toList ++ str (warmPages thresholds pages).length ++ " COLD:".toList
      ++ str (coldPages thresholds pages).length ++ ")".toList,
    []]
  writeKumfConf (unlines header)
  let addresses ← hot.mapM pageAddress
  let ranges := findContiguousRanges (addresses.insertionSort (· ≤ ·))
  if hot ≠ [] then
    writeKumfConf (unlines (header ++ rangeLines F ranges hot.length))

/-- The loop over the latencies and what follows it. -/
def writeDistribution (clock : Clock) (thresholds : Thresholds F) (pages : List (PageScore F))
    : Writes F Unit := do
  let counts ← fillLatRanges pages latRanges
  writeInsights pages counts
  writeConf clock thresholds pages

/-- `generate_report` -/
def generateReport (clock : Clock) (pacScores : PacScores F) (thresholds : Thresholds F)
    (recordsParsed totalLines : Nat)
    : Writes F Unit := do
  let pages := sortedPages pacScores
  writePagePac (csvText thresholds pages)
  writeKumfReport (reportJson clock thresholds recordsParsed totalLines pages)
  openPacSummary
  writeTiers clock thresholds recordsParsed totalLines pages
  writeDistribution clock thresholds pages

-----------------------------------------------------------------------------------------
-- The lines of the tiers
-----------------------------------------------------------------------------------------

/-- The tiers of a report. -/
inductive PageTier where
  | hot
  | warm
  | cold
  deriving DecidableEq, Repr

/-- The text report puts 1024 under the kilobytes. -/
def printedMb (F : Type) [PyReal F] (pages : Nat) : F := PyFloat.quotient (pages * 4) 1024

/-- A line of the text report up to its memory. -/
def tierLine (label : List Char) (bound : F) (tierPages : List (PageScore F)) (accesses : Nat)
    (memoryMb : F)
    : List Char :=
  let share : F :=
    PyReal.mul (PyFloat.quotient (totalAccess tierPages) accesses) (PyFloat.ofNat 100)
  "  ".toList ++ label ++ column 8 (PyReal.format1 bound) ++ "): ".toList
    ++ column 6 (str tierPages.length) ++ " pages".toList
    ++ ("  (".toList ++ column 5 (PyReal.format1 share) ++ "% access)".toList)
    ++ ("  (".toList ++ PyReal.format1 memoryMb ++ " MB)".toList)

namespace PageTier

/-- The list that `generate_report` makes of a tier. -/
def pages (thresholds : Thresholds F) (sorted : List (PageScore F))
    : PageTier → List (PageScore F)
  | hot => hotPages thresholds sorted
  | warm => warmPages thresholds sorted
  | cold => coldPages thresholds sorted

/-- The line of a tier in the text report, with some memory. -/
def line (thresholds : Thresholds F) (sorted : List (PageScore F)) (tier : PageTier) (memoryMb : F)
    : List Char :=
  let tierPages := tier.pages thresholds sorted
  match tier with
  | hot => tierLine "HOT  (PAC >= ".toList thresholds.hot tierPages (totalAccess sorted) memoryMb
  | warm => tierLine "WARM (PAC >= ".toList thresholds.warm tierPages (totalAccess sorted) memoryMb
  | cold => tierLine "COLD (PAC <  ".toList thresholds.warm tierPages (totalAccess sorted) memoryMb

/-- The advice behind the line of a tier. -/
def advice : PageTier → List Char
  | hot => "  → ".toList ++ "FAST tier ⚡\n".toList
  | warm => "  → ".toList ++ "FAST if space\n".toList
  | cold => "  → ".toList ++ "SLOW tier 🧊\n\n".toList

/-- The line of a tier with the megabytes that the text report computes, and its advice. -/
def whole (thresholds : Thresholds F) (sorted : List (PageScore F)) (tier : PageTier)
    : List Char :=
  tier.line thresholds sorted (printedMb F (tier.pages thresholds sorted).length) ++ tier.advice

end PageTier

/-- The text report up to the loop over the latencies. -/
def tiersText (clock : Clock) (thresholds : Thresholds F) (recordsParsed totalLines : Nat)
    (sorted : List (PageScore F))
    : List Char :=
  overviewText F clock recordsParsed totalLines sorted.length (totalAccess sorted)
    ++ PageTier.hot.whole thresholds sorted ++ PageTier.warm.whole thresholds sorted
    ++ PageTier.cold.whole thresholds sorted ++ topPagesText thresholds sorted

-----------------------------------------------------------------------------------------
-- The text report up to the loop over the latencies
-----------------------------------------------------------------------------------------

/-- The keys that the loop updates and the keys of `lat_ranges` are different. -/
theorem latKey_undeclared (avg : F) : latKey avg ∉ latRanges.map Prod.fst := by
  unfold latKey
  split
  · decide
  split
  · decide
  split
  · decide
  split
  · decide
  · decide

omit [PyReal F] in
theorem addToKey_undeclared {key : List Char} (n : Nat) {counts : List (List Char × Nat)}
    (absent : key ∉ counts.map Prod.fst) (files : Files F)
    : (addToKey key n counts).run files = .error (.keyError key) files := by
  induction counts with
  | nil => rfl
  | cons entry rest ih =>
      rw [List.map_cons, List.mem_cons, not_or] at absent
      have other : ¬ entry.1 = key := fun same => absent.1 same.symm
      simp only [addToKey, other, if_false, EStateM.run_bind, ih absent.2]

/-- A page with no declared key ends the loop. -/
theorem fillLatRanges_raises (page : PageScore F) (rest : List (PageScore F)) (files : Files F)
    : (fillLatRanges (page :: rest) latRanges).run files
      = .error (.keyError (latKey page.avgLatTot.toFloat)) files := by
  simp [fillLatRanges, addToKey_undeclared _ (latKey_undeclared _)]

omit [PyReal F] in
@[simp] theorem writePacSummary_run (text : List Char) (files : Files F)
    : (writePacSummary text).run files
      = .ok () { files with pacSummary := some (files.pacSummary.getD [] ++ text) } :=
  rfl

/-- With accesses to divide by, the text report gets the line of a tier, and an advice behind it. -/
theorem writeTierLine_text {accesses : Nat} (accessed : accesses ≠ 0) (label : List Char)
    (bound : F) (tierPages : List (PageScore F)) (advice : List Char) (files : Files F)
    : (writeTierLine label bound tierPages accesses advice).run files
      = .ok () { files with pacSummary := some (files.pacSummary.getD []
          ++ (tierLine label bound tierPages accesses (printedMb F tierPages.length)
            ++ ("  → ".toList ++ advice))) } := by
  have closing : ")  → ".toList = ")".toList ++ "  → ".toList := rfl
  have unit : " MB)".toList = " MB".toList ++ ")".toList := rfl
  simp only [writeTierLine, percent, if_neg accessed, EStateM.run_bind, EStateM.run_pure,
    writePacSummary_run, Option.getD_some, megabytesOf, printedMb, tierLine, closing, unit,
    List.append_assoc]

/-- So it gets the whole text in front of the loop over the latencies. -/
theorem writeTiers_text (clock : Clock) (thresholds : Thresholds F)
    (recordsParsed totalLines : Nat) {sorted : List (PageScore F)}
    (accessed : totalAccess sorted ≠ 0) (files : Files F)
    : (writeTiers clock thresholds recordsParsed totalLines sorted).run files
      = .ok () { files with pacSummary := some (files.pacSummary.getD []
          ++ tiersText clock thresholds recordsParsed totalLines sorted) } := by
  simp only [writeTiers, EStateM.run_bind, writePacSummary_run, writeTierLine_text accessed,
    Option.getD_some, tiersText, PageTier.whole, List.append_assoc]
  rfl

/-- Without accesses the text report ends at the first tier. -/
theorem writeTiers_raises (clock : Clock) (thresholds : Thresholds F)
    (recordsParsed totalLines : Nat) {sorted : List (PageScore F)}
    (unused : totalAccess sorted = 0) (files : Files F)
    : ∃ text,
        (writeTiers clock thresholds recordsParsed totalLines sorted).run files
        = .error .zeroDivision { files with pacSummary := some text } := by
  simp only [writeTiers, writeTierLine, percent, if_pos unused, EStateM.run_bind,
    writePacSummary_run]
  exact ⟨_, rfl⟩

-----------------------------------------------------------------------------------------
-- No report is completed
-----------------------------------------------------------------------------------------

/-- A complete report: the run ends, the configuration is written, and the latency ranges
count every access once.
-/
def Completes (clock : Clock) (pacScores : PacScores F) (thresholds : Thresholds F)
    (recordsParsed totalLines : Nat) (files : Files F)
    : Prop :=
  ∃ left counts,
    (generateReport clock pacScores thresholds recordsParsed totalLines).run files = .ok () left
    ∧ left.kumfConf.isSome = true
    ∧ (fillLatRanges (sortedPages pacScores) latRanges).run files = .ok counts files
    ∧ counts.map Prod.fst = latRanges.map Prod.fst
    ∧ (counts.map Prod.snd).sum = totalAccess pacScores.values

/-- The files when the text report has some text. -/
def reportFiles (clock : Clock) (pacScores : PacScores F) (thresholds : Thresholds F)
    (recordsParsed totalLines : Nat) (files : Files F) (text : List Char)
    : Files F where
  pagePac := some (csvText thresholds (sortedPages pacScores))
  kumfReport := some (reportJson clock thresholds recordsParsed totalLines (sortedPages pacScores))
  pacSummary := some text
  kumfConf := files.kumfConf

theorem totalAccess_sortedPages (pacScores : PacScores F)
    : totalAccess (sortedPages pacScores) = totalAccess pacScores.values :=
  ((sortedPages_perm pacScores).map PageScore.accessCount).sum_eq

/-- Where a run stops: with the CSV and the JSON file written, in the text report. -/
theorem generateReport_stops (clock : Clock) (pacScores : PacScores F)
    (thresholds : Thresholds F) (recordsParsed totalLines : Nat)
    (accessed : totalAccess pacScores.values ≠ 0) (files : Files F)
    : ∃ page ∈ pacScores.values,
        (generateReport clock pacScores thresholds recordsParsed totalLines).run files
        = .error (.keyError (latKey page.avgLatTot.toFloat))
            (reportFiles clock pacScores thresholds recordsParsed totalLines files
              (tiersText clock thresholds recordsParsed totalLines (sortedPages pacScores))) := by
  have same := sortedPages_perm pacScores
  rw [← totalAccess_sortedPages] at accessed
  unfold generateReport reportFiles
  generalize sortedPages pacScores = sorted at same accessed ⊢
  obtain ⟨page, rest, rfl⟩ := List.exists_cons_of_ne_nil (l := sorted) (by
    rintro rfl
    exact accessed rfl)
  refine ⟨page, same.mem_iff.mp List.mem_cons_self, ?_⟩
  simp only [writeDistribution, EStateM.run_bind, writePagePac, writeKumfReport, openPacSummary,
    EStateM.run_modify, writeTiers_text clock thresholds recordsParsed totalLines accessed,
    fillLatRanges_raises]
  rfl

/-- No report of scored pages is completed, whatever the thresholds: the run ends in a missing
key of the latency ranges, and the configuration is what it was before.
-/
theorem generateReport_incomplete (clock : Clock) (pacScores : PacScores F)
    (thresholds : Thresholds F) (recordsParsed totalLines : Nat) (files : Files F)
    (nonempty : pacScores.values ≠ [])
    (counts : ∀ page ∈ pacScores.values, 1 ≤ page.accessCount)
    : ¬ Completes clock pacScores thresholds recordsParsed totalLines files
      ∧ ∃ key left,
        (generateReport clock pacScores thresholds recordsParsed totalLines).run files
          = .error (.keyError key) left
        ∧ key ∉ latRanges.map Prod.fst
        ∧ left.kumfConf = files.kumfConf := by
  have accessed : totalAccess pacScores.values ≠ 0 := by
    obtain ⟨page, rest, same⟩ := List.exists_cons_of_ne_nil nonempty
    have first := counts page (by simp [same])
    rw [same, totalAccess, List.map_cons, List.sum_cons]
    omega
  obtain ⟨page, -, stops⟩ :=
    generateReport_stops clock pacScores thresholds recordsParsed totalLines accessed files
  refine ⟨?_, _, _, stops, latKey_undeclared _, rfl⟩
  rintro ⟨left, ranges, finished, -⟩
  rw [stops] at finished
  cases finished

/-- One page with one access. -/
def onePage : PacScores ℚ where
  entries := [("0x1000".toList, {
    page := "0x1000".toList
    accessCount := 1
    avgLatTot := .float 300
    maxLatTot := 300
    latTotSum := 300
    pac := 300
    llcRefillPct := .float 0
    svePct := .float 0
    ldStRatio := "1:0".toList })]
  nodup := List.nodup_singleton _

def midnight : Clock where
  isoformat := "2026-01-01T00:00:00".toList
  summary := "2026-01-01 00:00:00".toList
  conf := "2026-01-01 00:00:00".toList

theorem generateReport_incomplete_onePage
    : ¬ Completes midnight onePage ⟨300, 150, 75⟩ 1 8 {}
      ∧ ∃ key left,
        (generateReport midnight onePage ⟨300, 150, 75⟩ 1 8).run {}
        = .error (.keyError key) left
        ∧ key ∉ latRanges.map Prod.fst
        ∧ left.kumfConf = none :=
  generateReport_incomplete midnight onePage ⟨300, 150, 75⟩ 1 8 {} (List.cons_ne_nil _ _)
    (by simp [onePage, PacScores.values])

/-- A page at 300 cycles is counted under a key for remote memory, and the report ends. -/
theorem onePage_stops
    : ∃ left, (generateReport midnight onePage ⟨300, 150, 75⟩ 1 8).run {}
        = .error (.keyError "200-350 (remote DRAM)".toList) left
      ∧ left.kumfConf = none
      ∧ ¬ Completes midnight onePage ⟨300, 150, 75⟩ 1 8 {} := by
  obtain ⟨page, member, stops⟩ := generateReport_stops midnight
    onePage ⟨300, 150, 75⟩ 1 8 (by decide) {}
  have same : page.avgLatTot.toFloat = 300 := by
    have only := List.mem_singleton.mp member
    rw [only]
    rfl
  have key : latKey (300 : ℚ) = "200-350 (remote DRAM)".toList := by
    norm_num [latKey, PyFloat.less, PyFloat.ofNat]
  rw [same, key] at stops
  refine ⟨_, stops, rfl, ?_⟩
  rintro ⟨left, ranges, finished, -⟩
  rw [stops] at finished
  cases finished

end Kumf.Spe
