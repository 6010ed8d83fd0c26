import Kumf.Spe.PacScores
import Kumf.Spe.PageStats

/-! `generate_report`: the CSV, JSON and text reports and the configuration, written one after
the other until an exception ends the run.
-/

namespace Kumf.Spe

open Kumf.Library PyText

/-- An exception that ends a report. -/
inductive Raised where
  | keyError (key : List Char)
  | valueError (text : List Char)
  | zeroDivision
  deriving DecidableEq, Repr

/-- The texts of the current time, as each file shows it. -/
structure Clock where
  isoformat : List Char
  summary : List Char
  conf : List Char
  deriving DecidableEq, Repr

-----------------------------------------------------------------------------------------
-- The files of a report
-----------------------------------------------------------------------------------------

/-- `report_json['sampling']` -/
structure Sampling where
  method : List Char
  recordsParsed : Nat
  totalLines : Nat
  pagesTotal : Nat
  deriving DecidableEq, Repr

/-- `report_json['summary']` -/
structure Summary (F : Type) where
  hotPages : Nat
  warmPages : Nat
  coldPages : Nat
  hotAccessPct : Number F
  warmAccessPct : Number F
  coldAccessPct : Number F
  hotMemoryMb : F
  warmMemoryMb : F
  coldMemoryMb : F
  deriving DecidableEq, Repr

/-- `report_json` -/
structure ReportJson (F : Type) where
  version : List Char
  timestamp : List Char
  sampling : Sampling
  pacThresholds : Thresholds F
  summary : Summary F
  topPages : List (PageScore F)
  deriving DecidableEq, Repr

/-- The files of the output directory. The JSON file is kept as the value that it encodes. -/
structure Files (F : Type) where
  pagePac : Option (List Char) := none
  kumfReport : Option (ReportJson F) := none
  pacSummary : Option (List Char) := none
  kumfConf : Option (List Char) := none
  deriving DecidableEq, Repr

/-- Code that writes files and may raise. -/
abbrev Writes (F : Type) := EStateM Raised (Files F)

variable {F : Type}

/-- `open(csv_path, 'w')` and one `write` -/
def writePagePac (text : List Char) : Writes F Unit :=
  modify (fun files => { files with pagePac := some text })

/-- `json.dump(report_json, f)` -/
def writeKumfReport (report : ReportJson F) : Writes F Unit :=
  modify (fun files => { files with kumfReport := some report })

/-- `open(report_path, 'w')` -/
def openPacSummary : Writes F Unit :=
  modify (fun files => { files with pacSummary := some [] })

/-- `f.write(text)` on the text report -/
def writePacSummary (text : List Char) : Writes F Unit :=
  modify (fun files => { files with pacSummary := some (files.pacSummary.getD [] ++ text) })

/-- `open(conf_path, 'w')` and one `write` -/
def writeKumfConf (text : List Char) : Writes F Unit :=
  modify (fun files => { files with kumfConf := some text })

-----------------------------------------------------------------------------------------
-- Pages by tier
-----------------------------------------------------------------------------------------

variable [PyReal F]

/-- `p['pac'] >= bound` -/
def pacFrom (bound : F) (page : PageScore F) : Bool := PyReal.atLeast page.pac bound

/-- `p['pac'] < bound` -/
def pacBelow (bound : F) (page : PageScore F) : Bool := PyFloat.less page.pac bound

/-- `hot_pages` -/
def hotPages (thresholds : Thresholds F) (pages : List (PageScore F)) : List (PageScore F) :=
  pages.filter (pacFrom thresholds.hot)

/-- `warm_pages` -/
def warmPages (thresholds : Thresholds F) (pages : List (PageScore F)) : List (PageScore F) :=
  pages.filter (fun page => pacFrom thresholds.warm page && pacBelow thresholds.hot page)

/-- `cold_pages` -/
def coldPages (thresholds : Thresholds F) (pages : List (PageScore F)) : List (PageScore F) :=
  pages.filter (pacBelow thresholds.warm)

/-- `tier` -/
def tier (thresholds : Thresholds F) (page : PageScore F) : List Char :=
  if pacFrom thresholds.hot page then "HOT".toList
  else if pacFrom thresholds.warm page then "WARM".toList
  else "COLD".toList

-----------------------------------------------------------------------------------------
-- page_pac.csv and kumf_report.json
-----------------------------------------------------------------------------------------

/-- A row of the CSV. -/
def csvRow (thresholds : Thresholds F) (page : PageScore F) : List Char :=
  [','].intercalate [page.page, str page.accessCount, page.avgLatTot.text, str page.maxLatTot,
    PyReal.repr page.pac, page.llcRefillPct.text, page.svePct.text, page.ldStRatio,
    tier thresholds page]

/-- The first row of the CSV. -/
def csvHeader : List Char :=
  "page,access_count,avg_lat_tot,max_lat_tot,pac,llc_refill_pct,sve_pct,ld_st_ratio,tier".toList

def csvText (thresholds : Thresholds F) (pages : List (PageScore F)) : List Char :=
  unlines (csvHeader :: pages.map (csvRow thresholds))

/-- `round(part / total * 100, 1) if total else 0` -/
def accessPct (part total : Nat) : Number F :=
  if total = 0 then .int 0
  else .float (PyReal.round1 (PyReal.mul (PyFloat.quotient part total) (PyFloat.ofNat 100)))

def reportJson (clock : Clock) (thresholds : Thresholds F) (recordsParsed totalLines : Nat)
    (pages : List (PageScore F))
    : ReportJson F where
  version := "0.1.0".toList
  timestamp := clock.isoformat
  sampling := {
    method := "arm_spe".toList
    recordsParsed
    totalLines
    pagesTotal := pages.length }
  pacThresholds := thresholds
  summary := {
    hotPages := (hotPages thresholds pages).length
    warmPages := (warmPages thresholds pages).length
    coldPages := (coldPages thresholds pages).length
    hotAccessPct := accessPct (totalAccess (hotPages thresholds pages)) (totalAccess pages)
    warmAccessPct := accessPct (totalAccess (warmPages thresholds pages)) (totalAccess pages)
    coldAccessPct := accessPct (totalAccess (coldPages thresholds pages)) (totalAccess pages)
    hotMemoryMb := PyFloat.quotient ((hotPages thresholds pages).length * 4) 256
    warmMemoryMb := PyFloat.quotient ((warmPages thresholds pages).length * 4) 256
    coldMemoryMb := PyFloat.quotient ((coldPages thresholds pages).length * 4) 256 }
  topPages := pages.take 100

-----------------------------------------------------------------------------------------
-- pac_summary.txt
-----------------------------------------------------------------------------------------

/-- A line of 70 equal characters. -/
def rule (c : Char) : List Char := List.replicate 70 c

/-- A heading between two rules. -/
def heading (title : List Char) : List Char := unlines [rule '-', title, rule '-']

/-- `part / total * 100` -/
def percent (part total : Nat) : Writes F F :=
  if total = 0 then throw .zeroDivision
  else pure (PyReal.mul (PyFloat.quotient part total) (PyFloat.ofNat 100))

/-- `f"{pages*4/1024:.1f} MB"` -/
def megabytesOf (F : Type) [PyReal F] (pages : Nat) : List Char :=
  PyReal.format1 (PyFloat.quotient (pages * 4) 1024 : F) ++ " MB".toList

/-- The lines up to the thresholds. -/
def overviewText (F : Type) [PyReal F] (clock : Clock) (recordsParsed totalLines pageCount
    accesses : Nat)
    : List Char :=
  unlines [
    rule '=',
    "  KUMF SPE Page-Level PAC Analysis Report".toList,
    "  Generated: ".toList ++ clock.summary,
    rule '=',
    [],
    "Input lines processed:  ".toList ++ grouped totalLines,
    "SPE records parsed:     ".toList ++ grouped recordsParsed,
    "Unique pages:           ".toList ++ grouped pageCount,
    "Total memory accesses:  ".toList ++ grouped accesses,
    "Memory footprint:       ".toList ++ megabytesOf F pageCount ++ " (".toList ++ str pageCount
      ++ " pages × 4KB)".toList,
    []]
  ++ heading "  PAC Thresholds (auto-detected by cumulative access)".toList

/-- The line of a tier under the thresholds; the share of the accesses is computed between two
writes.
-/
def writeTierLine (label : List Char) (bound : F) (tierPages : List (PageScore F))
    (accesses : Nat) (advice : List Char)
    : Writes F Unit := do
  writePacSummary ("  ".toList ++ label ++ column 8 (PyReal.format1 bound) ++ "): ".toList
    ++ column 6 (str tierPages.length) ++ " pages".toList)
  let share ← percent (totalAccess tierPages) accesses
  writePacSummary ("  (".toList ++ column 5 (PyReal.format1 share) ++ "% access)".toList)
  writePacSummary ("  (".toList ++ megabytesOf F tierPages.length ++ ")  → ".toList ++ advice)

/-- The columns of the table of top pages. -/
def tableRow (number page access avgLat maxLat pac llc sve ratio tier : List Char) : List Char :=
  "  ".toList ++ column 3 number ++ "  ".toList ++ column 18 page ++ "  ".toList
    ++ column 8 access ++ "  ".toList ++ column 7 avgLat ++ "  ".toList ++ column 7 maxLat
    ++ "  ".toList ++ column 9 pac ++ "  ".toList ++ column 5 llc ++ "  ".toList ++ column 5 sve
    ++ "  ".toList ++ column 6 ratio ++ "  ".toList ++ column 5 tier

/-- The row of a page. -/
def pageRow (thresholds : Thresholds F) (page : PageScore F) (i : Nat) : List Char :=
  tableRow (str (i + 1)) page.page (str page.accessCount)
    (PyReal.format1 page.avgLatTot.toFloat) (str page.maxLatTot) (PyReal.format1 page.pac)
    (PyReal.format1 page.llcRefillPct.toFloat) (PyReal.format1 page.svePct.toFloat)
    page.ldStRatio (tier thresholds page)

def topPagesText (thresholds : Thresholds F) (pages : List (PageScore F)) : List Char :=
  heading "  Top 30 Pages by PAC Score".toList
  ++ unlines (
    tableRow "#".toList "Page".toList "Access".toList "AvgLAT".toList "MaxLAT".toList
      "PAC".toList "LLC%".toList "SVE%".toList "L:S".toList "Tier".toList
    :: tableRow "---".toList "---".toList "---".toList "---".toList "---".toList "---".toList
      "---".toList "---".toList "---".toList "---".toList
    :: (pages.take 30).mapIdx (fun i page => pageRow thresholds page i))
  ++ unlines [[], "  ... (".toList ++ str (pages.length - 30 : Int) ++ " more pages)".toList, []]

/-- `lat_ranges` as it is declared. -/
def latRanges : List (List Char × Nat) :=
  [("32-50 (L3 hit / near-cache)".toList, 0),
    ("50-100 (L3/cluster / near-local)".toList, 0),
    ("100-200 (local DRAM / near-node)".toList, 0),
    ("200-350 (socket-local / same-socket)".toList, 0),
    (">350 (cross-socket / far-node)".toList, 0)]

/-- The key under which the loop counts a latency. -/
def latKey (avg : F) : List Char :=
  if PyFloat.less avg (PyFloat.ofNat 50) then "32-50 (L3 hit)".toList
  else if PyFloat.less avg (PyFloat.ofNat 100) then "50-100 (L3/cluster)".toList
  else if PyFloat.less avg (PyFloat.ofNat 200) then "100-200 (local DRAM)".toList
  else if PyFloat.less avg (PyFloat.ofNat 350) then "200-350 (remote DRAM)".toList
  else ">350 (far remote)".toList

/-- `counts[key] += n` on a dictionary of counts. -/
def addToKey (key : List Char) (n : Nat)
    : List (List Char × Nat) → Writes F (List (List Char × Nat))
  | [] => throw (.keyError key)
  | entry :: rest =>
      if entry.1 = key then
        pure ((key, entry.2 + n) :: rest)
      else
        return entry :: (← addToKey key n rest)

/-- The loop that fills `lat_ranges`. -/
def fillLatRanges (pages : List (PageScore F)) (counts : List (List Char × Nat))
    : Writes F (List (List Char × Nat)) :=
  pages.foldlM (fun counts page => addToKey (latKey page.avgLatTot.toFloat) page.accessCount counts)
    counts

/-- The line of a latency range. -/
def latLine (F : Type) [PyReal F] (accesses : Nat) (range : List Char × Nat) : List Char :=
  let pct : Number F :=
    if accesses = 0 then .int 0
    else .float (PyReal.mul (PyFloat.quotient range.2 accesses) (PyFloat.ofNat 100))
  let bar := times "█".toList (PyReal.truncate (PyFloat.divide pct.toFloat 2))
  "  ".toList ++ column 24 range.1 ++ ": ".toList ++ column 10 (grouped range.2) ++ " (".toList
    ++ column 5 (PyReal.format1 pct.toFloat) ++ "%) ".toList ++ bar

def latDistributionText (F : Type) [PyReal F] (accesses : Nat) (counts : List (List Char × Nat))
    : List Char :=
  unlines ([
    rule '-',
    "  LAT TOT Distribution (by access count, min_latency=32)".toList,
    "  ────────────────────────────────────────────────────────────".toList,
    "  Note: 'local' and 'remote' are RELATIVE to the accessing thread's home node.".toList,
    "  The same DRAM is local for threads on that node, remote for all others.".toList,
    "  ────────────────────────────────────────────────────────────".toList,
    rule '-'] ++ counts.map (latLine F accesses) ++ [[]])

/-- A line of the access pattern insights. -/
def writeInsight (label : List Char) (part accesses : Nat) : Writes F Unit := do
  let share ← percent part accesses
  writePacSummary (label ++ grouped part ++ " (".toList ++ PyReal.format1 (share : F)
    ++ "% of access)\n".toList)

/-- The accesses of the pages of which more than half match an event. -/
def accessAboveHalf (pct : PageScore F → Number F) (pages : List (PageScore F)) : Nat :=
  totalAccess (pages.filter (fun page => PyFloat.less (PyFloat.ofNat 50) (pct page).toFloat))

/-- The closing lines of the text report. -/
def nearnessText : List Char :=
  unlines ["  SVE pages have natural high MLP → PAC adjusted down for placement".toList, []]
  ++ heading "  Relative Nearness Reminder".toList
  ++ unlines [
    "  'Near' and 'far' are RELATIVE to the accessing thread's home node.".toList,
    "  The same physical DRAM is near for threads on Node 0, far for Node 2.".toList,
    [],
    "  Kunpeng 930 example (derive from numactl -H at runtime):".toList,
    [],
    "    From\\To   Node 0    Node 1    Node 2    Node 3".toList,
    "    Node 0    LOCAL     socket    cross     cross".toList,
    "    Node 1    socket    LOCAL     cross     cross".toList,
    "    Node 2    cross     cross     LOCAL     socket".toList,
    "    Node 3    cross     cross     socket    LOCAL".toList,
    [],
    "  L1: Each thread's MPOL_PREFERRED → its home node (near = local automatically)".toList,
    "  L2: Shared allocations → route based on which home nodes access them".toList,
    "  Config 'local' keyword → interc resolves to calling thread's home node at runtime".toList]

/-- The text report up to the loop over the latencies. -/
def writeTiers (clock : Clock) (thresholds : Thresholds F) (recordsParsed totalLines : Nat)
    (pages : List (PageScore F))
    : Writes F Unit := do
  let accesses := totalAccess pages
  writePacSummary (overviewText F clock recordsParsed totalLines pages.length accesses)
  writeTierLine "HOT  (PAC >= ".toList thresholds.hot (hotPages thresholds pages) accesses
    "FAST tier ⚡\n".toList
  writeTierLine "WARM (PAC >= ".toList thresholds.warm (warmPages thresholds pages) accesses
    "FAST if space\n".toList
  writeTierLine "COLD (PAC <  ".toList thresholds.warm (coldPages thresholds pages) accesses
    "SLOW tier 🧊\n\n".toList
  writePacSummary (topPagesText thresholds pages)

/-- The text report behind the loop over the latencies. -/
def writeInsights (pages : List (PageScore F)) (counts : List (List Char × Nat))
    : Writes F Unit := do
  let accesses := totalAccess pages
  writePacSummary (latDistributionText F accesses counts)
  writePacSummary (heading "  Access Pattern Insights".toList)
  writeInsight "  Pages with >50% SVE accesses:  ".toList
    (accessAboveHalf PageScore.svePct pages) accesses
  writeInsight "  Pages with >50% LLC refills:    ".toList
    (accessAboveHalf PageScore.llcRefillPct pages) accesses
  writePacSummary nearnessText

end Kumf.Spe
