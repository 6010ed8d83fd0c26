import Kumf.Library.Keeping
import Kumf.Spe.ReportRun
import Kumf.Spe.Tiers

/-! The figures of the tiers in `kumf_report.json`, against the rows of `page_pac.csv` and the
lines of `pac_summary.txt`. The megabytes are computed twice, with different divisors.
-/

namespace Kumf.Spe

open Kumf.Library PyText

/-- What `report_json['summary']` says of a tier. -/
structure TierFigures (F : Type) where
  pages : Nat
  accessPct : Number F
  memoryMb : F
  deriving DecidableEq, Repr

def Summary.figures {F : Type} (summary : Summary F) : PageTier → TierFigures F
  | .hot => ⟨summary.hotPages, summary.hotAccessPct, summary.hotMemoryMb⟩
  | .warm => ⟨summary.warmPages, summary.warmAccessPct, summary.warmMemoryMb⟩
  | .cold => ⟨summary.coldPages, summary.coldAccessPct, summary.coldMemoryMb⟩

variable {F : Type} [PyReal F]

namespace PageTier

/-- The tier in the last column of the CSV. -/
def label : PageTier → List Char
  | hot => "HOT".toList
  | warm => "WARM".toList
  | cold => "COLD".toList

/-- The pages whose row in the CSV has the tier. -/
def rows (thresholds : Thresholds F) (sorted : List (PageScore F)) (tier : PageTier)
    : List (PageScore F) :=
  sorted.filter (fun page => Spe.tier thresholds page = tier.label)

end PageTier

/-- The files when `generate_report` has ended, by an exception or not. -/
def reportLeft (clock : Clock) (pacScores : PacScores F) (thresholds : Thresholds F)
    (recordsParsed totalLines : Nat) (files : Files F)
    : Files F :=
  stateLeft ((generateReport clock pacScores thresholds recordsParsed totalLines).run files)

/-- The figures of a tier agree with the CSV and with the text report. That one ends before its
lines for the tiers if there is no access to divide by.
-/
structure FiguresAgree (value : F → ℚ) (thresholds : Thresholds F) (sorted : List (PageScore F))
    (pacSummary : Option (List Char)) (tier : PageTier) (figures : TierFigures F)
    : Prop where
  pages : figures.pages = (tier.rows thresholds sorted).length
  accessPct
    : figures.accessPct
      = accessPct (totalAccess (tier.rows thresholds sorted)) (totalAccess sorted)
  memoryMb : value figures.memoryMb = 4096 * figures.pages / 2 ^ 20
  printed
    : totalAccess sorted ≠ 0
      → ∃ text printed,
          pacSummary = some text
          ∧ tier.line thresholds sorted printed <:+: text
          ∧ value printed = value figures.memoryMb

/-- So in the files of a report. -/
def TierAgrees (value : F → ℚ) (thresholds : Thresholds F) (sorted : List (PageScore F))
    (left : Files F) (tier : PageTier)
    : Prop :=
  ∃ report,
    left.kumfReport = some report
    ∧ FiguresAgree value thresholds sorted left.pacSummary tier (report.summary.figures tier)

/-- A reading of floats that is exact on the megabytes of some pages: floats of 53 bits hold those
of up to 2^51 pages.
-/
structure ExactMegabytes (value : F → ℚ) (most : Nat) : Prop where
  quotient
    : ∀ pages ≤ most,
        ∀ k ≤ 10, value (PyFloat.quotient (pages * 4) (2 ^ k)) = pages * 4 / 2 ^ k

theorem exactMegabytes_rat (most : Nat) : ExactMegabytes (id : ℚ → ℚ) most where
  quotient pages _ k _ := by
    change ((pages * 4 : Nat) : ℚ) / ((2 ^ k : Nat) : ℚ) = _
    push_cast
    rfl

-----------------------------------------------------------------------------------------
-- The files that a report leaves
-----------------------------------------------------------------------------------------

section
variable (clock : Clock) (pacScores : PacScores F) (thresholds : Thresholds F)
  (recordsParsed totalLines : Nat) (files : Files F)

/-- The first files are complete, and the text report is what `writeTiers` has made of it: with
accesses the run ends in the loop over the latencies, without any already in `writeTiers`.
-/
theorem reportLeft_eq
    : ∃ text,
        reportLeft clock pacScores thresholds recordsParsed totalLines files
          = reportFiles clock pacScores thresholds recordsParsed totalLines files text
        ∧ (totalAccess (sortedPages pacScores) ≠ 0
          → text = tiersText clock thresholds recordsParsed totalLines
              (sortedPages pacScores)) := by
  by_cases unused : totalAccess (sortedPages pacScores) = 0
  case pos =>
      obtain ⟨text, raises⟩ :=
        writeTiers_raises clock thresholds recordsParsed totalLines unused
        (reportFiles clock pacScores thresholds recordsParsed totalLines files [])
      refine ⟨text, ?_, fun accessed => absurd unused accessed⟩
      unfold reportFiles at raises
      simp only [reportLeft, generateReport, EStateM.run_bind, writePagePac, writeKumfReport,
        openPacSummary, EStateM.run_modify, raises]
      rfl
  case neg =>
      have accessed := totalAccess_sortedPages pacScores ▸ unused
      obtain ⟨page, _, stops⟩ := generateReport_stops clock pacScores thresholds recordsParsed
        totalLines accessed files
      exact ⟨_, congrArg stateLeft stops, fun _ => rfl⟩

end

-----------------------------------------------------------------------------------------
-- Lists and rows
-----------------------------------------------------------------------------------------

/-- The tier of a page. -/
def PageTier.ofPage (thresholds : Thresholds F) (page : PageScore F) : PageTier :=
  if pacFrom thresholds.hot page then .hot
  else if pacFrom thresholds.warm page then .warm
  else .cold

theorem tier_eq_label (thresholds : Thresholds F) (page : PageScore F)
    : Spe.tier thresholds page = (PageTier.ofPage thresholds page).label := by
  unfold Spe.tier PageTier.ofPage
  split
  case isTrue => rfl
  case isFalse => split <;> rfl

theorem label_injective {tier other : PageTier} : tier.label = other.label ↔ tier = other := by
  cases tier <;> cases other <;> decide

theorem rows_eq (thresholds : Thresholds F) (sorted : List (PageScore F)) (tier : PageTier)
    : tier.rows thresholds sorted
      = sorted.filter (fun page => PageTier.ofPage thresholds page = tier) := by
  simp only [PageTier.rows, tier_eq_label, label_injective]

/-- The laws under which the bounds cut the floats into tiers, the NaNs apart. -/
structure BoundsCut (thresholds : Thresholds F) : Prop where
  order : FloatOrder F
  trans
    : ∀ x y z : F,
        PyReal.atLeast x y = true → PyReal.atLeast y z = true → PyReal.atLeast x z = true
  ordered : PyReal.atLeast thresholds.hot thresholds.warm = true

section
variable {thresholds : Thresholds F} (cut : BoundsCut thresholds)
include cut

/-- Ordered bounds are numbers. -/
theorem BoundsCut.numbers : isNan thresholds.hot = false ∧ isNan thresholds.warm = false := by
  constructor
  all_goals
    by_contra nan
    rw [Bool.not_eq_false] at nan
  · have apart := (cut.order.nan thresholds.hot thresholds.warm (.inl nan)).2
    exact absurd cut.ordered (by simp [apart])
  · have apart := (cut.order.nan thresholds.hot thresholds.warm (.inr nan)).2
    exact absurd cut.ordered (by simp [apart])

theorem BoundsCut.below {page : PageScore F} (number : isNan page.pac = false)
    : pacBelow thresholds.hot page = !pacFrom thresholds.hot page
      ∧ pacBelow thresholds.warm page = !pacFrom thresholds.warm page := by
  obtain ⟨hot, warm⟩ := cut.numbers
  have byHot := cut.order.number page.pac thresholds.hot number hot
  have byWarm := cut.order.number page.pac thresholds.warm number warm
  simp [pacBelow, pacFrom, byHot, byWarm]

/-- The list of a tier has the pages of its rows, without those whose PAC is a NaN: their rows say
COLD, and no list takes them.
-/
theorem BoundsCut.pages_eq (sorted : List (PageScore F)) (tier : PageTier)
    : tier.pages thresholds sorted
      = (tier.rows thresholds sorted).filter (fun page => !isNan page.pac) := by
  have chain (page : PageScore F) (reached : pacFrom thresholds.hot page = true)
      : pacFrom thresholds.warm page = true :=
    cut.trans page.pac thresholds.hot thresholds.warm reached cut.ordered
  rw [rows_eq, List.filter_filter]
  cases tier
  all_goals
    refine List.filter_congr (fun page _ => ?_)
    cases nan : isNan page.pac
  case hot.false =>
      cases hot : pacFrom thresholds.hot page
      case true => simp [PageTier.ofPage, hot]
      case false =>
          cases warm : pacFrom thresholds.warm page <;> simp [PageTier.ofPage, hot, warm]
  case warm.false =>
      rw [(cut.below nan).1]
      cases hot : pacFrom thresholds.hot page
      case true => simp [PageTier.ofPage, hot]
      case false =>
          cases warm : pacFrom thresholds.warm page <;> simp [PageTier.ofPage, hot, warm]
  case cold.false =>
      rw [(cut.below nan).2]
      cases hot : pacFrom thresholds.hot page
      case true => simp [PageTier.ofPage, hot, chain page hot]
      case false =>
          cases warm : pacFrom thresholds.warm page <;> simp [PageTier.ofPage, hot, warm]
  case hot.true => simp [pacFrom, cut.order.nan page.pac _ (.inl nan)]
  case warm.true => simp [pacFrom, cut.order.nan page.pac _ (.inl nan)]
  case cold.true => simp [pacBelow, cut.order.nan page.pac _ (.inl nan)]

/-- Without NaNs, lists and rows have the same pages. -/
theorem BoundsCut.pages_eq_rows {sorted : List (PageScore F)}
    (numbers : ∀ page ∈ sorted, isNan page.pac = false) (tier : PageTier)
    : tier.pages thresholds sorted = tier.rows thresholds sorted := by
  rw [cut.pages_eq, List.filter_eq_self]
  intro page member
  rw [numbers page (List.mem_of_mem_filter member)]
  rfl

end

-----------------------------------------------------------------------------------------
-- The figures
-----------------------------------------------------------------------------------------

/-- The figures of the JSON file: 256 stands under the kilobytes of a tier. -/
theorem figures_reportJson (clock : Clock) (thresholds : Thresholds F)
    (recordsParsed totalLines : Nat) (sorted : List (PageScore F)) (tier : PageTier)
    : (reportJson clock thresholds recordsParsed totalLines sorted).summary.figures tier = {
        pages := (tier.pages thresholds sorted).length
        accessPct := accessPct (totalAccess (tier.pages thresholds sorted)) (totalAccess sorted)
        memoryMb := PyFloat.quotient ((tier.pages thresholds sorted).length * 4) 256 } := by
  cases tier <;> rfl

theorem length_pages_le (thresholds : Thresholds F) (sorted : List (PageScore F))
    (tier : PageTier)
    : (tier.pages thresholds sorted).length ≤ sorted.length := by
  cases tier <;> exact List.length_filter_le _ _

section
variable {value : F → ℚ} {pages most : Nat} (exact : ExactMegabytes value most)
    (few : pages ≤ most)
include exact few

/-- The text report prints pages of 4096 bytes as megabytes. -/
theorem ExactMegabytes.printed : value (printedMb F pages) = 4096 * pages / 2 ^ 20 := by
  have read := exact.quotient pages few 10 (by decide)
  have same : printedMb F pages = PyFloat.quotient (pages * 4) (2 ^ 10) := rfl
  rw [same, read]
  ring

/-- The JSON file has four times as many. -/
theorem ExactMegabytes.reported
    : value (PyFloat.quotient (pages * 4) 256) = 4 * (4096 * pages / 2 ^ 20) := by
  have read := exact.quotient pages few 8 (by decide)
  have same : PyFloat.quotient (pages * 4) 256 = (PyFloat.quotient (pages * 4) (2 ^ 8) : F) := rfl
  rw [same, read]
  ring

end

section
variable (clock : Clock) (pacScores : PacScores F) (thresholds : Thresholds F)
  (recordsParsed totalLines : Nat) (files : Files F)

/-- The line of a tier stands in the text report, unless there is no access to divide by. -/
theorem reportLeft_prints (accessed : totalAccess (sortedPages pacScores) ≠ 0) (tier : PageTier)
    : ∃ text,
        (reportLeft clock pacScores thresholds recordsParsed totalLines files).pacSummary
          = some text
        ∧ tier.line thresholds (sortedPages pacScores)
            (printedMb F (tier.pages thresholds (sortedPages pacScores)).length)
          <:+: text := by
  obtain ⟨text, left, printed⟩ :=
    reportLeft_eq clock pacScores thresholds recordsParsed totalLines files
  refine ⟨text, congrArg Files.pacSummary left, ?_⟩
  have inWhole
      : tier.line thresholds (sortedPages pacScores)
          (printedMb F (tier.pages thresholds (sortedPages pacScores)).length)
        <:+: tier.whole thresholds (sortedPages pacScores) :=
    (List.prefix_append _ tier.advice).isInfix
  refine inWhole.trans ?_
  rw [printed accessed]
  cases tier
  case hot =>
      exact (List.infix_append _ _ _).trans
        ((List.prefix_append _ _).trans (List.prefix_append _ _)).isInfix
  case warm => exact (List.infix_append _ _ _).trans (List.prefix_append _ _).isInfix
  case cold => exact List.infix_append _ _ _

end

variable {pacScores : PacScores F} {thresholds : Thresholds F} {value : F → ℚ}

/-- Pages and shares agree with the rows, unless a PAC is a NaN. So does the memory in the text
report, and that in the JSON file is four times as much.
-/
theorem reportLeft_figures (cut : BoundsCut thresholds)
    (exact : ExactMegabytes value pacScores.values.length) (clock : Clock)
    (recordsParsed totalLines : Nat) (files : Files F)
    (numbers : ∀ page ∈ pacScores.values, isNan page.pac = false) (tier : PageTier)
    : ∃ report,
        (reportLeft clock pacScores thresholds recordsParsed totalLines files).kumfReport
          = some report
        ∧ (report.summary.figures tier).pages
          = (tier.rows thresholds (sortedPages pacScores)).length
        ∧ (report.summary.figures tier).accessPct
          = accessPct (totalAccess (tier.rows thresholds (sortedPages pacScores)))
            (totalAccess (sortedPages pacScores))
        ∧ value (printedMb F (tier.pages thresholds (sortedPages pacScores)).length)
          = 4096 * (tier.rows thresholds (sortedPages pacScores)).length / 2 ^ 20
        ∧ value (report.summary.figures tier).memoryMb
          = 4 * (4096 * (tier.rows thresholds (sortedPages pacScores)).length / 2 ^ 20) := by
  obtain ⟨_, left, -⟩ := reportLeft_eq clock pacScores thresholds recordsParsed totalLines files
  have few : (tier.pages thresholds (sortedPages pacScores)).length ≤ pacScores.values.length :=
    (sortedPages_perm pacScores).length_eq ▸ length_pages_le thresholds _ tier
  have same := cut.pages_eq_rows
    (fun page member => numbers page ((sortedPages_perm pacScores).mem_iff.mp member)) tier
  rw [same] at few ⊢
  refine ⟨_, congrArg Files.kumfReport left, ?_⟩
  rw [figures_reportJson, same]
  exact ⟨rfl, rfl, exact.printed few, exact.reported few⟩

/-- The figures of a tier with pages are wrong, those of one without are right. -/
theorem tierAgrees_iff (cut : BoundsCut thresholds)
    (exact : ExactMegabytes value pacScores.values.length) (clock : Clock)
    (recordsParsed totalLines : Nat) (files : Files F) (tier : PageTier)
    : TierAgrees value thresholds (sortedPages pacScores)
        (reportLeft clock pacScores thresholds recordsParsed totalLines files) tier
      ↔ tier.rows thresholds (sortedPages pacScores) = [] := by
  obtain ⟨_, left, -⟩ := reportLeft_eq clock pacScores thresholds recordsParsed totalLines files
  have written := congrArg Files.kumfReport left
  have few : (tier.pages thresholds (sortedPages pacScores)).length ≤ pacScores.values.length :=
    (sortedPages_perm pacScores).length_eq ▸ length_pages_le thresholds _ tier
  constructor
  · rintro ⟨report, found, agree⟩
    obtain rfl : reportJson clock thresholds recordsParsed totalLines (sortedPages pacScores)
        = report :=
      Option.some.inj (written.symm.trans found)
    rw [figures_reportJson] at agree
    have memory := agree.memoryMb
    dsimp only at memory
    rw [exact.reported few] at memory
    -- a memory that is four times itself is 0
    have none : ((tier.pages thresholds (sortedPages pacScores)).length : ℚ) = 0 := by
      linarith
    have counted : 0 = (tier.rows thresholds (sortedPages pacScores)).length :=
      (Nat.cast_eq_zero.mp none).symm.trans agree.pages
    exact List.length_eq_zero_iff.mp counted.symm
  · intro none
    have empty : tier.pages thresholds (sortedPages pacScores) = [] := by
      rw [cut.pages_eq, none, List.filter_nil]
    have zero : value (PyFloat.quotient (0 * 4) 256) = 0 := by
      rw [exact.reported (Nat.zero_le _)]
      norm_num
    refine ⟨_, written, ?_⟩
    rw [figures_reportJson, empty]
    exact {
      pages := by rw [none]
      accessPct := by rw [none]
      memoryMb := by
        dsimp only [List.length_nil]
        rw [zero]
        norm_num
      printed := by
        intro accessed
        obtain ⟨text, summary, inText⟩ :=
          reportLeft_prints clock pacScores thresholds recordsParsed totalLines files accessed tier
        rw [empty] at inText
        refine ⟨text, _, summary, inText, ?_⟩
        dsimp only [List.length_nil]
        rw [zero, exact.printed (Nat.zero_le _)]
        norm_num }

/-- A figure of `kumf_report.json` agrees with the other two reports just for a tier without pages,
and so all of them do just for no pages at all: the megabytes are four times those of the pages.
-/
theorem generateReport_figures_iff (cut : BoundsCut thresholds)
    (exact : ExactMegabytes value pacScores.values.length) (clock : Clock)
    (recordsParsed totalLines : Nat) (files : Files F)
    : (∀ tier,
        TierAgrees value thresholds (sortedPages pacScores)
            (reportLeft clock pacScores thresholds recordsParsed totalLines files) tier
          ↔ ∀ page ∈ pacScores.values, PageTier.ofPage thresholds page ≠ tier)
      ∧ ((∀ tier,
          TierAgrees value thresholds (sortedPages pacScores)
            (reportLeft clock pacScores thresholds recordsParsed totalLines files) tier)
        ↔ pacScores.values = []) := by
  have each (tier : PageTier)
      : TierAgrees value thresholds (sortedPages pacScores)
          (reportLeft clock pacScores thresholds recordsParsed totalLines files) tier
        ↔ ∀ page ∈ pacScores.values, PageTier.ofPage thresholds page ≠ tier := by
    rw [tierAgrees_iff cut exact, rows_eq, List.filter_eq_nil_iff]
    simp only [decide_eq_true_eq, (sortedPages_perm pacScores).mem_iff, ne_eq]
  refine ⟨each, ?_⟩
  simp only [each]
  constructor
  · intro absent
    by_contra nonempty
    obtain ⟨page, member⟩ := List.exists_mem_of_ne_nil _ nonempty
    exact absent _ page member rfl
  · intro empty tier page member
    rw [empty] at member
    cases member

/-- Bounds in exact arithmetic. -/
theorem boundsCut_rat {thresholds : Thresholds ℚ} (ordered : thresholds.warm ≤ thresholds.hot)
    : BoundsCut thresholds where
  order := floatOrder_rat
  trans x y z first second := by
    simp only [PyReal.atLeast, decide_eq_true_eq] at *
    exact second.trans first
  ordered := decide_eq_true ordered

theorem generateReport_figures_onePage
    : (∀ tier,
        TierAgrees id ⟨300, 150, 75⟩ (sortedPages onePage)
            (reportLeft midnight onePage ⟨300, 150, 75⟩ 1 8 {}) tier
          ↔ ∀ page ∈ onePage.values, PageTier.ofPage ⟨300, 150, 75⟩ page ≠ tier)
      ∧ ((∀ tier,
          TierAgrees id ⟨300, 150, 75⟩ (sortedPages onePage)
            (reportLeft midnight onePage ⟨300, 150, 75⟩ 1 8 {}) tier)
        ↔ onePage.values = []) :=
  generateReport_figures_iff (boundsCut_rat (by norm_num)) (exactMegabytes_rat _) midnight 1 8 {}

/-- Of one hot page the JSON file says 1/64 MB, and the text report 1/256 MB. -/
theorem onePage_memory
    : (reportLeft midnight onePage ⟨300, 150, 75⟩ 1 8 {}).kumfReport.map
          (fun report => report.summary.hotMemoryMb)
        = some (1 / 64)
      ∧ printedMb ℚ (hotPages ⟨300, 150, 75⟩ (sortedPages onePage)).length = 1 / 256
      ∧ ¬ ∀ tier,
          TierAgrees id ⟨300, 150, 75⟩ (sortedPages onePage)
            (reportLeft midnight onePage ⟨300, 150, 75⟩ 1 8 {}) tier := by
  have hot : (hotPages ⟨300, 150, 75⟩ (sortedPages onePage)).length = 1 := by decide
  obtain ⟨_, left, -⟩ := reportLeft_eq midnight onePage ⟨300, 150, 75⟩ 1 8 {}
  have reported : (PyFloat.quotient (1 * 4) 256 : ℚ) = 1 / 64 := by
    norm_num [PyFloat.quotient]
  refine ⟨?_, ?_, fun agrees => ?_⟩
  · rw [left, ← reported, ← hot]
    rfl
  · rw [hot]
    norm_num [printedMb, PyFloat.quotient]
  · have none := (tierAgrees_iff (boundsCut_rat (by norm_num)) (exactMegabytes_rat _) midnight 1 8
      {} .hot).mp (agrees .hot)
    exact absurd none (by decide)

end Kumf.Spe
