import Kumf.Spe.Report
import Mathlib.Data.List.Perm.Basic

/-! The tiers of `generate_report`: the three lists against the tier in `page_pac.csv`. The
lists test each page on their own, the tier takes the first bound that the page reaches, and
nothing orders the two bounds once they come from the command line.
-/

namespace Kumf.Spe

open Kumf.Library PyText

variable {F : Type} [PyReal F]

/-- The thresholds that `main` passes on: those of the command line, where it gives any. -/
def overridden (hotThreshold warmThreshold : Option F) (detected : Thresholds F) : Thresholds F :=
  { detected with
    hot := hotThreshold.getD detected.hot
    warm := warmThreshold.getD detected.warm }

/-- The lists are a partition of the pages, by the tier of the CSV file. -/
structure TiersPartition (thresholds : Thresholds F) (pages : List (PageScore F)) : Prop where
  partition
    : (hotPages thresholds pages ++ warmPages thresholds pages ++ coldPages thresholds pages).Perm
        pages
  hot : ∀ page ∈ hotPages thresholds pages, tier thresholds page = "HOT".toList
  warm : ∀ page ∈ warmPages thresholds pages, tier thresholds page = "WARM".toList
  cold : ∀ page ∈ coldPages thresholds pages, tier thresholds page = "COLD".toList

/-- A number that is not between the bounds when these are reversed, and that a bound which is
no number leaves in no doubt.
-/
structure Decided (thresholds : Thresholds F) (pac : F) : Prop where
  number : isNan pac = false
  ordered
    : ¬ (PyReal.atLeast pac thresholds.hot = true ∧ PyFloat.less pac thresholds.warm = true)
  nanHot : isNan thresholds.hot = true → PyFloat.less pac thresholds.warm = true
  nanWarm : isNan thresholds.warm = true → PyReal.atLeast pac thresholds.hot = true

omit [PyReal F] in
/-- Three tests of which each item passes one divide a list. -/
theorem filters_perm {α : Type} {items : List α} {first second third : α → Bool}
    (one
      : ∀ item ∈ items,
          second item = (!first item && second item)
          ∧ third item = (!first item && !second item))
    : (items.filter first ++ items.filter second ++ items.filter third).Perm items := by
  have middle : items.filter second = (items.filter (fun item => !first item)).filter second := by
    rw [List.filter_filter]
    refine List.filter_congr (fun item member => ?_)
    rw [Bool.and_comm]
    exact (one item member).1
  have rest : items.filter third
      = (items.filter (fun item => !first item)).filter (fun item => !second item) := by
    rw [List.filter_filter]
    refine List.filter_congr (fun item member => ?_)
    rw [Bool.and_comm]
    exact (one item member).2
  rw [middle, rest, List.append_assoc]
  refine List.Perm.trans ?_ (List.filter_append_perm first items)
  exact (List.filter_append_perm second _).append_left _

section
variable (order : FloatOrder F) {thresholds : Thresholds F} {page : PageScore F}
include order

/-- What the comparisons say of a decided page. -/
theorem Decided.tests (decided : Decided thresholds page.pac)
    : (pacFrom thresholds.hot page = true ∧ pacBelow thresholds.hot page = false
        ∧ pacBelow thresholds.warm page = false)
      ∨ (pacFrom thresholds.hot page = false ∧ pacFrom thresholds.warm page = true
        ∧ pacBelow thresholds.hot page = true ∧ pacBelow thresholds.warm page = false)
      ∨ (pacFrom thresholds.hot page = false ∧ pacFrom thresholds.warm page = false
        ∧ pacBelow thresholds.warm page = true) := by
  unfold pacFrom pacBelow
  obtain ⟨number, ordered, nanHot, nanWarm⟩ := decided
  cases hot : isNan thresholds.hot with
  | true =>
      obtain ⟨below, notFrom⟩ := order.nan page.pac thresholds.hot (.inr hot)
      have cold := nanHot hot
      cases warm : isNan thresholds.warm with
      | true =>
          have unclear := order.nan page.pac thresholds.warm (.inr warm)
          exact absurd cold (by simp [unclear.1])
      | false =>
          have from_ := order.number page.pac thresholds.warm number warm
          rw [cold] at from_
          exact .inr (.inr ⟨notFrom, from_, cold⟩)
  | false =>
      have byHot := order.number page.pac thresholds.hot number hot
      cases warm : isNan thresholds.warm with
      | true =>
          obtain ⟨below, notFrom⟩ := order.nan page.pac thresholds.warm (.inr warm)
          have reached := nanWarm warm
          rw [reached] at byHot
          exact .inl ⟨reached, by simpa using byHot.symm, below⟩
      | false =>
          have byWarm := order.number page.pac thresholds.warm number warm
          cases below : PyFloat.less page.pac thresholds.hot <;>
            cases cold : PyFloat.less page.pac thresholds.warm <;>
              simp_all

/-- A page that stands in one list, the one of its tier, is decided. -/
theorem TiersPartition.decided {pages : List (PageScore F)}
    (tiers : TiersPartition thresholds pages) (listed : page ∈ pages)
    : Decided thresholds page.pac := by
  have nanPac (compared : isNan page.pac = true) (bound : F)
      : PyFloat.less page.pac bound = false ∧ PyReal.atLeast page.pac bound = false :=
    order.nan page.pac bound (.inl compared)
  have placed := tiers.partition.mem_iff.mpr listed
  -- a page that is hot by the first test and cold by the last one stands in two lists
  have ordered : ¬ (PyReal.atLeast page.pac thresholds.hot = true
      ∧ PyFloat.less page.pac thresholds.warm = true) := by
    rintro ⟨reached, below⟩
    have hot := tiers.hot page (List.mem_filter.mpr ⟨listed, reached⟩)
    have cold := tiers.cold page (List.mem_filter.mpr ⟨listed, below⟩)
    exact absurd (hot.symm.trans cold) (by decide)
  rcases List.mem_append.mp placed with inFront | inCold
  · rcases List.mem_append.mp inFront with inHot | inWarm
    · have reached : PyReal.atLeast page.pac thresholds.hot = true := (List.mem_filter.mp inHot).2
      refine ⟨?_, ordered, fun nan => ?_, fun _ => reached⟩
      · by_contra nan
        rw [Bool.not_eq_false] at nan
        exact absurd reached (by simp [(nanPac nan thresholds.hot).2])
      · exact absurd reached (by simp [(order.nan page.pac thresholds.hot (.inr nan)).2])
    · have tests := Bool.and_eq_true_iff.mp (List.mem_filter.mp inWarm).2
      have reached : PyReal.atLeast page.pac thresholds.warm = true := tests.1
      have below : PyFloat.less page.pac thresholds.hot = true := tests.2
      refine ⟨?_, ordered, fun nan => ?_, fun nan => ?_⟩
      · by_contra nan
        rw [Bool.not_eq_false] at nan
        exact absurd reached (by simp [(nanPac nan thresholds.warm).2])
      · exact absurd below (by simp [(order.nan page.pac thresholds.hot (.inr nan)).1])
      · exact absurd reached (by simp [(order.nan page.pac thresholds.warm (.inr nan)).2])
  · have below : PyFloat.less page.pac thresholds.warm = true := (List.mem_filter.mp inCold).2
    refine ⟨?_, ordered, fun _ => below, fun nan => ?_⟩
    · by_contra nan
      rw [Bool.not_eq_false] at nan
      exact absurd below (by simp [(nanPac nan thresholds.warm).1])
    · exact absurd below (by simp [(order.nan page.pac thresholds.warm (.inr nan)).1])

theorem tiersPartition_of_decided {pages : List (PageScore F)}
    (decided : ∀ page ∈ pages, Decided thresholds page.pac)
    : TiersPartition thresholds pages := by
  constructor
  case partition =>
      refine filters_perm (fun page listed => ?_)
      rcases (decided page listed).tests order with
        ⟨hot, notBelow, notCold⟩ | ⟨notHot, warm, below, notCold⟩
          | ⟨notHot, notWarm, cold⟩
      · simp [hot, notBelow, notCold]
      · simp [notHot, warm, below, notCold]
      · simp [notHot, notWarm, cold]
  case hot =>
      intro page member
      exact if_pos (List.mem_filter.mp member).2
  case warm =>
      intro page member
      obtain ⟨listed, tests⟩ := List.mem_filter.mp member
      obtain ⟨reached, below⟩ := Bool.and_eq_true_iff.mp tests
      rcases (decided page listed).tests order
        with ⟨_, notBelow, _⟩ | ⟨notHot, _⟩ | ⟨notHot, _⟩
      · exact absurd below (by simp [notBelow])
      · simp [tier, notHot, reached]
      · simp [tier, notHot, reached]
  case cold =>
      intro page member
      obtain ⟨listed, below⟩ := List.mem_filter.mp member
      rcases (decided page listed).tests order with
        ⟨_, _, notCold⟩ | ⟨_, _, _, notCold⟩ | ⟨notHot, notWarm, _⟩
      · exact absurd below (by simp [notCold])
      · exact absurd below (by simp [notCold])
      · simp [tier, notHot, notWarm]

end

/-- The lists and the CSV file agree exactly when every page is decided: a page between
reversed bounds is listed as hot and as cold.
-/
theorem tiersPartition_iff (order : FloatOrder F) (pacScores : PacScores F)
    (thresholds : Thresholds F)
    : TiersPartition thresholds (sortedPages pacScores)
      ↔ ∀ page ∈ pacScores.values, Decided thresholds page.pac := by
  have same (page : PageScore F) := (sortedPages_perm pacScores).mem_iff (a := page)
  constructor
  · intro tiers page listed
    exact tiers.decided order ((same page).mpr listed)
  · intro decided
    exact tiersPartition_of_decided order (fun page listed => decided page ((same page).mp listed))

/-- One page with PAC 5. -/
def warmPage : PacScores ℚ where
  entries := [("0x1000".toList, {
    page := "0x1000".toList
    accessCount := 1
    avgLatTot := .int 5
    maxLatTot := 5
    latTotSum := 5
    pac := 5
    llcRefillPct := .int 0
    svePct := .int 0
    ldStRatio := "1:0".toList })]
  nodup := by decide

theorem tiersPartition_iff_onePage
    : TiersPartition (detectKnee warmPage) (sortedPages warmPage)
      ↔ ∀ page ∈ warmPage.values, Decided (detectKnee warmPage) page.pac :=
  tiersPartition_iff floatOrder_rat warmPage (detectKnee warmPage)

/-- With `--warm-threshold 10` the page is in the hot list and in the cold list. -/
theorem onePage_hotAndCold
    : hotPages (overridden none (some 10) (detectKnee warmPage)) (sortedPages warmPage)
        = sortedPages warmPage
      ∧ coldPages (overridden none (some 10) (detectKnee warmPage)) (sortedPages warmPage)
        = sortedPages warmPage
      ∧ ¬ TiersPartition (overridden none (some 10) (detectKnee warmPage))
          (sortedPages warmPage) := by
  refine ⟨by decide, by decide, fun tiers => ?_⟩
  exact absurd tiers.partition.length_eq (by decide)

end Kumf.Spe
