import Kumf.Library.Totals
import Kumf.PacToInterc.KeptAllocations
import Mathlib.Data.Set.Card

/-! `cross_correlate` against the pages that an allocation touches: the walk in page steps finds
each of them once, so an allocation has the sums of the scored pages among them.
-/

namespace Kumf.PacToInterc

open Kumf.Library PyText

-----------------------------------------------------------------------------------------
-- The pages of an allocation
-----------------------------------------------------------------------------------------

/-- The page at an address shares a byte with the allocation. -/
def ProfAllocation.Touches (alloc : ProfAllocation) (pageAddr : Nat) : Prop :=
  4096 ∣ pageAddr
  ∧ ∃ byte,
      (alloc.addr ≤ byte ∧ byte < alloc.addr + alloc.size)
      ∧ pageAddr ≤ byte ∧ byte < pageAddr + 4096

/-- `cross_correlate` looks at the allocation. -/
def ProfAllocation.Kept (alloc : ProfAllocation) : Prop :=
  alloc.entryType ≠ 0 ∧ 4096 ≤ alloc.size

instance (alloc : ProfAllocation) : Decidable alloc.Kept :=
  inferInstanceAs (Decidable (_ ∧ _))

section
variable {alloc : ProfAllocation} {pageAddr : Nat}

theorem ProfAllocation.touches_iff (kept : alloc.Kept)
    : alloc.Touches pageAddr
      ↔ 4096 ∣ pageAddr ∧ pageAddr < alloc.addr + alloc.size
        ∧ alloc.addr < pageAddr + 4096 := by
  have large := kept.2
  constructor
  · rintro ⟨aligned, byte, inBlock, inPage⟩
    exact ⟨aligned, by omega, by omega⟩
  · rintro ⟨aligned, low, high⟩
    exact ⟨aligned, max alloc.addr pageAddr, by omega, by omega⟩

/-- The walk from the rounded start to the rounded end meets the pages that are touched. -/
theorem mem_coveredPages (kept : alloc.Kept)
    : pageAddr ∈ coveredPages alloc.addr alloc.size ↔ alloc.Touches pageAddr := by
  have large := kept.2
  rw [alloc.touches_iff kept, coveredPages, List.mem_range']
  constructor
  · rintro ⟨i, inside, rfl⟩
    have start : 4096 ∣ alloc.addr / 4096 * 4096 := Nat.dvd_mul_left 4096 _
    refine ⟨(Nat.dvd_add_right start).mpr (Nat.dvd_mul_right 4096 i), ?_, ?_⟩
    · omega
    · omega
  · rintro ⟨⟨page, rfl⟩, low, high⟩
    exact ⟨page - alloc.addr / 4096, by omega, by omega⟩

end

theorem coveredPages_ascending (addr size : Nat)
    : (coveredPages addr size).Pairwise (fun page later => page < later) :=
  List.pairwise_lt_range' _ (by decide)

/-- So it counts them. -/
theorem coveredPages_count {alloc : ProfAllocation} (kept : alloc.Kept)
    : (coveredPages alloc.addr alloc.size).length = {page | alloc.Touches page}.ncard := by
  have distinct : (coveredPages alloc.addr alloc.size).Nodup :=
    (coveredPages_ascending _ _).imp (fun less => Nat.ne_of_lt less)
  have same : {page | alloc.Touches page}
      = ((coveredPages alloc.addr alloc.size).toFinset : Set Nat) := by
    ext page
    simp [mem_coveredPages kept]
  rw [same, Set.ncard_coe_finset, List.toFinset_card_of_nodup distinct]

section
variable {F : Type} [PyFloat F]

-----------------------------------------------------------------------------------------
-- The loop over the pages
-----------------------------------------------------------------------------------------

omit [PyFloat F] in
/-- Pages with different addresses are found at their own. -/
theorem get?_pagePac {pages : List (ScoredPage F)}
    (distinct : (pages.map ScoredPage.pageAddr).Nodup) (pageAddr : Nat) (page : ScoredPage F)
    : (pagePac pages).get? pageAddr = some page
      ↔ page ∈ pages ∧ page.pageAddr = pageAddr := by
  have general (index : Dict Nat (ScoredPage F))
      : (pages.foldl (fun index page => index.upsert page.pageAddr (fun _ => page)) index).get?
            pageAddr = some page
        ↔ (page ∈ pages ∧ page.pageAddr = pageAddr)
          ∨ ((∀ other ∈ pages, other.pageAddr ≠ pageAddr)
            ∧ index.get? pageAddr = some page) := by
    induction pages generalizing index with
    | nil => simp
    | cons first rest ih =>
        obtain ⟨fresh, others⟩ := List.nodup_cons.mp distinct
        rw [List.foldl_cons, ih others, Dict.get?_upsert]
        by_cases own : first.pageAddr = pageAddr
        · have absent : ∀ other ∈ rest, other.pageAddr ≠ pageAddr := by
            intro other member same
            exact fresh (own ▸ same ▸ List.mem_map_of_mem member)
          rw [if_pos own]
          constructor
          · rintro (⟨member, same⟩ | ⟨_, found⟩)
            · exact .inl ⟨List.mem_cons_of_mem first member, same⟩
            · cases found
              exact .inl ⟨List.mem_cons_self, own⟩
          · rintro (⟨member, same⟩ | ⟨none, _⟩)
            · rcases List.mem_cons.mp member with rfl | later
              · exact .inr ⟨absent, rfl⟩
              · exact .inl ⟨later, same⟩
            · exact absurd own (none first List.mem_cons_self)
        · have notFirst : page ∈ first :: rest ∧ page.pageAddr = pageAddr
              ↔ page ∈ rest ∧ page.pageAddr = pageAddr :=
            and_congr_left (fun same => List.mem_cons.trans
              (or_iff_right (fun isFirst => own (isFirst ▸ same))))
          rw [if_neg own, notFirst, List.forall_mem_cons, and_iff_right own]
  refine (general .empty).trans (or_iff_left ?_)
  rintro ⟨_, found⟩
  cases found

/-- The scored pages of a walk, in its order. -/
def scoredOf (index : Dict Nat (ScoredPage F)) (covered : List Nat) : List (ScoredPage F) :=
  covered.filterMap index.get?

/-- The sum of the scores of some pages, in their order. -/
def sumPac (total : F) (pages : List (ScoredPage F)) : F :=
  pages.foldl (fun total page => PyFloat.add total page.pac) total

/-- What the loop has counted on a part of the walk. -/
structure PageTally.Counts (tally start : PageTally F) (pages : List (ScoredPage F)) : Prop where
  totalPac : tally.totalPac = sumPac start.totalPac pages
  totalAccess : tally.totalAccess = start.totalAccess + (pages.map ScoredPage.accessCount).sum
  tiers : tally.hotPages + tally.coldPages ≤ start.hotPages + start.coldPages + pages.length

theorem PageTally.Counts.trans {tally middle start : PageTally F}
    {front back : List (ScoredPage F)} (first : middle.Counts start front)
    (next : tally.Counts middle back)
    : tally.Counts start (front ++ back) where
  totalPac := by
    rw [next.totalPac, first.totalPac, sumPac, sumPac, sumPac, List.foldl_append]
  totalAccess := by
    rw [next.totalAccess, first.totalAccess, List.map_append, List.sum_append, Nat.add_assoc]
  tiers := by
    have front := first.tiers
    have back := next.tiers
    rw [List.length_append]
    omega

/-- A page without a score changes no sum, and a scored one counts in at most one tier. -/
theorem PageTally.step_counts (index : Dict Nat (ScoredPage F)) (tally : PageTally F)
    (pageAddr : Nat)
    : (PageTally.step index tally pageAddr).Counts tally (index.get? pageAddr).toList := by
  unfold PageTally.step
  dsimp only
  cases index.get? pageAddr with
  | none => exact ⟨rfl, rfl, Nat.le_refl _⟩
  | some page =>
      refine ⟨rfl, rfl, ?_⟩
      dsimp only [Option.toList, List.length_singleton]
      cases page.tier with
      | hot =>
          rw [if_pos rfl, if_neg (by decide)]
          omega
      | warm =>
          rw [if_neg (by decide), if_neg (by decide)]
          omega
      | cold =>
          rw [if_neg (by decide), if_pos rfl]
          omega

theorem PageTally.foldl_counts (index : Dict Nat (ScoredPage F)) (covered : List Nat)
    (tally : PageTally F)
    : (covered.foldl (PageTally.step index) tally).Counts tally (scoredOf index covered) := by
  induction covered generalizing tally with
  | nil => exact ⟨rfl, rfl, Nat.le_refl _⟩
  | cons pageAddr covered ih =>
      have parts : scoredOf index (pageAddr :: covered)
          = (index.get? pageAddr).toList ++ scoredOf index covered := by
        rw [scoredOf, List.filterMap_cons]
        cases index.get? pageAddr with
        | none => rfl
        | some page => rfl
      rw [parts, List.foldl_cons]
      exact (tally.step_counts index pageAddr).trans (ih _)

-----------------------------------------------------------------------------------------
-- The scored pages of an allocation
-----------------------------------------------------------------------------------------

instance (alloc : ProfAllocation) (pageAddr : Nat) : Decidable (alloc.Touches pageAddr) :=
  decidable_of_iff
    (4096 ∣ pageAddr ∧ pageAddr < alloc.addr + alloc.size
      ∧ alloc.addr < pageAddr + 4096 ∧ 0 < alloc.size)
    ⟨fun ⟨aligned, low, high, occupied⟩ =>
        ⟨aligned, max alloc.addr pageAddr, by omega, by omega⟩,
      fun ⟨aligned, byte, inBlock, inPage⟩ =>
        ⟨aligned, by omega, by omega, by omega⟩⟩

/-- The scored pages that an allocation touches. -/
def touchedPages (pages : List (ScoredPage F)) (alloc : ProfAllocation) : List (ScoredPage F) :=
  pages.filter (fun page => alloc.Touches page.pageAddr)

section
variable {pages : List (ScoredPage F)} {alloc : ProfAllocation}

omit [PyFloat F] in
theorem mem_scoredOf (distinct : (pages.map ScoredPage.pageAddr).Nodup) (kept : alloc.Kept)
    (page : ScoredPage F)
    : page ∈ scoredOf (pagePac pages) (coveredPages alloc.addr alloc.size)
      ↔ page ∈ touchedPages pages alloc := by
  rw [scoredOf, List.mem_filterMap, touchedPages, List.mem_filter]
  simp only [get?_pagePac distinct, mem_coveredPages kept, decide_eq_true_eq]
  constructor
  · rintro ⟨pageAddr, touched, member, rfl⟩
    exact ⟨member, touched⟩
  · rintro ⟨member, touched⟩
    exact ⟨page.pageAddr, touched, member, rfl⟩

omit [PyFloat F] in
/-- The walk meets them in ascending order. -/
theorem scoredOf_ascending (distinct : (pages.map ScoredPage.pageAddr).Nodup)
    (alloc : ProfAllocation)
    : (scoredOf (pagePac pages) (coveredPages alloc.addr alloc.size)).Pairwise
        (fun page later => page.pageAddr < later.pageAddr) := by
  refine List.Pairwise.filterMap _ ?_ (coveredPages_ascending alloc.addr alloc.size)
  intro first second less page found later foundLater
  rw [((get?_pagePac distinct _ _).mp found).2, ((get?_pagePac distinct _ _).mp foundLater).2]
  exact less

omit [PyFloat F] in
theorem scoredOf_perm (distinct : (pages.map ScoredPage.pageAddr).Nodup) (kept : alloc.Kept)
    : (scoredOf (pagePac pages) (coveredPages alloc.addr alloc.size)).Perm
        (touchedPages pages alloc) := by
  refine (List.perm_ext_iff_of_nodup ?_ ?_).mpr (mem_scoredOf distinct kept)
  · refine (scoredOf_ascending distinct alloc).imp ?_
    rintro page later less rfl
    exact Nat.lt_irrefl _ less
  · exact (List.Nodup.of_map _ distinct).filter _

end

-----------------------------------------------------------------------------------------
-- The records
-----------------------------------------------------------------------------------------

/-- A reading of floats as numbers, with sums as they are on paper. -/
structure ExactSums (value : F → ℚ) : Prop where
  zero : value (PyFloat.ofNat 0) = 0
  add : ∀ x y, value (PyFloat.add x y) = value x + value y

/-- What the record of an allocation has to say about it and about the pages that it touches. -/
structure Correlates (pages : List (ScoredPage F)) (alloc : ProfAllocation)
    (record : AllocPac F)
    : Prop where
  callerSym : record.callerSym = alloc.callerSym
  callerAddr : record.callerAddr = alloc.callerAddr
  size : record.size = alloc.size
  addr : record.addr = alloc.addr
  totalPages : record.totalPages = {page | alloc.Touches page}.ncard
  totalAccess
    : record.totalAccess = ((touchedPages pages alloc).map ScoredPage.accessCount).sum
  totalPac
    : ∀ value : F → ℚ,
        ExactSums value
        → value record.totalPac
          = ((touchedPages pages alloc).map (fun page => value page.pac)).sum
  /-- Also of floats that round: the sum is taken page by page, in ascending order. -/
  rounded
    : ∃ run : List (ScoredPage F),
        run.Perm (touchedPages pages alloc)
        ∧ run.Pairwise (fun page later => page.pageAddr < later.pageAddr)
        ∧ record.totalPac = sumPac (PyFloat.ofNat 0) run
  tiers : record.hotPages + record.coldPages ≤ record.totalPages

theorem sumPac_exact {value : F → ℚ} (exact : ExactSums value) (total : F)
    (pages : List (ScoredPage F))
    : value (sumPac total pages) = value total + (pages.map (fun page => value page.pac)).sum := by
  induction pages generalizing total with
  | nil => exact (add_zero _).symm
  | cons page pages ih =>
      have next : sumPac total (page :: pages) = sumPac (PyFloat.add total page.pac) pages := rfl
      rw [next, ih, exact.add, List.map_cons, List.sum_cons, add_assoc]

/-- The tally of an allocation has the sums over its scored pages. -/
theorem tallyPages_counts (pages : List (ScoredPage F)) (alloc : ProfAllocation)
    : (tallyPages (pagePac pages) alloc.addr alloc.size).Counts
        { totalPac := PyFloat.ofNat 0 }
        (scoredOf (pagePac pages) (coveredPages alloc.addr alloc.size)) :=
  PageTally.foldl_counts _ _ _

/-- An allocation that is looked at has a record, and it says what it has to. -/
theorem correlate_kept {pages : List (ScoredPage F)}
    (distinct : (pages.map ScoredPage.pageAddr).Nodup) {alloc : ProfAllocation}
    (kept : alloc.Kept)
    : ∃ record, correlate (pagePac pages) alloc = some record
      ∧ Correlates pages alloc record := by
  obtain ⟨record, given⟩ := Option.isSome_iff_exists.mp
    ((correlate_isSome (pagePac pages) alloc).mpr kept)
  refine ⟨record, given, ?_⟩
  have counts := tallyPages_counts pages alloc
  have perm := scoredOf_perm distinct kept
  have walked := tallyPages_totalPages (pagePac pages) alloc.addr alloc.size
  have few : (scoredOf (pagePac pages) (coveredPages alloc.addr alloc.size)).length
      ≤ (coveredPages alloc.addr alloc.size).length :=
    List.length_filterMap_le _ _
  have tiers : (tallyPages (pagePac pages) alloc.addr alloc.size).hotPages
        + (tallyPages (pagePac pages) alloc.addr alloc.size).coldPages
      ≤ (tallyPages (pagePac pages) alloc.addr alloc.size).totalPages := by
    have counted := counts.tiers
    dsimp only at counted
    omega
  unfold correlate at given
  rw [if_neg kept.1, dif_pos kept.2] at given
  dsimp only at given
  split at given
  · cases given
  · cases given
    constructor
    case callerSym => rfl
    case callerAddr => rfl
    case size => rfl
    case addr => rfl
    case totalPages => exact walked.trans (coveredPages_count kept)
    case totalAccess =>
      rw [counts.totalAccess, (perm.map ScoredPage.accessCount).sum_eq]
      exact Nat.zero_add _
    case totalPac =>
      intro value exact
      rw [counts.totalPac, sumPac_exact exact, exact.zero, zero_add]
      exact (perm.map (fun page => value page.pac)).sum_eq
    case rounded => exact ⟨_, perm, scoredOf_ascending distinct alloc, counts.totalPac⟩
    case tiers => exact tiers

/-- One record for each allocation that is looked at, in the order of the log. -/
theorem crossCorrelate_forall₂ {pages : List (ScoredPage F)}
    (distinct : (pages.map ScoredPage.pageAddr).Nodup) (allocations : List ProfAllocation)
    : List.Forall₂ (Correlates pages) (allocations.filter ProfAllocation.Kept)
        (crossCorrelate pages allocations) := by
  induction allocations with
  | nil => exact .nil
  | cons alloc allocations ih =>
      rw [crossCorrelate] at ih ⊢
      by_cases kept : alloc.Kept
      · obtain ⟨record, given, correlates⟩ := correlate_kept distinct kept
        rw [List.filter_cons_of_pos (by exact decide_eq_true kept), List.filterMap_cons_some given]
        exact .cons correlates ih
      · have skipped : correlate (pagePac pages) alloc = none := by
          rw [← Option.not_isSome_iff_eq_none, correlate_isSome]
          exact kept
        rw [List.filter_cons_of_neg (by simpa using kept), List.filterMap_cons_none skipped]
        exact ih

theorem totalAccess_of_correlates {pages : List (ScoredPage F)}
    {allocations : List ProfAllocation} {records : List (AllocPac F)}
    (correlates : List.Forall₂ (Correlates pages) allocations records)
    : records.map AllocPac.totalAccess
      = allocations.map
          (fun alloc => ((touchedPages pages alloc).map ScoredPage.accessCount).sum) := by
  induction correlates with
  | nil => rfl
  | cons first _ ih => rw [List.map_cons, List.map_cons, first.totalAccess, ih]

/-- `cross_correlate` gives every allocation that it looks at the sums over the pages that the
allocation touches. Allocations without a common page share out the accesses.
-/
theorem crossCorrelate_correlates {pages : List (ScoredPage F)}
    (distinct : (pages.map ScoredPage.pageAddr).Nodup) (allocations : List ProfAllocation)
    : List.Forall₂ (Correlates pages) (allocations.filter ProfAllocation.Kept)
        (crossCorrelate pages allocations)
      ∧ ((allocations.filter ProfAllocation.Kept).Pairwise
          (fun alloc other => ∀ page, ¬ (alloc.Touches page ∧ other.Touches page))
        → ((crossCorrelate pages allocations).map AllocPac.totalAccess).sum
          ≤ (pages.map ScoredPage.accessCount).sum) := by
  have records := crossCorrelate_forall₂ distinct allocations
  refine ⟨records, fun apart => ?_⟩
  rw [totalAccess_of_correlates records]
  refine sum_filters_le ScoredPage.accessCount (apart.imp ?_) pages
  intro alloc other disjoint page both
  exact disjoint page.pageAddr ⟨of_decide_eq_true both.1, of_decide_eq_true both.2⟩

end

/-- Three scored pages and one that no allocation touches. -/
def somePages : List (ScoredPage ℚ) :=
  [⟨0x11000, 40, 300, .hot⟩, ⟨0x10000, 7, 20, .cold⟩, ⟨0x13000, 2, 100, .warm⟩,
    ⟨0x90000, 1000, 500, .hot⟩]

def logged (addr : Nat) (size : Fin (2 ^ 64)) (entryType : Int) : ProfAllocation :=
  ⟨['f'], 0x400ab0, 10, size, addr, entryType, List.forall_mem_singleton.mpr rfl, size.isLt⟩

/-- A block across three pages, a small block, a freed one and the page behind them. -/
def someLog : List ProfAllocation :=
  [logged 0x10f00 0x1200 1, logged 0x11000 64 1, logged 0x11000 0x1000 0,
    logged 0x13000 0x1000 100]

theorem crossCorrelate_correlates_someLog
    : List.Forall₂ (Correlates somePages) (someLog.filter ProfAllocation.Kept)
        (crossCorrelate somePages someLog)
      ∧ ((someLog.filter ProfAllocation.Kept).Pairwise
          (fun alloc other => ∀ page, ¬ (alloc.Touches page ∧ other.Touches page))
        → ((crossCorrelate somePages someLog).map AllocPac.totalAccess).sum
          ≤ (somePages.map ScoredPage.accessCount).sum) :=
  crossCorrelate_correlates (by decide) someLog

example : (crossCorrelate somePages someLog).map (fun record => record.totalPages) = [3, 1] := by
  decide

end Kumf.PacToInterc
