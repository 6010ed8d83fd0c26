import Kumf.Library.Stretches
import Kumf.PacToInterc.PagePac

/-! `aggregate_page_ranges`: the pages of each tier, sorted and merged into ranges. The merging
loop refines a cut of the sorted pages into stretches.
-/

namespace Kumf.PacToInterc

open Kumf.Library PyText

/-- An entry of the list that `aggregate_page_ranges` returns; `stop` is its `end`. -/
structure PageRange (F : Type) where
  start : Int
  stop : Int
  tier : List Char
  pageCount : Nat
  totalAccess : Int
  avgPac : F
  ordered : start ≤ stop
  deriving DecidableEq, Repr

/-- The variables of the merging loop: a range of whole pages that may still grow. -/
structure OpenRange (F : Type) where
  start : Int
  stop : Int
  pageCount : Nat
  totalAccess : Int
  totalPac : F
  extent : stop = start + 4096 * pageCount

section
variable {F : Type} [PyFloat F]

omit [PyFloat F] in
def OpenRange.begin (page : PageRecord F) : OpenRange F where
  start := page.pageAddr
  stop := page.pageAddr + 0x1000
  pageCount := 1
  totalAccess := page.accessCount
  totalPac := page.pac
  extent := rfl

/-- The branch for a page that lies right behind the range. -/
def OpenRange.extend (range : OpenRange F) (page : PageRecord F) : OpenRange F where
  start := range.start
  stop := range.stop + 0x1000
  pageCount := range.pageCount + 1
  totalAccess := range.totalAccess + page.accessCount
  totalPac := PyFloat.add range.totalPac page.pac
  extent := by
    rw [range.extent]
    omega

omit [PyFloat F] in
def OpenRange.close (range : OpenRange F) (tier : List Char) (avgPac : F) : PageRange F where
  start := range.start
  stop := range.stop
  tier
  pageCount := range.pageCount
  totalAccess := range.totalAccess
  avgPac
  ordered := by
    rw [range.extent]
    omega

/-- The loop over the pages of a tier behind the first one, and the range left at its end. -/
def mergePages (tier : List Char) (range : OpenRange F)
    : List (PageRecord F) → List (PageRange F)
  | [] =>
      [range.close tier
        (if 0 < range.pageCount then PyFloat.divide range.totalPac range.pageCount
          else PyFloat.ofNat 0)]
  | page :: rest =>
      if page.pageAddr = range.stop then
        mergePages tier (range.extend page) rest
      else
        range.close tier (PyFloat.divide range.totalPac range.pageCount)
          :: mergePages tier (.begin page) rest

/-- `tier_pages.sort(key=lambda x: x['page_addr'])` -/
def sortPages (tierPages : List (PageRecord F)) : List (PageRecord F) :=
  tierPages.insertionSort (fun page other => page.pageAddr ≤ other.pageAddr)

/-- The body of the loop over the tiers. -/
def tierRanges (tier : List Char) (tierPages : List (PageRecord F)) : List (PageRange F) :=
  match sortPages tierPages with
  | [] => []
  | page :: rest => mergePages tier (.begin page) rest

/-- `by_tier` -/
def byTier (pages : List (PageRecord F)) : Dict (List Char) (List (PageRecord F)) :=
  Dict.collect (fun tierPages page => tierPages ++ [page]) [] .empty
    (pages.map (fun page => (page.tier, page)))

/-- `aggregate_page_ranges` -/
def aggregatePageRanges (pages : List (PageRecord F)) : List (PageRange F) :=
  if pages.isEmpty then
    []
  else
    (byTier pages).entries.flatMap (fun (tier, tierPages) => tierRanges tier tierPages)

-----------------------------------------------------------------------------------------
-- The loop cuts the sorted pages into stretches
-----------------------------------------------------------------------------------------

/-- The average over a run of pages, the sum taken in its order. -/
def averagePac : List (PageRecord F) → F
  | [] => PyFloat.ofNat 0
  | first :: rest =>
      PyFloat.divide (rest.foldl (fun total page => PyFloat.add total page.pac) first.pac)
        (rest.length + 1)

/-- The range that a run of pages is. -/
def rangeOfRun (tier : List Char) (run : List (PageRecord F)) : PageRange F where
  start := (run.head?.map PageRecord.pageAddr).getD 0
  stop := (run.head?.map PageRecord.pageAddr).getD 0 + 4096 * run.length
  tier
  pageCount := run.length
  totalAccess := (run.map PageRecord.accessCount).sum
  avgPac := averagePac run
  ordered := by omega

/-- The runs of pages in a sorted list. -/
def pageRuns (pages : List (PageRecord F)) : List (List (PageRecord F)) :=
  stretches PageRecord.pageAddr 4096 pages

/-- The variables of the loop are those of a run that it has gone through. -/
structure OpenRange.Gathers (range : OpenRange F) (first : PageRecord F)
    (rest : List (PageRecord F))
    : Prop where
  start : range.start = first.pageAddr
  pageCount : range.pageCount = rest.length + 1
  totalAccess : range.totalAccess = ((first :: rest).map PageRecord.accessCount).sum
  totalPac
    : range.totalPac = rest.foldl (fun total page => PyFloat.add total page.pac) first.pac

section
variable {range : OpenRange F} {first page last : PageRecord F} {rest : List (PageRecord F)}

/-- A range begins with its first page. -/
theorem OpenRange.gathers_begin (page : PageRecord F) : (OpenRange.begin page).Gathers page [] where
  start := rfl
  pageCount := rfl
  totalAccess := (Int.add_zero _).symm
  totalPac := rfl

/-- A range takes in one page more. -/
theorem OpenRange.Gathers.extend (gathers : range.Gathers first rest) (page : PageRecord F)
    : (range.extend page).Gathers first (rest ++ [page]) where
  start := gathers.start
  pageCount := by
    change range.pageCount + 1 = _
    rw [gathers.pageCount, List.length_append, List.length_singleton]
  totalAccess := by
    change range.totalAccess + page.accessCount = _
    rw [gathers.totalAccess, ← List.cons_append, List.map_append, List.sum_append,
      List.map_singleton, List.sum_singleton]
  totalPac := by
    change PyFloat.add range.totalPac page.pac = _
    rw [gathers.totalPac, List.foldl_append]
    rfl

/-- A closed range is that of the run of its pages. -/
theorem OpenRange.Gathers.close (gathers : range.Gathers first rest) (tier : List Char)
    : range.close tier (PyFloat.divide range.totalPac range.pageCount)
      = rangeOfRun tier (first :: rest) := by
  have extent := range.extent
  rw [gathers.start, gathers.pageCount] at extent
  unfold OpenRange.close rangeOfRun averagePac
  simp only [extent, gathers.start, gathers.pageCount, gathers.totalAccess, gathers.totalPac]
  rfl

/-- The loop turns the run that it stands in, and those ahead, into ranges. The induction is on
the pages ahead.
-/
theorem mergePages_eq (tier : List Char) {ahead : List (PageRecord F)}
    (gathers : range.Gathers first rest)
    (chain : (first :: rest).IsChain (fun a b => follows PageRecord.pageAddr 4096 a b))
    (ends : (first :: rest).getLast? = some last) (stop : range.stop = last.pageAddr + 4096)
    : mergePages tier range ahead
      = (pageRuns (first :: rest ++ ahead)).map (rangeOfRun tier) := by
  induction ahead generalizing range first rest last with
  | nil =>
      have counted : 0 < range.pageCount := by
        rw [gathers.pageCount]
        exact Nat.succ_pos _
      rw [mergePages, if_pos counted, gathers.close, List.append_nil, pageRuns,
        stretches_chain (List.cons_ne_nil _ _) chain]
      rfl
  | cons page ahead ih =>
      rw [mergePages]
      split
      case isTrue next =>
          have follow : follows PageRecord.pageAddr 4096 last page = true :=
            decide_eq_true (next.trans stop)
          have longer : (range.extend page).stop = page.pageAddr + 4096 :=
            congrArg (fun stop => stop + 4096) next.symm
          rw [ih (gathers.extend page) (chain_concat chain ends follow)
            (by rw [← List.cons_append, List.getLast?_concat]) longer, List.cons_append,
            List.cons_append, List.append_assoc]
          rfl
      case isFalse gap =>
          have apart : follows PageRecord.pageAddr 4096 last page = false :=
            decide_eq_false (fun next => gap (next.trans stop.symm))
          rw [ih (OpenRange.gathers_begin page) (.singleton page) rfl rfl, gathers.close, pageRuns,
            pageRuns, stretches_gap chain ends apart]
          rfl

/-- The ranges of a tier are the runs of its sorted pages. -/
theorem tierRanges_eq (tier : List Char) (tierPages : List (PageRecord F))
    : tierRanges tier tierPages = (pageRuns (sortPages tierPages)).map (rangeOfRun tier) := by
  unfold tierRanges
  split
  case h_1 empty =>
      rw [empty]
      rfl
  case h_2 page rest sorted =>
      rw [mergePages_eq tier (OpenRange.gathers_begin page) (.singleton page) rfl rfl, sorted]
      rfl

end

-----------------------------------------------------------------------------------------
-- The ranges of one tier
-----------------------------------------------------------------------------------------

omit [PyFloat F] in
/-- An address lies in a range. -/
def PageRange.Contains (range : PageRange F) (address : Int) : Prop :=
  range.start ≤ address ∧ address < range.stop

/-- An exact reading of floats, with sums and quotients as they are on paper. -/
structure ExactReading (value : F → ℚ) : Prop where
  add : ∀ x y, value (PyFloat.add x y) = value x + value y
  divide : ∀ x, ∀ n : Nat, value (PyFloat.divide x n) = value x / n

/-- What the ranges of a tier have to do with its pages. -/
structure MergesTier (pages : List (PageRecord F)) (ranges : List (PageRange F)) : Prop where
  disjoint
    : ranges.Pairwise (fun range other => ∀ a, ¬ (range.Contains a ∧ other.Contains a))
  cover
    : ∀ a,
        (∃ range ∈ ranges, range.Contains a)
        ↔ ∃ page ∈ pages, page.pageAddr ≤ a ∧ a < page.pageAddr + 4096
  maximal : ∀ range ∈ ranges, ∀ other ∈ ranges, range.stop ≠ other.start
  extent : ∀ range ∈ ranges, range.stop - range.start = 4096 * range.pageCount
  pageCounts : (ranges.map PageRange.pageCount).sum = pages.length
  accesses : (ranges.map PageRange.totalAccess).sum = (pages.map PageRecord.accessCount).sum
  pacs
    : ∀ value : F → ℚ,
        ExactReading value
        → (ranges.map (fun range => range.pageCount * value range.avgPac)).sum
          = (pages.map (fun page => value page.pac)).sum
  /-- Also of floats that round: an average is that of the pages inside, in ascending order. -/
  averages
    : ∀ range ∈ ranges,
        ∃ run,
          (∀ page, page ∈ run ↔ page ∈ pages ∧ range.Contains page.pageAddr)
          ∧ run.Pairwise (fun page later => page.pageAddr < later.pageAddr)
          ∧ range.avgPac = averagePac run

/-- Pages of 4096 bytes, each listed once. -/
structure Aligned (pages : List (PageRecord F)) : Prop where
  aligned : ∀ page ∈ pages, 4096 ∣ page.pageAddr
  distinct : (pages.map PageRecord.pageAddr).Nodup

section
variable {pages : List (PageRecord F)}

omit [PyFloat F] in
theorem sortPages_perm (pages : List (PageRecord F)) : (sortPages pages).Perm pages :=
  List.perm_insertionSort _ pages

omit [PyFloat F] in
/-- Some of the pages are aligned, too. -/
theorem Aligned.filter (aligned : Aligned pages) (keep : PageRecord F → Bool)
    : Aligned (pages.filter keep) where
  aligned page member := aligned.aligned page (List.mem_of_mem_filter member)
  distinct := (List.filter_sublist.map _).nodup aligned.distinct

omit [PyFloat F] in
/-- Sorted, aligned pages do not overlap. -/
theorem Aligned.spaced (aligned : Aligned pages)
    : Apart PageRecord.pageAddr 4096 (sortPages pages) := by
  have sorted : (sortPages pages).Pairwise (fun page other => page.pageAddr ≤ other.pageAddr) :=
    pairwise_sortedBy PageRecord.pageAddr pages
  have distinct : ((sortPages pages).map PageRecord.pageAddr).Nodup :=
    ((sortPages_perm pages).map _).nodup_iff.mpr aligned.distinct
  refine (sorted.and (List.pairwise_map.mp distinct)).imp_of_mem ?_
  intro page other member otherMember ⟨le, ne⟩
  have divides := aligned.aligned page ((sortPages_perm pages).mem_iff.mp member)
  have otherDivides := aligned.aligned other ((sortPages_perm pages).mem_iff.mp otherMember)
  omega

omit [PyFloat F] in
/-- Sorting forgets the order in which the pages came. -/
theorem Aligned.sortPages_eq {other : List (PageRecord F)} (aligned : Aligned pages)
    (same : other.Perm pages)
    : sortPages other = sortPages pages := by
  have otherAligned : Aligned other :=
    ⟨fun page member => aligned.aligned page (same.mem_iff.mp member),
      (same.map _).nodup_iff.mpr aligned.distinct⟩
  refine List.Perm.eq_of_pairwise ?_ otherAligned.spaced aligned.spaced
    ((sortPages_perm other).trans (same.trans (sortPages_perm pages).symm))
  intro page later _ _ before behind
  omega

/-- The range of a run has the addresses of its pages. -/
theorem rangeOfRun_contains (tier : List Char) {run : List (PageRecord F)}
    (member : run ∈ pageRuns pages) (a : Int)
    : (rangeOfRun tier run).Contains a ↔ Covered PageRecord.pageAddr 4096 run a := by
  have chain := List.isChain_of_mem_splitBy member
  obtain ⟨first, rest, rfl⟩ :=
    List.exists_cons_of_ne_nil (List.ne_nil_of_mem_splitBy member)
  exact (covered_chain (by decide) chain a).symm

/-- The range of a run is as long as its pages together. -/
theorem rangeOfRun_extent (tier : List Char) (run : List (PageRecord F))
    : (rangeOfRun tier run).stop = (rangeOfRun tier run).start + 4096 * run.length :=
  rfl

/-- The range of a run is not empty. -/
theorem rangeOfRun_lt (tier : List Char) {run : List (PageRecord F)}
    (member : run ∈ pageRuns pages)
    : (rangeOfRun tier run).start < (rangeOfRun tier run).stop := by
  have counted := List.length_pos_iff.mpr (List.ne_nil_of_mem_splitBy member)
  have extent := rangeOfRun_extent tier run
  omega

/-- Between two ranges of a tier there is a gap. -/
theorem Aligned.apart (aligned : Aligned pages) (tier : List Char)
    : ((pageRuns (sortPages pages)).map (rangeOfRun tier)).Pairwise
        (fun range later => range.stop < later.start) := by
  refine List.pairwise_map.mpr ((stretches_apart (by decide) aligned.spaced).imp_of_mem ?_)
  intro run later member laterMember apart
  have nonempty := rangeOfRun_lt tier member
  have laterNonempty := rangeOfRun_lt tier laterMember
  obtain ⟨page, inRun, before⟩ :=
    (rangeOfRun_contains tier member ((rangeOfRun tier run).stop - 1)).mp ⟨by omega, by omega⟩
  obtain ⟨other, inLater, behind⟩ :=
    (rangeOfRun_contains tier laterMember (rangeOfRun tier later).start).mp ⟨by omega, by omega⟩
  have gap := apart page inRun other inLater
  omega

/-- An exact average times the number of pages is their sum. -/
theorem ExactReading.averagePac {value : F → ℚ} (exact : ExactReading value)
    {run : List (PageRecord F)} (nonempty : run ≠ [])
    : run.length * value (averagePac run) = (run.map (fun page => value page.pac)).sum := by
  obtain ⟨first, rest, rfl⟩ := List.exists_cons_of_ne_nil nonempty
  have total (start : F)
      : value (rest.foldl (fun total page => PyFloat.add total page.pac) start)
        = value start + (rest.map (fun page => value page.pac)).sum := by
    induction rest generalizing start with
    | nil => simp
    | cons page rest ih =>
        rw [List.foldl_cons, ih (List.cons_ne_nil _ _), exact.add, List.map_cons, List.sum_cons,
          add_assoc]
  have counted : ((rest.length + 1 : Nat) : ℚ) ≠ 0 := by
    rw [Nat.cast_ne_zero]
    exact Nat.succ_ne_zero _
  rw [PacToInterc.averagePac, exact.divide, total, List.map_cons, List.sum_cons, List.length_cons]
  exact mul_div_cancel₀ _ counted

/-- No range ends where another one starts, whichever of them comes first. -/
theorem Aligned.maximal (aligned : Aligned pages) (tier : List Char)
    : ∀ range ∈ (pageRuns (sortPages pages)).map (rangeOfRun tier),
        ∀ other ∈ (pageRuns (sortPages pages)).map (rangeOfRun tier),
          range.stop ≠ other.start := by
  have proper : ∀ range ∈ (pageRuns (sortPages pages)).map (rangeOfRun tier),
      range.start < range.stop :=
    List.forall_mem_map.mpr (fun run member => rangeOfRun_lt tier member)
  have symmetric : Std.Symm (fun range other : PageRange F =>
      range.stop ≠ other.start ∧ other.stop ≠ range.start) := ⟨fun _ _ both => both.symm⟩
  have touching : ((pageRuns (sortPages pages)).map (rangeOfRun tier)).Pairwise
      (fun range other => range.stop ≠ other.start ∧ other.stop ≠ range.start) := by
    refine (aligned.apart tier).imp_of_mem (fun member otherMember gap => ?_)
    have nonempty := proper _ member
    have otherNonempty := proper _ otherMember
    exact ⟨by omega, by omega⟩
  intro range member other otherMember
  refine (touching.forall_of_forall (fun range member => ?_) member otherMember).1
  have nonempty := proper range member
  exact ⟨by omega, by omega⟩

/-- The ranges cover what the pages cover. -/
theorem pageRuns_cover (tier : List Char) (pages : List (PageRecord F)) (a : Int)
    : (∃ range ∈ (pageRuns (sortPages pages)).map (rangeOfRun tier), range.Contains a)
      ↔ Covered PageRecord.pageAddr 4096 pages a := by
  have perm := sortPages_perm pages
  constructor
  · rintro ⟨range, member, inside⟩
    obtain ⟨run, inRuns, rfl⟩ := List.mem_map.mp member
    obtain ⟨page, inRun, on⟩ := (rangeOfRun_contains tier inRuns a).mp inside
    exact ⟨page, perm.mem_iff.mp (mem_of_stretches inRuns inRun), on⟩
  · rintro ⟨page, member, on⟩
    obtain ⟨run, inRuns, inRun⟩ :=
      exists_stretch PageRecord.pageAddr 4096 (perm.mem_iff.mpr member)
    exact ⟨_, List.mem_map_of_mem inRuns,
      (rangeOfRun_contains tier inRuns a).mpr ⟨page, inRun, on⟩⟩

/-- A run has all the pages that start in its range. -/
theorem Aligned.mem_run (aligned : Aligned pages) (tier : List Char)
    {run : List (PageRecord F)} (member : run ∈ pageRuns (sortPages pages))
    (page : PageRecord F)
    : page ∈ run ↔ page ∈ pages ∧ (rangeOfRun tier run).Contains page.pageAddr := by
  have perm := sortPages_perm pages
  constructor
  · intro inRun
    have listed := mem_of_stretches member inRun
    exact ⟨perm.mem_iff.mp listed, (rangeOfRun_contains tier member _).mpr
      ⟨page, inRun, by omega⟩⟩
  · rintro ⟨listed, inside⟩
    obtain ⟨other, inRun, on⟩ := (rangeOfRun_contains tier member _).mp inside
    have otherListed := perm.mem_iff.mp (mem_of_stretches member inRun)
    -- Aligned pages of which one starts on the other are one page.
    have divides := aligned.aligned page listed
    have otherDivides := aligned.aligned other otherListed
    have same : other = page :=
      List.inj_on_of_nodup_map aligned.distinct otherListed listed (by omega)
    exact same ▸ inRun

omit [PyFloat F] in
/-- The pages of a run are in order. -/
theorem Aligned.run_ascending (aligned : Aligned pages) {run : List (PageRecord F)}
    (member : run ∈ pageRuns (sortPages pages))
    : run.Pairwise (fun page later => page.pageAddr < later.pageAddr) := by
  have part : run.Sublist (sortPages pages) := by
    rw [← flatten_stretches PageRecord.pageAddr 4096 (sortPages pages)]
    exact List.sublist_flatten_of_mem member
  exact (aligned.spaced.sublist part).imp (fun apart => by omega)

/-- The ranges of a tier merge its pages. -/
theorem Aligned.tierRanges_merges (aligned : Aligned pages) (tier : List Char)
    : MergesTier pages (tierRanges tier pages) := by
  rw [tierRanges_eq]
  have perm := sortPages_perm pages
  constructor
  case disjoint =>
      refine (aligned.apart tier).imp (fun gap a both => ?_)
      have inFirst := both.1.2
      have inSecond := both.2.1
      omega
  case cover => exact pageRuns_cover tier pages
  case maximal => exact aligned.maximal tier
  case extent =>
      refine List.forall_mem_map.mpr (fun run _ => ?_)
      rw [rangeOfRun_extent, add_sub_cancel_left]
      rfl
  case pageCounts =>
      have whole : (sortPages pages).length
          = ((pageRuns (sortPages pages)).map List.length).sum := by
        rw [← List.length_flatten, pageRuns, flatten_stretches]
      rw [List.map_map, ← perm.length_eq, whole]
      rfl
  case accesses =>
      rw [List.map_map, ← (perm.map PageRecord.accessCount).sum_eq,
        ← sum_stretches PageRecord.pageAddr 4096]
      rfl
  case pacs =>
      intro value exact
      rw [List.map_map, ← (perm.map (fun page => value page.pac)).sum_eq,
        ← sum_stretches PageRecord.pageAddr 4096]
      refine congrArg List.sum (List.map_congr_left (fun run member => ?_))
      exact exact.averagePac (List.ne_nil_of_mem_splitBy member)
  case averages =>
      exact List.forall_mem_map.mpr (fun run member =>
        ⟨run, aligned.mem_run tier member, aligned.run_ascending member, rfl⟩)

end

-----------------------------------------------------------------------------------------
-- All tiers
-----------------------------------------------------------------------------------------

/-- The ranges of a tier bear its name. -/
theorem tier_of_tierRanges {tier : List Char} {pages : List (PageRecord F)}
    : ∀ range ∈ tierRanges tier pages, range.tier = tier := by
  rw [tierRanges_eq]
  exact List.forall_mem_map.mpr (fun _ _ => rfl)

omit [PyFloat F] in
/-- The pages that a tier has in `by_tier`. -/
theorem get?_byTier (pages : List (PageRecord F)) (tier : List Char)
    : (byTier pages).get? tier
      = if (pages.filter (fun page => page.tier = tier)).isEmpty then none
        else some (pages.filter (fun page => page.tier = tier)) := by
  have values : Dict.valuesAt tier (pages.map (fun page => (page.tier, page)))
      = pages.filter (fun page => page.tier = tier) := by
    rw [Dict.valuesAt, List.filterMap_map, ← List.filterMap_eq_filter]
    refine congrArg (fun keep => List.filterMap keep pages) (funext fun page => ?_)
    simp [Option.guard]
  have gathered (tierPages : List (PageRecord F))
      : tierPages.foldl (fun tierPages page => tierPages ++ [page]) [] = tierPages := by
    rw [List.foldl_append_eq_append, List.nil_append]
    exact List.flatMap_singleton' tierPages
  rw [byTier, Dict.get?_collect_empty, Dict.total, values, gathered]

/-- The ranges of a tier in the result are those of its pages. -/
theorem filter_aggregatePageRanges (pages : List (PageRecord F)) (tier : List Char)
    : (aggregatePageRanges pages).filter (fun range => range.tier = tier)
      = tierRanges tier (pages.filter (fun page => page.tier = tier)) := by
  unfold aggregatePageRanges
  split
  case isTrue none =>
      rw [List.isEmpty_iff.mp none]
      rfl
  case isFalse =>
      rw [Dict.filter_flatMap_entries (fun entry => tier_of_tierRanges), get?_byTier]
      split
      case isTrue none =>
          rw [List.isEmpty_iff.mp none]
          rfl
      case isFalse => exact List.flatMap_singleton _ _

/-- `aggregate_page_ranges` merges the pages of each tier, whatever their order. -/
theorem aggregatePageRanges_merges (pages : List (PageRecord F)) (aligned : Aligned pages)
    : (∀ tier,
        MergesTier (pages.filter (fun page => page.tier = tier))
          ((aggregatePageRanges pages).filter (fun range => range.tier = tier)))
      ∧ ∀ other : List (PageRecord F),
          other.Perm pages
          → ∀ range, range ∈ aggregatePageRanges other
            ↔ range ∈ aggregatePageRanges pages := by
  constructor
  · intro tier
    rw [filter_aggregatePageRanges]
    exact (aligned.filter _).tierRanges_merges tier
  · intro other same range
    have ofTier (pages : List (PageRecord F))
        : range ∈ aggregatePageRanges pages
          ↔ range ∈ tierRanges range.tier
              (pages.filter (fun page => page.tier = range.tier)) := by
      rw [← filter_aggregatePageRanges, List.mem_filter]
      simp
    rw [ofTier, ofTier, tierRanges_eq, tierRanges_eq,
      (aligned.filter _).sortPages_eq (same.filter _)]

-----------------------------------------------------------------------------------------
-- `_find_contiguous_ranges` merges in the same way
-----------------------------------------------------------------------------------------

omit [PyFloat F] in
/-- A range as `_find_contiguous_ranges` gives it, up to its last byte. -/
def PageRange.inclusive (range : PageRange F) : Int × Int := (range.start, range.stop - 1)

omit [PyFloat F] in
/-- The last address of a range, which is one less than its end. -/
theorem OpenRange.inclusive_close {start stop : Nat} {range : OpenRange F}
    (sameStart : range.start = start) (sameStop : range.stop = stop + 0x1000) {tier : List Char}
    {avgPac : F}
    : (range.close tier avgPac).inclusive = ((start : Int), ((stop + 0xfff : Nat) : Int)) := by
  have ends : range.stop - 1 = ((stop + 0xfff : Nat) : Int) := by
    rw [sameStop]
    omega
  exact Prod.ext sameStart ends

/-- The two loops go step by step, the one over addresses a page behind in its end. -/
theorem contiguousFrom_eq (tier : List Char) {start stop : Nat} {range : OpenRange F}
    {addresses : List Nat} {ahead : List (PageRecord F)} (sameStart : range.start = start)
    (sameStop : range.stop = stop + 0x1000)
    (same : ahead.map PageRecord.pageAddr = addresses.map Int.ofNat)
    : (Spe.contiguousFrom start stop addresses).map (fun (s, e) => ((s : Int), (e : Int)))
      = (mergePages tier range ahead).map PageRange.inclusive := by
  induction addresses generalizing start stop range ahead with
  | nil =>
      rw [List.map_nil, List.map_eq_nil_iff] at same
      rw [same, Spe.contiguousFrom, mergePages, List.map_singleton, List.map_singleton,
        OpenRange.inclusive_close sameStart sameStop]
  | cons address addresses ih =>
      cases ahead with
      | nil => cases same
      | cons page ahead =>
          obtain ⟨here, rest⟩ := List.cons.inj same
          have test : address = stop + 0x1000 ↔ page.pageAddr = range.stop := by
            rw [here, sameStop, Int.ofNat_eq_natCast]
            omega
          rw [Spe.contiguousFrom, mergePages]
          by_cases next : address = stop + 0x1000
          · rw [if_pos next, if_pos (test.mp next)]
            refine ih sameStart ?_ rest
            exact congrArg (fun stop => stop + 0x1000) ((test.mp next).symm.trans here)
          · rw [if_neg next, if_neg (fun behind => next (test.mpr behind)), List.map_cons,
              List.map_cons, OpenRange.inclusive_close sameStart sameStop]
            refine congrArg _ (ih here ?_ rest)
            exact congrArg (fun start => start + 0x1000) here

omit [PyFloat F] in
/-- The pages of an ascending list of addresses are sorted in its order. -/
theorem map_sortPages {addresses : List Nat} {pages : List (PageRecord F)}
    (ascending : addresses.Pairwise (· < ·))
    (same : (pages.map PageRecord.pageAddr).Perm (addresses.map Int.ofNat))
    (aligned : Aligned pages)
    : (sortPages pages).map PageRecord.pageAddr = addresses.map Int.ofNat := by
  have sorted : ((sortPages pages).map PageRecord.pageAddr).Pairwise (· ≤ ·) :=
    List.pairwise_map.mpr (aligned.spaced.imp (fun apart => by omega))
  have listed : (addresses.map Int.ofNat).Pairwise (· ≤ ·) :=
    List.pairwise_map.mpr (ascending.imp (fun less => Int.ofNat_le.mpr (Nat.le_of_lt less)))
  exact List.Perm.eq_of_pairwise (fun _ _ _ _ => Int.le_antisymm) sorted listed
    (((sortPages_perm pages).map _).trans same)

/-- If all pages are of one tier, so are all ranges. -/
theorem aggregatePageRanges_oneTier {tier : List Char} {pages : List (PageRecord F)}
    (oneTier : ∀ page ∈ pages, page.tier = tier)
    : aggregatePageRanges pages = tierRanges tier pages := by
  have all : pages.filter (fun page => page.tier = tier) = pages :=
    List.filter_eq_self.mpr (fun page member => decide_eq_true (oneTier page member))
  rw [← congrArg (tierRanges tier) all, ← filter_aggregatePageRanges, eq_comm,
    List.filter_eq_self]
  intro range member
  refine decide_eq_true (Decidable.of_not_not fun other => ?_)
  have ofTier : range ∈ (aggregatePageRanges pages).filter
      (fun found => found.tier = range.tier) :=
    List.mem_filter.mpr ⟨member, decide_eq_true rfl⟩
  have none : pages.filter (fun page => page.tier = range.tier) = [] := by
    refine List.filter_eq_nil_iff.mpr (fun page listed same => other ?_)
    exact (of_decide_eq_true same).symm.trans (oneTier page listed)
  rw [filter_aggregatePageRanges, none] at ofTier
  exact List.not_mem_nil ofTier

/-- On the pages of one tier the two tools find the same ranges in the same order. -/
theorem findContiguousRanges_agrees (addresses : List Nat)
    (ascending : addresses.Pairwise (· < ·))
    (divisible : ∀ address ∈ addresses, 4096 ∣ address)
    (tier : List Char) (pages : List (PageRecord F))
    (oneTier : ∀ page ∈ pages, page.tier = tier)
    (same : (pages.map PageRecord.pageAddr).Perm (addresses.map Int.ofNat))
    : (Spe.findContiguousRanges addresses).map (fun (s, e) => ((s : Int), (e : Int)))
        = (aggregatePageRanges pages).map PageRange.inclusive
      ∧ (Spe.findContiguousRanges addresses).Pairwise (fun range later => range.2 < later.1) := by
  have aligned : Aligned pages := by
    constructor
    · intro page member
      obtain ⟨address, listed, here⟩ :=
        List.mem_map.mp (same.mem_iff.mp (List.mem_map_of_mem member))
      rw [← here]
      exact Int.ofNat_dvd.mpr (divisible address listed)
    · refine same.nodup_iff.mpr (List.Nodup.map (fun _ _ => Int.ofNat.inj) ?_)
      exact ascending.imp Nat.ne_of_lt
  have sorted := map_sortPages ascending same aligned
  have agree : (Spe.findContiguousRanges addresses).map (fun (s, e) => ((s : Int), (e : Int)))
      = (aggregatePageRanges pages).map PageRange.inclusive := by
    rw [aggregatePageRanges_oneTier oneTier]
    unfold tierRanges
    cases addresses with
    | nil =>
        rw [List.map_eq_nil_iff.mp sorted]
        rfl
    | cons address addresses =>
        obtain ⟨page, ahead, split, here, rest⟩ := List.map_eq_cons_iff.mp sorted
        rw [split, Spe.findContiguousRanges]
        exact contiguousFrom_eq tier here (congrArg (fun start => start + 0x1000) here) rest
  refine ⟨agree, ?_⟩
  have gaps : ((Spe.findContiguousRanges addresses).map
      (fun (s, e) => ((s : Int), (e : Int)))).Pairwise (fun range later => range.2 < later.1) := by
    rw [agree, aggregatePageRanges_oneTier oneTier, tierRanges_eq]
    refine List.pairwise_map.mpr ((aligned.apart tier).imp (fun gap => ?_))
    unfold PageRange.inclusive
    omega
  exact (List.pairwise_map.mp gaps).imp (fun gap => Int.ofNat_lt.mp gap)

end

/-- A page with one access. -/
def plainPage (address : Int) (pac : ℚ) (tier : List Char) : PageRecord ℚ where
  page := []
  pageAddr := address
  accessCount := 1
  avgLatTot := 0
  maxLatTot := 0
  pac
  llcRefillPct := 0
  svePct := 0
  tier

/-- Two hot pages around a cold one, and a hot one right behind the second. -/
def mixedPages : List (PageRecord ℚ) :=
  [plainPage 0x3000 5 "HOT".toList, plainPage 0x1000 9 "HOT".toList,
    plainPage 0x2000 1 "COLD".toList, plainPage 0x4000 7 "HOT".toList]

theorem mixedPages_aligned : Aligned mixedPages where
  aligned := by decide
  distinct := by decide

/-- Pages of two tiers with a gap among them. -/
theorem aggregatePageRanges_merges_mixed
    : (∀ tier,
        MergesTier (mixedPages.filter (fun page => page.tier = tier))
          ((aggregatePageRanges mixedPages).filter (fun range => range.tier = tier)))
      ∧ ∀ other : List (PageRecord ℚ),
          other.Perm mixedPages
          → ∀ range,
              range ∈ aggregatePageRanges other ↔ range ∈ aggregatePageRanges mixedPages :=
  aggregatePageRanges_merges mixedPages mixedPages_aligned

example
    : (aggregatePageRanges mixedPages).map (fun range => (range.start, range.stop, range.pageCount))
      = [(0x1000, 0x2000, 1), (0x3000, 0x5000, 2), (0x2000, 0x3000, 1)] := by
  decide +kernel

/-- Both sides see the gap. -/
theorem findContiguousRanges_agrees_gap
    : (Spe.findContiguousRanges [0x1000, 0x3000, 0x4000]).map
          (fun (s, e) => ((s : Int), (e : Int)))
        = (aggregatePageRanges (mixedPages.filter (fun page => page.tier = "HOT".toList))).map
          PageRange.inclusive
      ∧ (Spe.findContiguousRanges [0x1000, 0x3000, 0x4000]).Pairwise
          (fun range later => range.2 < later.1) :=
  findContiguousRanges_agrees _ (by decide) (by decide) "HOT".toList _
    (fun _ member => of_decide_eq_true (List.mem_filter.mp member).2) (by decide)

end Kumf.PacToInterc
