import Kumf.Spe.Lines
import Kumf.Library.Totals

/-! Merging the results of the pieces of a dump against parsing the dump in one piece: all
counters are added, also the largest total latency of a page.
-/

namespace Kumf.Spe

open Kumf.Library PyText

/-- Two results with the same counters on all pages and the same number of records. -/
structure SameResult (left right : Parsed) : Prop where
  pageStats : ∀ page, left.pageStats.get? page = right.pageStats.get? page
  recordsParsed : left.recordsParsed = right.recordsParsed

def Packet.tot? : Packet → Option Nat
  | .lat value (some tag) => if tag = "TOT".toList then some value else none
  | _ => none

/-- The total latency of a record, zero without one. -/
def totLatency (record : List Packet) : Nat := (lastOf Packet.tot? record).getD 0

/-- No page has records with a total latency other than zero in both pieces. -/
def PeaksApart (left right : List (List Char)) : Prop :=
  ∀ record ∈ cut (packets left), ∀ other ∈ cut (packets right),
    (pageOf record).isSome → pageOf record = pageOf other →
      totLatency record = 0 ∨ totLatency other = 0

instance (left right : List (List Char)) : Decidable (PeaksApart left right) :=
  inferInstanceAs (Decidable (∀ _ ∈ _, ∀ _ ∈ _, _ → _ → _))

/-- A piece whose last line is a TS line. -/
def EndsWithTs (piece : List (List Char)) : Prop :=
  ∃ front line, piece = front ++ [line] ∧ (reTs.search (strip line)).isSome

/-- A record contributes its latency as the worker adds it up. -/
theorem worker_latTot {record : List Packet}
    (inner : ∀ packet ∈ record, packet.closes = false)
    : (readRecord workerAbsorb record).contribution .latTotMax = totLatency record := by
  have overwrites (sample : Sample) (packet : Packet) (inner : packet.closes = false)
      : (workerAbsorb sample packet).latTot = packet.tot?.or sample.latTot := by
    cases packet with
    | ts => cases inner
    | pc value => cases inner
    | va value => rfl
    | lat value tag =>
        cases tag with
        | none => rfl
        | some tag =>
            simp only [workerAbsorb, workerLat, Packet.tot?, Option.some.injEq]
            split_ifs <;> rfl
    | ev events => rfl
    | op type data => rfl
  have last := foldl_lastOf overwrites inner {}
  rw [Option.or_none] at last
  simp [Sample.contribution, readRecord, last, totLatency]

/-- What a piece contributes to a page. -/
def pageValues (page : List Char) (sequence : List Packet) : List PageStats :=
  (onPage page (cut sequence)).map (fun record => (readRecord workerAbsorb record).contribution)

/-- A cut behind a `TS` splits no record, so a page's values split with it. -/
theorem pageValues_append_ts (page : List Char) (front back : List Packet)
    : pageValues page (front ++ .ts :: back)
      = pageValues page front ++ pageValues page back := by
  simp [pageValues, cut_append_ts, onPage]

theorem pageValues_nil (page : List Char) : pageValues page [] = [] := by
  rfl

/-- The records with a virtual address of a piece. -/
def validCount (sequence : List Packet) : Nat :=
  (cut sequence).countP (fun record => (lastOf Packet.va? record).isSome)

/-- The valid records split in the same way. -/
theorem validCount_append_ts (front back : List Packet)
    : validCount (front ++ .ts :: back) = validCount front + validCount back := by
  simp [validCount, cut_append_ts]

/-- Lines are read one by one. -/
theorem packets_append (front back : List (List Char))
    : packets (front ++ back) = packets front ++ packets back :=
  List.filterMap_append

/-- Cutting behind a TS line divides the records of a dump between the pieces. -/
theorem EndsWithTs.divides {piece : List (List Char)} (ends : EndsWithTs piece)
    (page : List Char) (rest : List Packet)
    : pageValues page (packets piece ++ rest)
        = pageValues page (packets piece) ++ pageValues page rest
      ∧ validCount (packets piece ++ rest) = validCount (packets piece) + validCount rest := by
  obtain ⟨front, line, rfl, ts⟩ := ends
  obtain ⟨digits, found⟩ := Option.isSome_iff_exists.mp ts
  have last : packets [line] = [.ts] := by simp [packets, packet?_ts found]
  have values := pageValues_append_ts page (packets front)
  have counts := validCount_append_ts (packets front)
  have none : validCount [] = 0 := rfl
  rw [packets_append, last, List.append_assoc, List.singleton_append, values, counts, values,
    counts, pageValues_nil, none]
  simp

/-- The records of a dump are those of its pieces, by induction on the pieces. -/
theorem pieces_divide {pieces : List (List (List Char))}
    (ends : ∀ piece ∈ pieces.dropLast, EndsWithTs piece) (page : List Char)
    : pageValues page (packets pieces.flatten)
        = pieces.flatMap (fun piece => pageValues page (packets piece))
      ∧ validCount (packets pieces.flatten)
        = (pieces.map (fun piece => validCount (packets piece))).sum := by
  induction pieces with
  | nil => exact ⟨rfl, rfl⟩
  | cons piece pieces ih =>
      cases pieces with
      | nil => simp
      | cons next pieces =>
          obtain ⟨values, counts⟩ := ih (fun other member => ends other (by simp [member]))
          obtain ⟨first, count⟩ := (ends piece (by simp)).divides page
            (packets (next :: pieces).flatten)
          rw [List.flatten_cons, packets_append, first, count, values, counts]
          simp

-----------------------------------------------------------------------------------------
-- Counters that are all added, and counters with one maximum
-----------------------------------------------------------------------------------------

/-- Statistics are combined field by field. -/
theorem foldl_combine_apply (values : List PageStats) (key : Counter)
    : values.foldl PageStats.combine PageStats.zero key
      = (values.map (fun stats => stats key)).foldl key.join 0 := by
  have general (values : List PageStats) : ∀ start : PageStats,
      values.foldl PageStats.combine start key
        = (values.map (fun stats => stats key)).foldl key.join (start key) := by
    induction values with
    | nil => exact fun _ => rfl
    | cons stats values ih => exact fun start => ih (start.combine stats)
  exact general values PageStats.zero

/-- Statistics are added field by field. -/
theorem foldl_add_apply (values : List PageStats) (key : Counter)
    : values.foldl PageStats.add PageStats.zero key
      = (values.map (fun stats => stats key)).sum := by
  have general (values : List PageStats) : ∀ start : PageStats,
      values.foldl PageStats.add start key
        = start key + (values.map (fun stats => stats key)).sum := by
    induction values with
    | nil => exact fun _ => rfl
    | cons stats values ih =>
        intro start
        rw [List.foldl_cons, ih, List.map_cons, List.sum_cons, ← Nat.add_assoc]
        rfl
  rw [general]
  exact Nat.zero_add _

/-- Every field but the largest latency is joined by adding. -/
theorem foldl_join_eq_sum {key : Counter} (notMax : key ≠ .latTotMax) (numbers : List Nat)
    : numbers.foldl key.join 0 = numbers.sum := by
  have join : key.join = (· + ·) := by
    cases key <;> first | rfl | exact absurd rfl notMax
  rw [join, List.sum_eq_foldl]

/-- The two ways of putting counters together differ in the maxima only. -/
theorem total_add_eq_iff (values : List PageStats)
    : Dict.total PageStats.add PageStats.zero values
        = Dict.total PageStats.combine PageStats.zero values
      ↔ (values.map (fun stats => stats .latTotMax)).Pairwise (fun a b => a = 0 ∨ b = 0) := by
  rw [← foldl_max_eq_sum_iff]
  cases nonempty : values.isEmpty with
  | true =>
      rw [List.isEmpty_iff.mp nonempty]
      exact ⟨fun _ => rfl, fun _ => rfl⟩
  | false =>
      simp only [Dict.total, nonempty, Bool.false_eq_true, if_false, Option.some.injEq]
      constructor
      · intro same
        have peak := congrFun same .latTotMax
        rw [foldl_add_apply, foldl_combine_apply] at peak
        exact peak.symm
      · intro peak
        funext key
        rw [foldl_add_apply, foldl_combine_apply]
        by_cases isMax : key = .latTotMax
        · rw [isMax]
          exact peak.symm
        · exact (foldl_join_eq_sum isMax _).symm

/-- The merged counters of a page are the sums of those of the results that have it. -/
theorem mergeResults_get? (results : List Parsed) (page : List Char)
    : (mergeResults results).pageStats.get? page
      = Dict.total PageStats.add PageStats.zero
          (results.filterMap (fun result => result.pageStats.get? page)) := by
  have collected (results : List Parsed) : ∀ merged : Parsed,
      (results.foldl mergeResult merged).pageStats
        = Dict.collect PageStats.add PageStats.zero merged.pageStats
            (results.flatMap (fun result => result.pageStats.entries)) := by
    induction results with
    | nil => exact fun _ => rfl
    | cons result results ih =>
        intro merged
        rw [List.foldl_cons, ih, List.flatMap_cons, Dict.collect, Dict.collect,
          List.foldl_append]
        rfl
  have values : Dict.valuesAt page (results.flatMap (fun result => result.pageStats.entries))
      = results.filterMap (fun result => result.pageStats.get? page) := by
    rw [Dict.valuesAt_flatMap]
    simp only [Dict.valuesAt_entries]
    exact (List.filterMap_eq_flatMap_toList _ _).symm
  rw [mergeResults, collected, Dict.get?_collect_empty, values]

/-- The merge adds up the records parsed. -/
theorem mergeResults_recordsParsed (results : List Parsed)
    : (mergeResults results).recordsParsed = (results.map Parsed.recordsParsed).sum := by
  have counted (results : List Parsed) : ∀ merged : Parsed,
      (results.foldl mergeResult merged).recordsParsed
        = merged.recordsParsed + (results.map Parsed.recordsParsed).sum := by
    induction results with
    | nil => exact fun _ => rfl
    | cons result results ih =>
        intro merged
        rw [List.foldl_cons, ih, List.map_cons, List.sum_cons, ← Nat.add_assoc]
        rfl
  rw [mergeResults, counted, Nat.zero_add]

/-- The largest total latency that a piece has on a page, if it has the page at all. -/
theorem pagePeak_eq_zero_iff {page : List Char} {sequence : List Packet} {stats : PageStats}
    (found : Dict.total PageStats.combine PageStats.zero (pageValues page sequence) = some stats)
    : stats .latTotMax = 0
      ↔ ∀ record ∈ cut sequence, pageOf record = some page → totLatency record = 0 := by
  have value : stats .latTotMax
      = ((onPage page (cut sequence)).map totLatency).foldl max 0 := by
    unfold Dict.total at found
    split at found
    · cases found
    · rw [← Option.some.inj found, foldl_combine_apply, pageValues, List.map_map]
      refine congrArg (List.foldl max 0) (List.map_congr_left (fun record member => ?_))
      exact worker_latTot (cut_inner record (List.mem_filter.mp member).1)
  rw [value, foldl_max_eq_zero_iff, List.forall_mem_map]
  simp [onPage]

/-- What two pieces have on all pages, in terms of their records. -/
theorem peaks_apart_iff {left right : List (List Char)}
    : (∀ page stats,
          Dict.total PageStats.combine PageStats.zero (pageValues page (packets left)) = some stats
          → ∀ other,
            Dict.total PageStats.combine PageStats.zero (pageValues page (packets right))
              = some other
            → stats .latTotMax = 0 ∨ other .latTotMax = 0)
      ↔ PeaksApart left right := by
  have present {page : List Char} {sequence record : List Packet} (member : record ∈ cut sequence)
      (here : pageOf record = some page)
      : ∃ stats,
          Dict.total PageStats.combine PageStats.zero (pageValues page sequence) = some stats := by
    have listed : record ∈ onPage page (cut sequence) :=
      List.mem_filter.mpr ⟨member, decide_eq_true here⟩
    have nonempty : pageValues page sequence ≠ [] :=
      fun empty => List.ne_nil_of_mem listed (List.map_eq_nil_iff.mp empty)
    exact ⟨_, if_neg (fun empty => nonempty (List.isEmpty_iff.mp empty))⟩
  constructor
  · intro apart record member other inRight isSome same
    obtain ⟨page, here⟩ := Option.isSome_iff_exists.mp isSome
    obtain ⟨stats, found⟩ := present member here
    obtain ⟨stats', found'⟩ := present inRight (same.symm.trans here)
    rcases apart page stats found stats' found' with zero | zero
    · exact .inl ((pagePeak_eq_zero_iff found).mp zero record member here)
    · exact .inr ((pagePeak_eq_zero_iff found').mp zero other inRight (same.symm.trans here))
  · intro apart page stats found other found'
    rw [pagePeak_eq_zero_iff found, pagePeak_eq_zero_iff found']
    by_cases zero
      : ∀ record ∈ cut (packets left), pageOf record = some page → totLatency record = 0
    · exact .inl zero
    · push Not at zero
      obtain ⟨record, member, here, peak⟩ := zero
      refine .inr (fun other inRight there => ?_)
      have choice := apart record member other inRight (by rw [here]; rfl) (here.trans there.symm)
      exact choice.resolve_left peak

/-- A pairwise relation can be read page by page. -/
theorem forall_pairwise_iff {ι : Type} {related : List Char → ι → ι → Prop}
    {items : List ι}
    : (∀ page, items.Pairwise (related page))
      ↔ items.Pairwise (fun a b => ∀ page, related page a b) := by
  simp only [List.pairwise_iff_forall_sublist]
  exact ⟨fun all _ _ sub page => all page sub, fun all page _ _ sub => all sub page⟩

section
variable {pieces : List (List (List Char))}

/-- The pieces count the records of the whole dump. -/
theorem mergeResults_records (plain : ∀ piece ∈ pieces, ∀ line ∈ piece, '\n' ∉ line)
    (ends : ∀ piece ∈ pieces.dropLast, EndsWithTs piece)
    : (mergeResults (pieces.map (fun piece => parseChunkWorker (unlines piece)))).recordsParsed
      = (parseChunkWorker (unlines pieces.flatten)).recordsParsed := by
  have whole := parseChunkWorker_counts (List.forall_mem_flatten.mpr plain)
  have total := (pieces_divide ends []).2
  rw [validCount] at total
  rw [mergeResults_recordsParsed, whole.recordsParsed, total, List.map_map]
  exact congrArg List.sum (List.map_congr_left
    (fun piece member => (parseChunkWorker_counts (plain piece member)).recordsParsed))

/-- A page comes out right if no two pieces have a total latency other than zero on it. -/
theorem mergeResults_page_iff (plain : ∀ piece ∈ pieces, ∀ line ∈ piece, '\n' ∉ line)
    (ends : ∀ piece ∈ pieces.dropLast, EndsWithTs piece) (page : List Char)
    : (mergeResults (pieces.map (fun piece => parseChunkWorker (unlines piece)))
          ).pageStats.get? page
        = (parseChunkWorker (unlines pieces.flatten)).pageStats.get? page
      ↔ pieces.Pairwise (fun left right => ∀ stats,
          Dict.total PageStats.combine PageStats.zero (pageValues page (packets left))
            = some stats
          → ∀ other,
            Dict.total PageStats.combine PageStats.zero (pageValues page (packets right))
              = some other
            → stats .latTotMax = 0 ∨ other .latTotMax = 0) := by
  have whole := parseChunkWorker_counts (List.forall_mem_flatten.mpr plain)
  have parts : pieces.filterMap
        (fun piece => (parseChunkWorker (unlines piece)).pageStats.get? page)
      = pieces.filterMap (fun piece =>
          Dict.total PageStats.combine PageStats.zero (pageValues page (packets piece))) :=
    List.filterMap_congr
      (fun piece member => (parseChunkWorker_counts (plain piece member)).pageStats page)
  have divided := (pieces_divide ends page).1
  rw [pageValues] at divided
  rw [mergeResults_get?, List.filterMap_map, whole.pageStats, divided, Dict.total_flatMap]
  rw [Function.comp_def, parts, total_add_eq_iff, List.pairwise_map, List.pairwise_filterMap]

end

/-- Merging gives what one run over the whole dump gives exactly when no page has a total
latency other than zero in two pieces. Witness: both sides are the pieces' counters put
together, with and without the maximum.
-/
theorem mergeResults_exact_iff (pieces : List (List (List Char)))
    (plain : ∀ piece ∈ pieces, ∀ line ∈ piece, '\n' ∉ line)
    (ends : ∀ piece ∈ pieces.dropLast, EndsWithTs piece)
    : SameResult
        (mergeResults (pieces.map (fun piece => parseChunkWorker (unlines piece))))
        (parseChunkWorker (unlines pieces.flatten))
      ↔ pieces.Pairwise PeaksApart := by
  rw [← List.Pairwise.iff (fun _ _ => peaks_apart_iff), ← forall_pairwise_iff]
  constructor
  · intro same page
    exact (mergeResults_page_iff plain ends page).mp (same.pageStats page)
  · intro apart
    exact ⟨fun page => (mergeResults_page_iff plain ends page).mpr (apart page),
      mergeResults_records plain ends⟩

/-- Two pieces with one record each, the second on a given page. -/
def twoPieces (second : String) : List (List (List Char)) :=
  [["VA 0x1000".toList, "LAT 5 TOT".toList, "TS 1".toList],
    [second.toList, "LAT 7 TOT".toList, "TS 2".toList]]

/-- The first piece ends at a record's `TS`. -/
theorem twoPieces_ends (second : String)
    : ∀ piece ∈ (twoPieces second).dropLast, EndsWithTs piece := by
  intro piece member
  obtain rfl := List.mem_singleton.mp member
  exact ⟨["VA 0x1000".toList, "LAT 5 TOT".toList], "TS 1".toList, rfl, by decide⟩

theorem mergeResults_exact_iff_twoPieces
    : SameResult
        (mergeResults ((twoPieces "VA 0x2000").map
          (fun piece => parseChunkWorker (unlines piece))))
        (parseChunkWorker (unlines (twoPieces "VA 0x2000").flatten))
      ↔ (twoPieces "VA 0x2000").Pairwise PeaksApart :=
  mergeResults_exact_iff (twoPieces "VA 0x2000") (by decide) (twoPieces_ends _)

/-- Two records of one page in different pieces: 5 + 7 is reported as the largest latency. -/
theorem mergeResults_twoPieces_peak
    : (∀ piece ∈ (twoPieces "VA 0x1000").dropLast, EndsWithTs piece)
      ∧ ¬ SameResult
          (mergeResults ((twoPieces "VA 0x1000").map
            (fun piece => parseChunkWorker (unlines piece))))
          (parseChunkWorker (unlines (twoPieces "VA 0x1000").flatten)) := by
  refine ⟨twoPieces_ends _, ?_⟩
  intro same
  have peak := congrArg (Option.map (fun stats => stats .latTotMax))
    (same.pageStats "0x1000".toList)
  exact absurd peak (by decide)

end Kumf.Spe
