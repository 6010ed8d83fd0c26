import Kumf.Spe.Lines
import Kumf.Spe.Report

/-! `compute_pac_scores`, and what the counters of `parse_stream` promise it: no count exceeds
the accesses of the page, and the latencies add up to no more than the largest one each time.
-/

namespace Kumf.Spe

open Kumf.Library PyText

section
variable {F : Type} [PyDivision F]

/-- `stats['lat_tot_sum'] / stats['access_count']`, or 0 -/
def avgLatTot (stats : PageStats) : Number F :=
  if 0 < stats .latTotSum then
    .float (PyFloat.quotient (stats .latTotSum) (stats .accessCount))
  else
    .int 0

/-- `sve_ratio` -/
def sveRatio (stats : PageStats) : Number F :=
  if 0 < stats .accessCount then
    .float (PyFloat.quotient (stats .sveCount) (stats .accessCount))
  else
    .int 0

/-- `effective_mlp` -/
def effectiveMlp (mlpEstimate : F) (stats : PageStats) : F :=
  PyReal.mul mlpEstimate
    (PyFloat.add (PyFloat.ofNat 1)
      (PyReal.mul (sveRatio stats).toFloat (PyFloat.decimal 10 1)))

/-- `pac`, before it is rounded; `none` is a `ZeroDivisionError`. -/
def scorePac (mlpEstimate : F) (stats : PageStats) : Option F :=
  PyDivision.div
    (PyReal.mul (PyFloat.ofNat (stats .accessCount)) (avgLatTot stats).toFloat)
    (effectiveMlp mlpEstimate stats)

/-- `part / access_count * 100`, before it is rounded. -/
def sharePct (part whole : Nat) : F :=
  PyReal.mul (PyFloat.quotient part whole) (PyFloat.ofNat 100)

/-- `round(x, 1)` of an integer or a float. -/
def roundNumber : Number F → Number F
  | .int n => .int n
  | .float x => .float (PyReal.round1 x)

/-- The entry of one page. -/
def scorePage (mlpEstimate : F) (page : List Char) (stats : PageStats) : Option (PageScore F) :=
  (scorePac mlpEstimate stats).map fun pac => {
    page
    accessCount := stats .accessCount
    avgLatTot := roundNumber (avgLatTot stats)
    maxLatTot := stats .latTotMax
    latTotSum := stats .latTotSum
    pac := PyReal.round1 pac
    llcRefillPct :=
      if stats .accessCount = 0 then .int 0
      else .float (PyReal.round1 (sharePct (stats .llcRefillCount) (stats .accessCount)))
    svePct :=
      if stats .accessCount = 0 then .int 0
      else .float (PyReal.round1 (sharePct (stats .sveCount) (stats .accessCount)))
    ldStRatio := str (stats .ldCount) ++ ':' :: str (stats .stCount) }

/-- One turn of the loop of `compute_pac_scores`. -/
def addScore (mlpEstimate : F) (pacScores : PacScores F) (entry : List Char × PageStats)
    : Option (PacScores F) :=
  if entry.2 .accessCount = 0 then
    some pacScores
  else
    (scorePage mlpEstimate entry.1 entry.2).map
      (fun score => pacScores.upsert entry.1 (fun _ => score))

/-- `compute_pac_scores`; `none` is a `ZeroDivisionError`. -/
def computePacScores (pageStats : StatsTable) (mlpEstimate : F) : Option (PacScores F) :=
  pageStats.entries.foldlM (addScore mlpEstimate) .empty

end

-----------------------------------------------------------------------------------------
-- The counters of a page
-----------------------------------------------------------------------------------------

/-- What the counters of a page promise each other. -/
structure PageStats.Bounded (stats : PageStats) : Prop where
  accessed : 0 < stats .accessCount
  counts
    : ∀ key ∈ [Counter.ldCount, .stCount, .sveCount, .llcAccessCount, .llcRefillCount,
        .tlbRefillCount, .lat9eCount],
        stats key ≤ stats .accessCount
  maxLeSum : stats .latTotMax ≤ stats .latTotSum
  sumLe : stats .latTotSum ≤ stats .accessCount * stats .latTotMax

/-- A sample counts once, and its latency is the largest so far. -/
theorem Sample.contribution_bounded (sample : Sample) : sample.contribution.Bounded where
  accessed := Nat.one_pos
  counts := by
    simp [Sample.contribution, Bool.toNat_le]
  maxLeSum := le_refl _
  sumLe := (Nat.one_mul _).ge

/-- Counters put together keep the promises of both. -/
theorem PageStats.Bounded.combine {left right : PageStats} (first : left.Bounded)
    (second : right.Bounded)
    : (left.combine right).Bounded where
  accessed := Nat.add_pos_left first.accessed _
  counts := by
    intro key member
    have sum : (left.combine right) key = left key + right key := by
      cases key <;> first | rfl | simp at member
    rw [sum]
    exact Nat.add_le_add (first.counts key member) (second.counts key member)
  maxLeSum := by
    refine Nat.max_le.mpr ⟨?_, ?_⟩
    · exact first.maxLeSum.trans (Nat.le_add_right _ _)
    · exact second.maxLeSum.trans (Nat.le_add_left _ _)
  sumLe := by
    change left .latTotSum + right .latTotSum
      ≤ (left .accessCount + right .accessCount) * max (left .latTotMax) (right .latTotMax)
    rw [Nat.add_mul]
    refine Nat.add_le_add (first.sumLe.trans ?_) (second.sumLe.trans ?_)
    · exact Nat.mul_le_mul_left _ (Nat.le_max_left _ _)
    · exact Nat.mul_le_mul_left _ (Nat.le_max_right _ _)

-----------------------------------------------------------------------------------------
-- The whole table
-----------------------------------------------------------------------------------------

/-- The samples that `parse_stream` makes of some lines. -/
def streamSamples (lines : List (List Char)) : List Sample :=
  samples streamAbsorb {} (lines.filterMap streamMeaning)

/-- A sample that `_flush_sample` drops for its kernel address. -/
def Sample.dropped (sample : Sample) : Bool := sample.va.any isKernel

theorem parseStream_samples (lines : List (List Char))
    : (parseStream lines none).pageStats
        = Dict.collect PageStats.combine PageStats.zero .empty
            ((streamSamples lines).filterMap Sample.item)
      ∧ (parseStream lines none).recordsParsed = (streamSamples lines).countP sampleIsValid := by
  obtain ⟨table, count⟩ := stream_reads.run lines {}
  rw [parseStream, streamLoop_none]
  exact ⟨table, by simpa [streamSamples] using count⟩

/-- `RE_VA` captures a prefix and some digits. -/
theorem exists_digits_of_reVa {line va : List Char} (found : reVa.search line = some va)
    : ∃ digits, digits ≠ [] ∧ (∀ c ∈ digits, isHex c = true)
      ∧ va = "0x".toList ++ digits := by
  obtain ⟨suffix, rest, member⟩ := Pattern.exists_of_search found
  obtain ⟨_, _, member⟩ := List.mem_flatMap.mp member
  obtain ⟨_, _, member⟩ := List.mem_flatMap.mp member
  obtain ⟨⟨base, _⟩, inBase, member⟩ := List.mem_flatMap.mp member
  obtain ⟨⟨digits, _⟩, inDigits, member⟩ := List.mem_flatMap.mp member
  have literal : base = "0x".toList := Pattern.eq_of_mem_word inBase
  obtain ⟨nonempty, valid⟩ := Pattern.forall_of_mem_many1 inDigits
  refine ⟨digits, nonempty, valid, ?_⟩
  rw [(Prod.mk.inj (List.mem_singleton.mp member)).1, literal]

/-- `int` reads it. -/
theorem intHex_reVa {line va : List Char} (found : reVa.search line = some va)
    : intHex va ≠ none := by
  obtain ⟨digits, nonempty, valid, rfl⟩ := exists_digits_of_reVa found
  rw [intHex, if_pos]
  · exact Option.some_ne_none _
  · exact ⟨by simp [startsWith], nonempty, List.all_eq_true.mpr valid⟩

theorem packet?_va {line va : List Char} (found : packet? line = some (.va va))
    : intHex va ≠ none := by
  unfold packet? at found
  split at found
  case h_3 captured =>
      cases found
      exact intHex_reVa captured
  all_goals cases found

/-- The address of a sample is that of a packet. -/
theorem samples_va {holds : List Char → Prop} {sequence : List Packet} {start : Sample}
    (each : ∀ va, .va va ∈ sequence → holds va) (first : ∀ va ∈ start.va, holds va)
    : ∀ sample ∈ samples streamAbsorb start sequence, ∀ va ∈ sample.va, holds va := by
  induction sequence generalizing start with
  | nil => simpa [samples] using first
  | cons packet rest ih =>
      have later : ∀ va, .va va ∈ rest → holds va :=
        fun va member => each va (List.mem_cons_of_mem packet member)
      have next : ∀ va ∈ (streamAbsorb start packet).va, holds va := by
        intro va given
        cases closes : packet.closes with
        | true =>
            cases packet with
            | ts => cases given
            | pc value => cases given
            | _ => cases closes
        | false =>
            rw [streamAbsorb_reads.va start packet closes] at given
            rcases Option.or_eq_some_iff.mp given with own | ⟨_, older⟩
            · cases packet <;> cases own
              exact each va List.mem_cons_self
            · exact first va older
      rw [samples]
      split
      · intro sample member
        rcases List.mem_cons.mp member with rfl | inRest
        · exact first
        · exact ih later next sample inRest
      · exact ih later next

/-- Every address in a sample can be read. -/
theorem streamSamples_va {lines : List (List Char)}
    : ∀ sample ∈ streamSamples lines, ∀ va ∈ sample.va, intHex va ≠ none := by
  refine samples_va (fun va member => ?_) nofun
  obtain ⟨line, _, meaning⟩ := List.mem_filterMap.mp member
  unfold streamMeaning at meaning
  split at meaning
  · cases meaning
  · exact packet?_va meaning

/-- A valid sample adds an item or is dropped. -/
theorem valid_eq_item_add_dropped {sample : Sample}
    (reads : ∀ va ∈ sample.va, intHex va ≠ none)
    : (sampleIsValid sample).toNat = sample.item.isSome.toNat + sample.dropped.toNat := by
  cases given : sample.va with
  | none => simp [sampleIsValid, Sample.item, Sample.dropped, given]
  | some va =>
      have read := reads va (by rw [given]; rfl)
      obtain ⟨address, value⟩ := Option.ne_none_iff_exists'.mp read
      by_cases kernel : isKernel va = true
      · simp [sampleIsValid, Sample.item, Sample.dropped, given, pageKey, kernel]
      · simp [sampleIsValid, Sample.item, Sample.dropped, given, pageKey, kernel, value]

/-- The valid samples of a list are its items and its dropped samples. -/
theorem countP_valid {list : List Sample}
    (reads : ∀ sample ∈ list, ∀ va ∈ sample.va, intHex va ≠ none)
    : list.countP sampleIsValid
      = (list.filterMap Sample.item).length + list.countP Sample.dropped := by
  have indicator (b : Bool) : (if b = true then 1 else 0) = b.toNat := by cases b <;> rfl
  induction list with
  | nil => rfl
  | cons sample list ih =>
      have rest := ih (fun other member => reads other (List.mem_cons_of_mem sample member))
      have one := valid_eq_item_add_dropped (reads sample List.mem_cons_self)
      have items : ((sample :: list).filterMap Sample.item).length
          = (list.filterMap Sample.item).length + sample.item.isSome.toNat := by
        cases item : sample.item <;> simp [item]
      rw [List.countP_cons, List.countP_cons, indicator, indicator, rest, items, one]
      omega

/-- Every page of the table keeps the promises of its counters. -/
theorem parseStream_bounded (lines : List (List Char))
    : ∀ entry ∈ (parseStream lines none).pageStats.entries, entry.2.Bounded := by
  rw [(parseStream_samples lines).1]
  refine Dict.forall_collect _ _ (fun item member old older => ?_) nofun
  obtain ⟨sample, _, given⟩ := List.mem_filterMap.mp member
  obtain ⟨page, _, rfl⟩ := Option.map_eq_some_iff.mp given
  cases old with
  | none =>
      have alone : PageStats.zero.combine sample.contribution = sample.contribution :=
        Std.LawfulLeftIdentity.left_id _
      dsimp only [Option.getD_none]
      rw [alone]
      exact sample.contribution_bounded
  | some stats => exact (older stats rfl).combine sample.contribution_bounded

/-- The accesses of a table are those of the items. -/
theorem sum_collect_accesses (items : List (List Char × PageStats))
    : ((Dict.collect PageStats.combine PageStats.zero .empty items).entries.map
          (fun entry => entry.2 .accessCount)).sum
      = (items.map (fun item => item.2 .accessCount)).sum := by
  have sums := Dict.sum_collect PageStats.combine PageStats.zero
    (fun stats => stats .accessCount) (fun stats => stats .accessCount) rfl (fun _ _ => rfl)
    .empty items
  rwa [Dict.empty, List.map_nil, List.sum_nil, Nat.zero_add] at sums

/-- Records are accesses or dropped samples. -/
theorem parseStream_balance (lines : List (List Char))
    : (parseStream lines none).recordsParsed
      = ((parseStream lines none).pageStats.entries.map (fun entry => entry.2 .accessCount)).sum
        + (streamSamples lines).countP Sample.dropped := by
  obtain ⟨table, count⟩ := parseStream_samples lines
  have accesses := sum_collect_accesses ((streamSamples lines).filterMap Sample.item)
  have each
      : ∀ item ∈ (streamSamples lines).filterMap Sample.item, item.2 .accessCount = 1 := by
    intro item member
    obtain ⟨sample, _, given⟩ := List.mem_filterMap.mp member
    obtain ⟨page, _, rfl⟩ := Option.map_eq_some_iff.mp given
    rfl
  rw [count, table, countP_valid streamSamples_va, accesses, List.map_congr_left each]
  simp

-----------------------------------------------------------------------------------------
-- Scores in exact arithmetic
-----------------------------------------------------------------------------------------

/-- The loop scores each page on its own, by induction on the entries. -/
theorem foldlM_addScore {F : Type} [PyDivision F] {mlpEstimate : F}
    {entries : List (List Char × PageStats)} (nodup : (entries.map Prod.fst).Nodup)
    (scored : ∀ entry ∈ entries, scorePage mlpEstimate entry.1 entry.2 ≠ none)
    (start : PacScores F)
    : ∃ pacScores,
        entries.foldlM (addScore mlpEstimate) start = some pacScores
        ∧ (∀ entry ∈ entries,
            entry.2 .accessCount ≠ 0
            → pacScores.get? entry.1 = scorePage mlpEstimate entry.1 entry.2)
        ∧ ∀ page ∉ entries.map Prod.fst, pacScores.get? page = start.get? page := by
  induction entries generalizing start with
  | nil => exact ⟨start, rfl, nofun, fun _ _ => rfl⟩
  | cons entry rest ih =>
      obtain ⟨outside, restNodup⟩ := List.nodup_cons.mp nodup
      have restScored : ∀ other ∈ rest, scorePage mlpEstimate other.1 other.2 ≠ none :=
        fun other member => scored other (List.mem_cons_of_mem entry member)
      obtain ⟨score, given⟩ := Option.ne_none_iff_exists'.mp (scored entry List.mem_cons_self)
      rw [List.foldlM_cons]
      by_cases empty : entry.2 .accessCount = 0
      · obtain ⟨pacScores, folded, inside, others⟩ := ih restNodup restScored start
        refine ⟨pacScores, by simpa [addScore, empty] using folded, ?_, ?_⟩
        · intro other member accessed
          rcases List.mem_cons.mp member with rfl | inRest
          · exact absurd empty accessed
          · exact inside other inRest accessed
        · intro page absent
          exact others page (fun inRest => absent (List.mem_cons_of_mem _ inRest))
      · obtain ⟨pacScores, folded, inside, others⟩ :=
          ih restNodup restScored (start.upsert entry.1 (fun _ => score))
        refine ⟨pacScores, by simpa [addScore, empty, given] using folded, ?_, ?_⟩
        · intro other member accessed
          rcases List.mem_cons.mp member with rfl | inRest
          · rw [others other.1 outside, Dict.get?_upsert, if_pos rfl, given]
          · exact inside other inRest accessed
        · intro page absent
          have different : ¬ entry.1 = page := by
            rintro rfl
            exact absent List.mem_cons_self
          rw [others page (fun inRest => absent (List.mem_cons_of_mem _ inRest)),
            Dict.get?_upsert, if_neg different]

/-- The score of a page against its counters: the PAC and the percentages before they are
rounded lie in their ranges.
-/
structure ScoreBounds (mlpEstimate : ℚ) (stats : PageStats) (score : PageScore ℚ) : Prop where
  pac
    : ∃ exact,
        scorePac mlpEstimate stats = some exact
        ∧ score.pac = PyReal.round1 exact
        ∧ stats .latTotSum / (2 * mlpEstimate) ≤ exact
        ∧ exact ≤ stats .latTotSum / mlpEstimate
  llcRefillPct
    : score.llcRefillPct
        = .float (PyReal.round1 (sharePct (stats .llcRefillCount) (stats .accessCount)))
      ∧ 0 ≤ (sharePct (stats .llcRefillCount) (stats .accessCount) : ℚ)
      ∧ (sharePct (stats .llcRefillCount) (stats .accessCount) : ℚ) ≤ 100
  svePct
    : score.svePct = .float (PyReal.round1 (sharePct (stats .sveCount) (stats .accessCount)))
      ∧ 0 ≤ (sharePct (stats .sveCount) (stats .accessCount) : ℚ)
      ∧ (sharePct (stats .sveCount) (stats .accessCount) : ℚ) ≤ 100

/-- A part of the accesses is between none and all of them. -/
theorem sharePct_range {part whole : Nat} (positive : 0 < whole) (le : part ≤ whole)
    : 0 ≤ (sharePct part whole : ℚ) ∧ (sharePct part whole : ℚ) ≤ 100 := by
  have accesses : (0 : ℚ) < whole := Nat.cast_pos.mpr positive
  have share : (part : ℚ) / whole ≤ 1 := (div_le_one accesses).mpr (Nat.cast_le.mpr le)
  have nonneg : (0 : ℚ) ≤ part / whole := div_nonneg (Nat.cast_nonneg _) accesses.le
  change 0 ≤ (part : ℚ) / whole * (100 : Nat) ∧ (part : ℚ) / whole * (100 : Nat) ≤ 100
  norm_num
  constructor
  · linarith
  · linarith

/-- The PAC divides the sum of the latencies by the estimate and by one to two. -/
theorem scorePac_rat {mlpEstimate : ℚ} {stats : PageStats} (accessed : 0 < stats .accessCount)
    (positive : 0 < mlpEstimate)
    : scorePac mlpEstimate stats
      = some (stats .latTotSum
          / (mlpEstimate * (1 + (stats .sveCount : ℚ) / stats .accessCount))) := by
  have accesses : (stats .accessCount : ℚ) ≠ 0 := Nat.cast_ne_zero.mpr accessed.ne'
  have dividend : PyReal.mul (PyFloat.ofNat (stats .accessCount) : ℚ) (avgLatTot stats).toFloat
      = stats .latTotSum := by
    unfold avgLatTot
    split
    case isTrue => exact mul_div_cancel₀ _ accesses
    case isFalse none =>
        have zero : stats .latTotSum = 0 := by omega
        rw [zero]
        exact mul_zero _
  have divisor : effectiveMlp mlpEstimate stats
      = mlpEstimate * (1 + (stats .sveCount : ℚ) / stats .accessCount) := by
    rw [effectiveMlp, sveRatio, if_pos accessed]
    change mlpEstimate * (((1 : Nat) : ℚ) + (stats .sveCount : ℚ) / stats .accessCount
      * (((10 : Nat) : ℚ) / 10 ^ 1)) = _
    norm_num
  have nonzero : mlpEstimate * (1 + (stats .sveCount : ℚ) / stats .accessCount) ≠ 0 := by
    positivity
  rw [scorePac, dividend, divisor]
  exact if_neg nonzero

/-- With the effective estimate between one and two times the given one. -/
theorem scorePac_bounds {mlpEstimate : ℚ} {stats : PageStats} (bounded : stats.Bounded)
    (positive : 0 < mlpEstimate)
    : ∃ exact,
        scorePac mlpEstimate stats = some exact
        ∧ stats .latTotSum / (2 * mlpEstimate) ≤ exact
        ∧ exact ≤ stats .latTotSum / mlpEstimate := by
  have accesses : (0 : ℚ) < stats .accessCount := Nat.cast_pos.mpr bounded.accessed
  have sve : (stats .sveCount : ℚ) / stats .accessCount ≤ 1 :=
    (div_le_one accesses).mpr (Nat.cast_le.mpr (bounded.counts .sveCount (by simp)))
  have nonneg : (0 : ℚ) ≤ stats .sveCount / stats .accessCount :=
    div_nonneg (Nat.cast_nonneg _) accesses.le
  have sum : (0 : ℚ) ≤ stats .latTotSum := Nat.cast_nonneg _
  refine ⟨_, scorePac_rat bounded.accessed positive, ?_, ?_⟩
  · refine div_le_div_of_nonneg_left sum (by positivity) ?_
    nlinarith
  · refine div_le_div_of_nonneg_left sum positive ?_
    nlinarith

theorem scorePage_bounds {mlpEstimate : ℚ} {stats : PageStats} (page : List Char)
    (bounded : stats.Bounded) (positive : 0 < mlpEstimate)
    : ∃ score, scorePage mlpEstimate page stats = some score
        ∧ ScoreBounds mlpEstimate stats score := by
  obtain ⟨exact, given, low, high⟩ := scorePac_bounds bounded positive
  have accessed := bounded.accessed.ne'
  refine ⟨_, by rw [scorePage, given]; rfl, ⟨exact, given, rfl, low, high⟩, ?_, ?_⟩
  · refine ⟨if_neg accessed, sharePct_range bounded.accessed ?_⟩
    exact bounded.counts .llcRefillCount (by simp)
  · refine ⟨if_neg accessed, sharePct_range bounded.accessed ?_⟩
    exact bounded.counts .sveCount (by simp)

/-- Every table that `parse_stream` returns without a limit: the counters of each page keep
their promises, the records are the accesses and the dropped samples, and the scores lie in
their ranges.
-/
theorem parseStream_scores (lines : List (List Char))
    : (∀ entry ∈ (parseStream lines none).pageStats.entries, entry.2.Bounded)
      ∧ (parseStream lines none).recordsParsed
        = ((parseStream lines none).pageStats.entries.map
            (fun entry => entry.2 .accessCount)).sum
          + (streamSamples lines).countP Sample.dropped
      ∧ ∀ mlpEstimate : ℚ, 0 < mlpEstimate
        → ∃ pacScores,
            computePacScores (parseStream lines none).pageStats mlpEstimate = some pacScores
            ∧ ∀ entry ∈ (parseStream lines none).pageStats.entries,
                ∃ score, pacScores.get? entry.1 = some score
                  ∧ ScoreBounds mlpEstimate entry.2 score := by
  have bounded := parseStream_bounded lines
  refine ⟨bounded, parseStream_balance lines, fun mlpEstimate positive => ?_⟩
  have scored : ∀ entry ∈ (parseStream lines none).pageStats.entries,
      scorePage mlpEstimate entry.1 entry.2 ≠ none := by
    intro entry member
    obtain ⟨score, given, _⟩ := scorePage_bounds entry.1 (bounded entry member) positive
    rw [given]
    exact Option.some_ne_none score
  obtain ⟨pacScores, computed, each, _⟩ :=
    foldlM_addScore (parseStream lines none).pageStats.nodup scored .empty
  refine ⟨pacScores, computed, fun entry member => ?_⟩
  obtain ⟨score, given, bounds⟩ := scorePage_bounds entry.1 (bounded entry member) positive
  have accessed := (bounded entry member).accessed
  exact ⟨score, (each entry member accessed.ne').trans given, bounds⟩

end Kumf.Spe
