import Kumf.Spe.Merging

/-! The record limit of `parse_stream`. The loop breaks behind the record that reaches the
limit, with this record still in its hands, so the flush behind the loop counts it once more.
-/

namespace Kumf.Spe

open Kumf.Library PyText

/-- The records with a virtual address that a TS or PC line closes. -/
def completed (lines : List (List Char)) : Nat :=
  (cut (lines.filterMap streamMeaning)).dropLast.countP
    (fun record => (lastOf Packet.va? record).isSome)

/-- The stream up to the line that completes so many records, or all of it. -/
def cutBehind (records : Nat) (seen : List (List Char)) : List (List Char) → List (List Char)
  | [] => seen
  | line :: rest =>
      if completed seen = records then seen else cutBehind records (seen ++ [line]) rest

/-- All valid records of a stream. -/
def validRecords (stream : List (List Char)) : Nat := validCount (stream.filterMap streamMeaning)

/-- The parse with a limit is the parse of the records up to the limit. -/
structure KeepsLimit (stream : List (List Char)) (limit : Nat) : Prop where
  count : (parseStream stream (some limit)).recordsParsed = min limit (validRecords stream)
  table
    : (parseStream stream (some limit)).pageStats
      = (parseStream (cutBehind (min limit (validRecords stream)) [] stream) none).pageStats

-----------------------------------------------------------------------------------------
-- One line with a limit
-----------------------------------------------------------------------------------------

/-- What a line does to the count, the table and the sample. -/
inductive LineStep (state after : ParseState) : Prop
  | goesOn (count : after.recordsParsed = state.recordsParsed)
    (table : after.pageStats = state.pageStats)
  | closes (count : after.recordsParsed = state.recordsParsed + 1)
    (started : sampleIsValid after.currentSample = false)

theorem streamBody_step (state : ParseState) (line : List Char)
    : LineStep state (streamBody state line) := by
  obtain ⟨table, sample, count⟩ := streamBody_tally state line
  cases found : streamMeaning line with
  | none =>
      rw [found] at table count
      exact .goesOn count table
  | some packet =>
      rw [found] at table sample count
      by_cases closes : packet.closes = true
      · have started : sampleIsValid (streamAbsorb state.currentSample packet) = false := by
          cases packet with
          | ts => rfl
          | pc value => rfl
          | _ => cases closes
        simp only [tally, closes, if_true, ParseState.close_recordsParsed,
          ParseState.close_currentSample, ParseState.close_pageStats] at table sample count
        cases valid : sampleIsValid state.currentSample with
        | true =>
            rw [valid] at count
            exact .closes count (sample ▸ started)
        | false =>
            have absent : state.currentSample.va = none := by
              simpa [sampleIsValid] using valid
            rw [valid] at count
            refine .goesOn count (table.trans ?_)
            simp [Sample.item, absent, Dict.collect]
      · simp only [tally, closes, Bool.false_eq_true, if_false] at table count
        exact .goesOn count table

/-- The turn of the loop under a limit, beside the turn without one. -/
inductive LimitedTurn (limit : Nat) (state after : ParseState) : Turn → Prop
  | goesOn (below : after.recordsParsed = state.recordsParsed ∨ after.recordsParsed < limit)
    : LimitedTurn limit state after (.next after)
  | breaks (full : limit ≤ after.recordsParsed)
    (closed : after.recordsParsed = state.recordsParsed + 1)
    (valid : sampleIsValid state.currentSample = true)
    : LimitedTurn limit state after (.stop { after with currentSample := state.currentSample })

theorem closeRecord_limited {limit : Nat} (positive : 1 ≤ limit) (state : ParseState)
    (started : Sample)
    : LimitedTurn limit state (state.close started) (closeRecord (some limit) state started) := by
  unfold closeRecord ParseState.close
  split
  case isTrue valid =>
      have reached : limitReached (some (limit : Int)) (state.recordsParsed + 1)
          = decide (limit ≤ state.recordsParsed + 1) := by
        have nonzero : (limit : Int) ≠ 0 := by omega
        have cast : ((limit : Int) ≤ ((state.recordsParsed + 1 : Nat) : Int))
            ↔ limit ≤ state.recordsParsed + 1 := Int.ofNat_le
        rw [limitReached, decide_eq_true nonzero, Bool.true_and, decide_eq_decide]
        exact cast
      dsimp only
      rw [reached]
      split
      case isTrue full => exact .breaks (of_decide_eq_true full) rfl valid
      case isFalse few => exact .goesOn (.inr (by simpa using few))
  case isFalse => exact .goesOn (.inl rfl)

theorem streamLine_limited {limit : Nat} (positive : 1 ≤ limit) (state : ParseState)
    (line : List Char)
    : LimitedTurn limit state (streamBody state line) (streamLine (some limit) state line) := by
  have both : ∃ after, streamLine none state line = .next after
      ∧ LimitedTurn limit state after (streamLine (some limit) state line) := by
    have close (counted : ParseState) (started : Sample)
        (count : counted.recordsParsed = state.recordsParsed)
        (sample : counted.currentSample = state.currentSample)
        : ∃ after, closeRecord none counted started = .next after
          ∧ LimitedTurn limit state after (closeRecord (some limit) counted started) := by
      refine ⟨_, closeRecord_none counted started, ?_⟩
      have turn := closeRecord_limited positive counted started
      generalize closeRecord (some limit) counted started = taken at turn
      cases turn with
      | goesOn below => exact .goesOn (count ▸ below)
      | breaks full closed valid =>
          rw [count] at closed
          rw [sample] at valid ⊢
          exact .breaks full closed valid
    unfold streamLine
    dsimp only
    split
    · exact ⟨_, rfl, .goesOn (.inl rfl)⟩
    · split
      · exact ⟨_, rfl, .goesOn (.inl rfl)⟩
      · split
        · exact ⟨_, rfl, .goesOn (.inl rfl)⟩
        · split
          · exact ⟨_, rfl, .goesOn (.inl rfl)⟩
          · split
            · exact close _ _ rfl rfl
            · split
              · exact close _ _ rfl rfl
              · exact ⟨_, rfl, .goesOn (.inl rfl)⟩
  obtain ⟨after, unlimited, turn⟩ := both
  rw [streamLine_none] at unlimited
  cases unlimited
  exact turn

-----------------------------------------------------------------------------------------
-- All lines with a limit
-----------------------------------------------------------------------------------------

theorem foldl_recordsParsed_le (lines : List (List Char)) (state : ParseState)
    : state.recordsParsed ≤ (lines.foldl streamBody state).recordsParsed := by
  induction lines generalizing state with
  | nil => exact Nat.le_refl _
  | cons line rest ih =>
      refine Nat.le_trans ?_ (ih (streamBody state line))
      cases streamBody_step state line with
      | goesOn count _ => exact Nat.le_of_eq count.symm
      | closes count _ => omega

/-- Lines that close no record leave the table alone. -/
theorem foldl_pageStats {lines : List (List Char)} {state : ParseState}
    (unclosed : (lines.foldl streamBody state).recordsParsed = state.recordsParsed)
    : (lines.foldl streamBody state).pageStats = state.pageStats := by
  induction lines generalizing state with
  | nil => rfl
  | cons line rest ih =>
      rw [List.foldl_cons] at unclosed ⊢
      have later := foldl_recordsParsed_le rest (streamBody state line)
      cases streamBody_step state line with
      | goesOn count table => exact (ih (unclosed.trans count.symm)).trans table
      | closes count _ => omega

/-- The loop goes through, or it breaks behind the line that closes the last record allowed,
with the sample of this record.
-/
inductive LimitedLoop (limit : Nat) (state : ParseState) (lines : List (List Char))
    : ParseState → Prop
  | through (below : (lines.foldl streamBody state).recordsParsed < limit)
    : LimitedLoop limit state lines (lines.foldl streamBody state)
  | broken (stopped : ParseState) (count : stopped.recordsParsed = limit)
    (valid : sampleIsValid stopped.currentSample = true)
    (reached : limit ≤ (lines.foldl streamBody state).recordsParsed)
    : LimitedLoop limit state lines stopped

theorem streamLoop_limited {limit : Nat} (lines : List (List Char)) {state : ParseState}
    (below : state.recordsParsed < limit)
    : LimitedLoop limit state lines (streamLoop (some limit) state lines) := by
  induction lines generalizing state with
  | nil => exact .through below
  | cons line rest ih =>
      have positive : 1 ≤ limit := by omega
      have turn := streamLine_limited positive state line
      have later := foldl_recordsParsed_le rest (streamBody state line)
      rw [streamLoop]
      generalize streamLine (some limit) state line = taken at turn
      cases turn with
      | goesOn few =>
          have next : (streamBody state line).recordsParsed < limit := by
            rcases few with same | less
            · omega
            · exact less
          have loop := ih next
          dsimp only
          generalize streamLoop (some limit) (streamBody state line) rest = final at loop
          cases loop with
          | through below => exact .through below
          | broken _ count valid reached => exact .broken _ count valid reached
      | breaks full closed valid =>
          dsimp only
          refine .broken _ ?_ valid (full.trans later)
          dsimp only
          omega

theorem samples_ne_nil (absorb : Sample → Packet → Sample) (sample : Sample)
    (sequence : List Packet)
    : samples absorb sample sequence ≠ [] := by
  induction sequence generalizing sample with
  | nil => exact List.cons_ne_nil _ _
  | cons packet rest ih =>
      rw [samples]
      split
      · exact List.cons_ne_nil _ _
      · exact ih _

/-- The loop counts all samples but the last one, by induction on the lines. -/
theorem foldl_samples (lines : List (List Char)) (state : ParseState)
    : (lines.foldl streamBody state).recordsParsed
      = state.recordsParsed
        + (samples streamAbsorb state.currentSample
            (lines.filterMap streamMeaning)).dropLast.countP sampleIsValid := by
  induction lines generalizing state with
  | nil => rfl
  | cons line rest ih =>
      obtain ⟨_, sample, count⟩ := streamBody_tally state line
      rw [List.foldl_cons, ih, sample, count]
      cases found : streamMeaning line with
      | none => simp [tally, found]
      | some packet =>
          rw [List.filterMap_cons_some found]
          by_cases closes : packet.closes = true
          · simp only [tally, samples, closes, if_true, ParseState.close_currentSample,
              ParseState.close_recordsParsed]
            rw [List.dropLast_cons_of_ne_nil (samples_ne_nil _ _ _), List.countP_cons]
            cases sampleIsValid state.currentSample <;> simp [Nat.add_assoc, Nat.add_comm]
          · simp [tally, samples, closes]

/-- The count of the loop is the number of completed records. -/
theorem foldl_recordsParsed (lines : List (List Char))
    : (lines.foldl streamBody {}).recordsParsed = completed lines := by
  have valid := samples_map streamAbsorb_reads (lines.filterMap streamMeaning) sampleIsValid
    (fun _ => rfl)
  have same := congrArg (fun flags => flags.dropLast.countP id) valid
  simp only [← List.map_dropLast, List.countP_map, Function.id_comp] at same
  rw [foldl_samples, completed, Nat.zero_add]
  refine same.trans (List.countP_congr (fun record member => ?_))
  have listed := (List.dropLast_sublist _).subset member
  have va := readRecord_va streamAbsorb_reads (cut_inner record listed)
  simp [sampleIsValid, va]

-----------------------------------------------------------------------------------------
-- The cut stream
-----------------------------------------------------------------------------------------

theorem finish_of_invalid {state : ParseState}
    (invalid : sampleIsValid state.currentSample = false)
    : state.finish.pageStats = state.pageStats
      ∧ state.finish.recordsParsed = state.recordsParsed := by
  unfold ParseState.finish
  rw [if_neg (by simp [invalid])]
  exact ⟨rfl, rfl⟩

/-- A stream that completes fewer records is not cut. -/
theorem cutBehind_whole {records : Nat} {seen lines : List (List Char)}
    (few : completed (seen ++ lines) < records)
    : cutBehind records seen lines = seen ++ lines := by
  induction lines generalizing seen with
  | nil => simp [cutBehind]
  | cons line rest ih =>
      have split : seen ++ line :: rest = seen ++ [line] ++ rest := by simp
      have later := foldl_recordsParsed_le (line :: rest) (seen.foldl streamBody {})
      rw [← List.foldl_append, foldl_recordsParsed, foldl_recordsParsed] at later
      rw [cutBehind, if_neg (by omega), split]
      exact ih (split ▸ few)

/-- Behind the line that completes the last record nothing is added to the table. -/
theorem cutBehind_pageStats {seen lines : List (List Char)}
    (last : sampleIsValid ((seen ++ lines).foldl streamBody {}).currentSample = false)
    (start
      : completed seen = completed (seen ++ lines)
        → sampleIsValid (seen.foldl streamBody {}).currentSample = false)
    : (parseStream (cutBehind (completed (seen ++ lines)) seen lines) none).pageStats
      = ((seen ++ lines).foldl streamBody {}).pageStats := by
  induction lines generalizing seen with
  | nil =>
      rw [List.append_nil] at last ⊢
      rw [cutBehind, parseStream, streamLoop_none, (finish_of_invalid last).1]
  | cons line rest ih =>
      rw [cutBehind]
      split
      case isTrue complete =>
          have unclosed
              : ((line :: rest).foldl streamBody (seen.foldl streamBody {})).recordsParsed
                = (seen.foldl streamBody {}).recordsParsed := by
            rw [← List.foldl_append, foldl_recordsParsed, foldl_recordsParsed, complete]
          rw [parseStream, streamLoop_none, (finish_of_invalid (start complete)).1,
            List.foldl_append, foldl_pageStats unclosed]
      case isFalse incomplete =>
          have split : seen ++ line :: rest = seen ++ [line] ++ rest := by simp
          rw [split] at last start incomplete ⊢
          refine ih last (fun complete => ?_)
          have step := streamBody_step (seen.foldl streamBody {}) line
          rw [← foldl_recordsParsed (seen ++ [line]), List.foldl_append] at complete
          rw [List.foldl_append]
          cases step with
          | goesOn count _ =>
              refine absurd ?_ incomplete
              rw [← complete, ← foldl_recordsParsed seen]
              exact count.symm
          | closes _ started => exact started

/-- All valid records of a stream are the completed ones and perhaps the one at its end. -/
theorem validRecords_eq (stream : List (List Char))
    : validRecords stream
      = completed stream
        + (sampleIsValid (stream.foldl streamBody {}).currentSample).toNat := by
  have whole := (parseStream_counts stream).recordsParsed
  rw [parseStream, streamLoop_none, (ParseState.finish_eq_close _).2,
    ParseState.close_recordsParsed, foldl_recordsParsed] at whole
  exact whole.symm

section
variable {stream : List (List Char)} {limit : Nat}

/-- A limit that the loop does not get to changes nothing. -/
theorem parseStream_below (positive : 1 ≤ limit) (few : completed stream < limit)
    : parseStream stream (some limit) = parseStream stream none := by
  have loop : LimitedLoop limit {} stream (streamLoop (some limit) {} stream) :=
    streamLoop_limited stream positive
  rw [parseStream, parseStream, streamLoop_none]
  generalize streamLoop (some limit) {} stream = final at loop
  cases loop with
  | through below => rfl
  | broken _ _ _ reached =>
      rw [foldl_recordsParsed] at reached
      omega

/-- A loop that breaks leaves the last record in its variables, and the end counts it again. -/
theorem parseStream_reached (positive : 1 ≤ limit) (reached : limit ≤ completed stream)
    : (parseStream stream (some limit)).recordsParsed = limit + 1 := by
  have loop : LimitedLoop limit {} stream (streamLoop (some limit) {} stream) :=
    streamLoop_limited stream positive
  rw [parseStream]
  generalize streamLoop (some limit) {} stream = final at loop
  cases loop with
  | through below =>
      rw [foldl_recordsParsed] at below
      exact absurd below (Nat.not_lt.mpr reached)
  | broken _ stopped valid _ =>
      unfold ParseState.finish
      rw [if_pos valid, ← stopped]

end

/-- All its valid records give the table of the whole stream. -/
theorem parseStream_cutBehind (stream : List (List Char))
    : (parseStream (cutBehind (validRecords stream) [] stream) none).pageStats
      = (parseStream stream none).pageStats := by
  have total := validRecords_eq stream
  cases valid : sampleIsValid (stream.foldl streamBody {}).currentSample with
  | true =>
      rw [valid, Bool.toNat_true] at total
      have whole : cutBehind (validRecords stream) [] stream = [] ++ stream :=
        cutBehind_whole (by rw [List.nil_append, total]; exact Nat.lt_succ_self _)
      rw [whole, List.nil_append]
  | false =>
      rw [valid, Bool.toNat_false, Nat.add_zero] at total
      have behind
          : (parseStream (cutBehind (completed ([] ++ stream)) [] stream) none).pageStats
            = (([] ++ stream).foldl streamBody {}).pageStats :=
        cutBehind_pageStats valid (fun _ => rfl)
      rw [List.nil_append] at behind
      rw [total, behind, parseStream, streamLoop_none, (finish_of_invalid valid).1]

/-- A limit is kept exactly where the loop does not get to it: where fewer records than the
limit are completed by a TS or PC line.
-/
theorem keepsLimit_iff (stream : List (List Char)) (limit : Nat) (positive : 1 ≤ limit)
    : KeepsLimit stream limit ↔ completed stream < limit := by
  constructor
  · intro keeps
    by_contra reached
    have count := keeps.count
    rw [parseStream_reached positive (Nat.le_of_not_lt reached)] at count
    omega
  · intro few
    have all : min limit (validRecords stream) = validRecords stream := by
      have total := validRecords_eq stream
      have one := Bool.toNat_le (sampleIsValid (stream.foldl streamBody {}).currentSample)
      omega
    constructor
    · rw [parseStream_below positive few, all]
      exact (parseStream_counts stream).recordsParsed
    · rw [parseStream_below positive few, all, parseStream_cutBehind]

/-- One record, closed by its time stamp. -/
def oneRecord : List (List Char) := ["VA 0x1000".toList, "TS 7".toList]

theorem keepsLimit_iff_two : KeepsLimit oneRecord 2 ↔ completed oneRecord < 2 :=
  keepsLimit_iff oneRecord 2 (by decide)

/-- With the limit 1 the record is counted twice. -/
theorem oneRecord_twice
    : validRecords oneRecord = 1
      ∧ (parseStream oneRecord (some (1 : Nat))).recordsParsed = 2
      ∧ ((parseStream oneRecord (some (1 : Nat))).pageStats.get? "0x1000".toList).map
          (fun stats => stats .accessCount) = some 2
      ∧ ¬ KeepsLimit oneRecord 1 := by
  have valid : validRecords oneRecord = 1 := by decide
  have counted : (parseStream oneRecord (some (1 : Nat))).recordsParsed = 2 := by decide
  refine ⟨valid, counted, by decide, fun keeps => ?_⟩
  have count := keeps.count
  rw [valid, counted] at count
  exact absurd count (by decide)

end Kumf.Spe
