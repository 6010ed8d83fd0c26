import Kumf.Spe.Records

/-! The loops of both parsers take the packets off their lines: headers, blank lines and
other text change nothing that is counted.
-/

namespace Kumf.Spe

open Kumf.Library PyText

theorem streamAbsorb_reads : ReadsRecords streamAbsorb where
  ts := fun _ => rfl
  pc := fun _ _ => rfl
  keepsPc := by
    intro sample pc packet inner
    cases packet with
    | ts => cases inner
    | pc value => cases inner
    | va value => rfl
    | lat value tag =>
        simp only [streamAbsorb, streamLat]
        split_ifs <;> rfl
    | ev events => rfl
    | op type reg => rfl
  va := by
    intro sample packet inner
    cases packet with
    | ts => cases inner
    | pc value => cases inner
    | va value => rfl
    | lat value tag =>
        simp only [streamAbsorb, streamLat, Packet.va?]
        split_ifs <;> rfl
    | ev events => rfl
    | op type reg => rfl

theorem workerAbsorb_reads : ReadsRecords workerAbsorb where
  ts := fun _ => rfl
  pc := fun _ _ => rfl
  keepsPc := by
    intro sample pc packet inner
    cases packet with
    | ts => cases inner
    | pc value => cases inner
    | va value => rfl
    | lat value tag =>
        simp only [workerAbsorb, workerLat]
        split_ifs <;> rfl
    | ev events => rfl
    | op type data => rfl
  va := by
    intro sample packet inner
    cases packet with
    | ts => cases inner
    | pc value => cases inner
    | va value => rfl
    | lat value tag =>
        simp only [workerAbsorb, workerLat, Packet.va?]
        split_ifs <;> rfl
    | ev events => rfl
    | op type data => rfl

-----------------------------------------------------------------------------------------
-- Each loop body does to its state what the packet of the line does
-----------------------------------------------------------------------------------------

/-- The body of the loop of `parse_stream` without a limit, which never breaks. -/
def streamBody (state : ParseState) (line : List Char) : ParseState :=
  match streamLine none state line with
  | .next state => state
  | .stop state => state

theorem closeRecord_none (state : ParseState) (started : Sample)
    : closeRecord none state started = .next (state.close started) := by
  simp only [closeRecord, ParseState.close, limitReached, Bool.false_eq_true, if_false]
  split <;> rfl

theorem streamLine_none (state : ParseState) (line : List Char)
    : streamLine none state line = .next (streamBody state line) := by
  have goesOn : ∃ after, streamLine none state line = .next after := by
    unfold streamLine
    simp only [closeRecord_none]
    split
    · exact ⟨_, rfl⟩
    · split
      · exact ⟨_, rfl⟩
      · split
        · exact ⟨_, rfl⟩
        · split
          · exact ⟨_, rfl⟩
          · split
            · exact ⟨_, rfl⟩
            · split <;> exact ⟨_, rfl⟩
  obtain ⟨after, same⟩ := goesOn
  simp [streamBody, same]

/-- Without a limit the loop is a fold over the lines. -/
theorem streamLoop_none (state : ParseState) (lines : List (List Char))
    : streamLoop none state lines = lines.foldl streamBody state := by
  induction lines generalizing state with
  | nil => rfl
  | cons line lines ih => simp [streamLoop, streamLine_none, ih]

theorem packet?_nil : packet? [] = none := by
  decide

/-- Behind the TS and PC branches a line does what its packet does. -/
theorem streamPacket_eq (sample : Sample) {line : List Char} (notTs : reTs.search line = none)
    (notPc : rePc.search line = none)
    : match packet? line with
      | some packet =>
          packet.closes = false ∧ streamPacket sample line = streamAbsorb sample packet
      | none => streamPacket sample line = sample := by
  cases va : reVa.search line <;> cases lat : reLat.search line
    <;> cases ev : reEv.search line <;> cases op : reOp.search line
    <;> simp [packet?, streamPacket, streamAbsorb, notTs, notPc, va, lat, ev, op,
      Packet.closes]

/-- The branches of the worker, by the packet of the line. -/
theorem workerPacket_eq (sample : Sample) {line : List Char} (notTs : reTs.search line = none)
    (notPc : rePc.search line = none)
    : match packet? line with
      | some packet =>
          packet.closes = false ∧ workerPacket sample line = workerAbsorb sample packet
      | none => workerPacket sample line = sample := by
  cases va : reVa.search line <;> cases lat : reLat.search line
    <;> cases ev : reEv.search line <;> cases op : reOp.search line
    <;> simp [packet?, workerPacket, workerAbsorb, notTs, notPc, va, lat, ev, op,
      Packet.closes]

/-- Two states that a later step cannot tell apart. -/
structure SameTally (left right : ParseState) : Prop where
  pageStats : left.pageStats = right.pageStats
  currentSample : left.currentSample = right.currentSample
  recordsParsed : left.recordsParsed = right.recordsParsed

/-- Closing a record keeps two tallies the same. -/
theorem SameTally.close {left right : ParseState} (same : SameTally left right)
    (started : Sample)
    : SameTally (left.close started) (right.close started) where
  pageStats := by
    rw [ParseState.close_pageStats, ParseState.close_pageStats, same.pageStats,
      same.currentSample]
  currentSample := by
    rw [ParseState.close_currentSample, ParseState.close_currentSample]
  recordsParsed := by
    rw [ParseState.close_recordsParsed, ParseState.close_recordsParsed, same.recordsParsed,
      same.currentSample]

/-- A line with a time stamp closes a record. -/
theorem packet?_ts {line digits : List Char} (ts : reTs.search line = some digits)
    : packet? line = some .ts := by
  simp [packet?, ts]

/-- A line with a PC and no time stamp is a PC packet. -/
theorem packet?_pc {line pc : List Char} (notTs : reTs.search line = none)
    (found : rePc.search line = some pc)
    : packet? line = some (.pc pc) := by
  simp [packet?, notTs, found]

/-- A line of the worker counts what its packet says. -/
theorem workerLine_tally (state : ParseState) (line : List Char)
    : SameTally (workerLine state line) (tally workerAbsorb state (packet? (strip line))) := by
  unfold workerLine
  generalize strip line = line
  have counted : SameTally { state with totalLines := state.totalLines + 1 } state :=
    ⟨rfl, rfl, rfl⟩
  dsimp only
  split
  case isTrue blank =>
      rw [blank, packet?_nil]
      exact counted
  case isFalse =>
      cases ts : reTs.search line with
      | some digits =>
          rw [packet?_ts ts]
          exact counted.close {}
      | none =>
          rw [isSpePacket_eq]
          cases pc : rePc.search line with
          | some value =>
              rw [packet?_pc ts pc]
              exact counted.close { pc := some value }
          | none =>
              have inner := workerPacket_eq state.currentSample ts pc
              cases found : packet? line with
              | none => exact counted
              | some packet =>
                  rw [found] at inner
                  obtain ⟨goesOn, absorbed⟩ := inner
                  simp only [Option.isSome_some, Bool.not_true, Bool.false_eq_true, if_false,
                    tally, goesOn, absorbed]
                  exact ⟨rfl, rfl, rfl⟩

/-- The packet branches of `parse_stream`. -/
theorem streamBranches_tally {counted state : ParseState} (same : SameTally counted state)
    (line : List Char)
    : SameTally
        (match
          (match reTs.search line with
          | some _ => Turn.next (counted.close {})
          | none =>
              match rePc.search line with
              | some pc => .next (counted.close { pc := some pc })
              | none =>
                  .next { counted with
                    currentSample := streamPacket counted.currentSample line }) with
        | .next state => state
        | .stop state => state)
        (tally streamAbsorb state (packet? line)) := by
  cases ts : reTs.search line with
  | some digits =>
      rw [packet?_ts ts]
      exact same.close {}
  | none =>
      cases pc : rePc.search line with
      | some value =>
          rw [packet?_pc ts pc]
          exact same.close { pc := some value }
      | none =>
          have inner := streamPacket_eq counted.currentSample ts pc
          cases found : packet? line with
          | none =>
              rw [found] at inner
              exact ⟨same.pageStats, inner.trans same.currentSample, same.recordsParsed⟩
          | some packet =>
              rw [found] at inner
              obtain ⟨goesOn, absorbed⟩ := inner
              rw [same.currentSample] at absorbed
              simp only [tally, goesOn, Bool.false_eq_true, if_false]
              refine ⟨same.pageStats, ?_, same.recordsParsed⟩
              rw [← absorbed, same.currentSample]

/-- `parse_stream` skips headers, and other lines that are no packets in any section. -/
theorem streamBody_tally (state : ParseState) (line : List Char)
    : SameTally (streamBody state line) (tally streamAbsorb state (streamMeaning line)) := by
  unfold streamBody streamLine streamMeaning isHeader
  generalize strip line = line
  simp only [closeRecord_none]
  by_cases blank : line = []
  · have meaning : (if ((reAuxtrace.search line).isSome || endsSection line) = true then none
        else packet? line) = none := by
      rw [blank]
      decide
    rw [if_pos blank, meaning]
    exact ⟨rfl, rfl, rfl⟩
  · rw [if_neg blank]
    by_cases auxtrace : (reAuxtrace.search line).isSome = true
    · simp only [auxtrace, Bool.true_or, if_true]
      exact ⟨rfl, rfl, rfl⟩
    · by_cases ends : endsSection line = true
      · simp only [auxtrace, ends, Bool.or_true, if_true, if_false, Bool.false_eq_true]
        exact ⟨rfl, rfl, rfl⟩
      · simp only [auxtrace, ends, Bool.or_false, if_false, Bool.false_eq_true]
        by_cases skipped : (!state.inSpeSection && !isSpePacket line) = true
        · have noPacket : packet? line = none := by
            rw [isSpePacket_eq] at skipped
            simpa using (Bool.and_eq_true_iff.mp skipped).2
          rw [if_pos skipped, noPacket]
          exact ⟨rfl, rfl, rfl⟩
        · have counted : SameTally
              { state with inSpeSection := true, totalLines := state.totalLines + 1 } state :=
            ⟨rfl, rfl, rfl⟩
          rw [if_neg skipped]
          exact streamBranches_tally counted line

/-- The worker reads its lines as packets. -/
theorem worker_reads
    : Reads workerAbsorb (fun line => packet? (strip line)) workerLine where
  pageStats := fun state line => (workerLine_tally state line).pageStats
  currentSample := fun state line => (workerLine_tally state line).currentSample
  recordsParsed := fun state line => (workerLine_tally state line).recordsParsed

/-- `parse_stream` reads its lines as packets. -/
theorem stream_reads : Reads streamAbsorb streamMeaning streamBody where
  pageStats := fun state line => (streamBody_tally state line).pageStats
  currentSample := fun state line => (streamBody_tally state line).currentSample
  recordsParsed := fun state line => (streamBody_tally state line).recordsParsed

/-- `parse_stream` without a limit counts the records of the lines that are no headers. -/
theorem parseStream_counts (lines : List (List Char))
    : CountsRecords streamAbsorb (cut (lines.filterMap streamMeaning))
        (parseStream lines none) := by
  rw [parseStream, streamLoop_none]
  exact stream_reads.counts streamAbsorb_reads lines rfl rfl rfl

/-- `_parse_chunk_worker` counts the records of the lines of its chunk. -/
theorem parseChunkWorker_counts {lines : List (List Char)}
    (plain : ∀ line ∈ lines, '\n' ∉ line)
    : CountsRecords workerAbsorb (cut (packets lines)) (parseChunkWorker (unlines lines)) := by
  have same : (lines ++ [[]]).filterMap (fun line => packet? (strip line)) = packets lines := by
    have blank : packet? (strip []) = none := packet?_nil
    simp [packets, blank]
  rw [parseChunkWorker, splitOn_unlines plain, ← same]
  exact worker_reads.counts workerAbsorb_reads (lines ++ [[]]) rfl rfl rfl

end Kumf.Spe
