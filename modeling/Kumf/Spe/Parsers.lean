import Kumf.Spe.PageStats

/-! The two parsers of SPE dumps, `parse_stream` and `_parse_chunk_worker`, and the merge of
the workers' results in `parse_file_parallel`.
-/

namespace Kumf.Spe

open Kumf.Library PyText

/-- The result of a parser. -/
structure Parsed where
  pageStats : StatsTable
  recordsParsed : Nat
  totalLines : Nat

/-- The variables of a parser's loop. -/
structure ParseState where
  pageStats : StatsTable := .empty
  inSpeSection : Bool := false
  currentSample : Sample := {}
  recordsParsed : Nat := 0
  totalLines : Nat := 0

/-- The flush of the last record behind the loop. -/
def ParseState.finish (state : ParseState) : Parsed :=
  if sampleIsValid state.currentSample then
    { pageStats := flushSample state.currentSample state.pageStats
      recordsParsed := state.recordsParsed + 1
      totalLines := state.totalLines }
  else
    { pageStats := state.pageStats
      recordsParsed := state.recordsParsed
      totalLines := state.totalLines }

/-- The branches for an EV packet: the flag of each event that its text contains is set. -/
def setEvents (sample : Sample) (events : List Char) : Sample :=
  { sample with
    llcRefill := contains events "LLC-REFILL".toList || sample.llcRefill
    llcAccess := contains events "LLC-ACCESS".toList || sample.llcAccess
    tlbRefill := contains events "TLB-REFILL".toList || sample.tlbRefill }

/-- `parse_stream` on a LAT packet. -/
def streamLat (sample : Sample) (lat : Nat) (tag : Option (List Char)) : Sample :=
  if tag = some "TOT".toList then { sample with latTot := some lat }
  else if tag = some "ISSUE".toList then { sample with latIssue := some lat }
  else if tag = some "XLAT".toList then { sample with latXlat := some lat }
  else { sample with lat9e := some lat }

/-- `parse_stream` on an EV packet. -/
def streamEv (sample : Sample) (events : List Char) : Sample :=
  setEvents { sample with ev := some events } events

/-- `parse_stream` on an LD or ST packet. -/
def streamOp (sample : Sample) (type reg : List Char) : Sample :=
  { sample with
    op := some (type ++ '_' :: reg)
    isLoad := type = "LD".toList || sample.isLoad
    isStore := type = "ST".toList || sample.isStore
    isSve := reg ∈ ["SIMD-FP".toList, "SVE".toList, "NEON".toList] || sample.isSve }

/-- The part of the loop of `parse_stream` behind the TS and PC branches. -/
def streamPacket (sample : Sample) (line : List Char) : Sample :=
  match reVa.search line with
  | some va => { sample with va := some va }
  | none =>
      match reLat.search line with
      | some (digits, tag) => streamLat sample (int digits) tag
      | none =>
          match reEv.search line with
          | some events => streamEv sample events
          | none =>
              match reOp.search line with
              | some (type, reg) => streamOp sample type reg
              | none => sample

/-- A turn of the loop goes on or breaks. -/
inductive Turn where
  | next (state : ParseState)
  | stop (state : ParseState)

/-- `max_records and records_parsed >= max_records` -/
def limitReached (maxRecords : Option Int) (recordsParsed : Nat) : Bool :=
  match maxRecords with
  | some limit => limit ≠ 0 && limit ≤ recordsParsed
  | none => false

/-- The TS and PC branches of `parse_stream`, with the sample that they start. -/
def closeRecord (maxRecords : Option Int) (state : ParseState) (started : Sample) : Turn :=
  if sampleIsValid state.currentSample then
    let state := { state with
      pageStats := flushSample state.currentSample state.pageStats
      recordsParsed := state.recordsParsed + 1 }
    if limitReached maxRecords state.recordsParsed then
      .stop state
    else
      .next { state with currentSample := started }
  else
    .next { state with currentSample := started }

/-- The body of the loop of `parse_stream`. -/
def streamLine (maxRecords : Option Int) (state : ParseState) (line : List Char) : Turn :=
  let line := strip line
  let state := { state with totalLines := state.totalLines + 1 }
  if line = [] then
    .next state
  else if (reAuxtrace.search line).isSome then
    .next { state with inSpeSection := true }
  else if endsSection line then
    .next { state with inSpeSection := false }
  else if !state.inSpeSection && !isSpePacket line then
    .next state
  else
    let state := { state with inSpeSection := true }
    match reTs.search line with
    | some _ => closeRecord maxRecords state {}
    | none =>
        match rePc.search line with
        | some pc => closeRecord maxRecords state { pc := some pc }
        | none => .next { state with currentSample := streamPacket state.currentSample line }

def streamLoop (maxRecords : Option Int) : ParseState → List (List Char) → ParseState
  | state, [] => state
  | state, line :: rest =>
      match streamLine maxRecords state line with
      | .next state => streamLoop maxRecords state rest
      | .stop state => state

/-- `parse_stream` -/
def parseStream (stream : List (List Char)) (maxRecords : Option Int) : Parsed :=
  (streamLoop maxRecords {} stream).finish

/-- `_parse_chunk_worker` on a LAT packet. -/
def workerLat (sample : Sample) (val : Nat) (tag : Option (List Char)) : Sample :=
  if tag = some "TOT".toList then { sample with latTot := some val }
  else if tag = some "ISSUE".toList then { sample with latIssue := some val }
  else if tag = some "XLAT".toList then
    { sample with latXlat := some (sample.latXlat.getD 0 + val) }
  else
    { sample with
      lat9eMax :=
        if sample.lat9eMax = none ∨ sample.lat9eMax.getD 0 < val then some val
        else sample.lat9eMax
      lat9eCount := some (sample.lat9eCount.getD 0 + 1)
      lat9eSum := some (sample.lat9eSum.getD 0 + val) }

/-- `_parse_chunk_worker` on an LD or ST packet. -/
def workerOp (sample : Sample) (type data : List Char) : Sample :=
  { sample with
    op :=
      if type = "LD".toList then some "LD".toList
      else if type = "ST".toList then some "ST".toList
      else sample.op
    sve := contains data "SIMD".toList || contains data "SVE".toList || sample.sve }

/-- The part of the loop of `_parse_chunk_worker` behind the TS and PC branches. -/
def workerPacket (sample : Sample) (line : List Char) : Sample :=
  match reVa.search line with
  | some va => { sample with va := some va }
  | none =>
      match reLat.search line with
      | some (digits, tag) => workerLat sample (int digits) tag
      | none =>
          match reEv.search line with
          | some events => setEvents sample events
          | none =>
              match reOp.search line with
              | some (type, data) => workerOp sample type data
              | none => sample

/-- The TS and PC branches of `_parse_chunk_worker`, with the sample that they start. -/
def ParseState.close (state : ParseState) (started : Sample) : ParseState :=
  if sampleIsValid state.currentSample then
    { state with
      pageStats := flushSample state.currentSample state.pageStats
      recordsParsed := state.recordsParsed + 1
      currentSample := started }
  else
    { state with currentSample := started }

/-- The body of the loop of `_parse_chunk_worker`. -/
def workerLine (state : ParseState) (line : List Char) : ParseState :=
  let line := strip line
  let state := { state with totalLines := state.totalLines + 1 }
  if line = [] then
    state
  else
    match reTs.search line with
    | some _ => state.close {}
    | none =>
        if !isSpePacket line then
          state
        else
          match rePc.search line with
          | some pc => state.close { pc := some pc }
          | none => { state with currentSample := workerPacket state.currentSample line }

/-- `_parse_chunk_worker` on the decoded bytes of its chunk. -/
def parseChunkWorker (data : List Char) : Parsed :=
  ((data.splitOn '\n').foldl workerLine { inSpeSection := true }).finish

/-- `m[k] += s[k]` for all keys. -/
def PageStats.add (left right : PageStats) : PageStats := fun key => left key + right key

/-- The merge of one worker's result in `parse_file_parallel`. -/
def mergeResult (merged result : Parsed) : Parsed where
  pageStats :=
    Dict.collect PageStats.add PageStats.zero merged.pageStats result.pageStats.entries
  recordsParsed := merged.recordsParsed + result.recordsParsed
  totalLines := merged.totalLines + result.totalLines

/-- The merge of all workers' results. -/
def mergeResults (results : List Parsed) : Parsed :=
  results.foldl mergeResult { pageStats := .empty, recordsParsed := 0, totalLines := 0 }

end Kumf.Spe
