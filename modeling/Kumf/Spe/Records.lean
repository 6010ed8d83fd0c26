import Kumf.Spe.Parsers

/-! Both parsers cut the packets of a dump into records and count each record by itself: a
parser is a way to read one record, and its result the collection of what the records give.
-/

namespace Kumf.Spe

open Kumf.Library PyText

/-- TS and PC packets end the record before them. -/
def Packet.closes : Packet → Bool
  | .ts => true
  | .pc _ => true
  | _ => false

/-- `parse_stream` on the packets of a record; a TS or PC packet starts a new sample. -/
def streamAbsorb (sample : Sample) : Packet → Sample
  | .ts => {}
  | .pc value => { pc := some value }
  | .va value => { sample with va := some value }
  | .lat value tag => streamLat sample value tag
  | .ev events => streamEv sample events
  | .op type reg => streamOp sample type reg

/-- `_parse_chunk_worker` on the packets of a record. -/
def workerAbsorb (sample : Sample) : Packet → Sample
  | .ts => {}
  | .pc value => { pc := some value }
  | .va value => { sample with va := some value }
  | .lat value tag => workerLat sample value tag
  | .ev events => setEvents sample events
  | .op type data => workerOp sample type data

/-- The packets of some lines. -/
def packets (lines : List (List Char)) : List Packet :=
  lines.filterMap (fun line => packet? (strip line))

/-- The packet that `parse_stream` sees in a line. -/
def streamMeaning (line : List Char) : Option Packet :=
  if isHeader (strip line) then none else packet? (strip line)

/-- The records of a packet sequence, without the packets that close them. -/
def cut : List Packet → List (List Packet)
  | [] => [[]]
  | packet :: rest =>
      if packet.closes then
        [] :: cut rest
      else
        match cut rest with
        | [] => [[packet]]
        | record :: later => (packet :: record) :: later

theorem cut_ne_nil (sequence : List Packet) : cut sequence ≠ [] := by
  cases sequence with
  | nil => simp [cut]
  | cons packet rest =>
      by_cases closes : packet.closes = true
      · simp [cut, closes]
      · cases later : cut rest <;> simp [cut, closes, later]

/-- A record holds no closing packet. -/
theorem cut_inner {sequence : List Packet}
    : ∀ record ∈ cut sequence, ∀ packet ∈ record, packet.closes = false := by
  induction sequence with
  | nil => simp [cut]
  | cons packet rest ih =>
      intro record member
      by_cases closes : packet.closes = true
      · simp only [cut, closes, if_true, List.mem_cons] at member
        rcases member with rfl | later
        · simp
        · exact ih record later
      · have inner := Bool.eq_false_of_not_eq_true closes
        obtain ⟨first, later, split⟩ := List.exists_cons_of_ne_nil (cut_ne_nil rest)
        simp only [cut, closes, Bool.false_eq_true, if_false, split, List.mem_cons] at member
        rcases member with rfl | other
        · intro other inRecord
          rcases List.mem_cons.mp inRecord with rfl | inFirst
          · exact inner
          · exact ih first (by simp [split]) other inFirst
        · exact ih record (by simp [split, other])

/-- A TS packet separates the records before it from those behind it. -/
theorem cut_append_ts (front back : List Packet)
    : cut (front ++ .ts :: back) = cut front ++ cut back := by
  induction front with
  | nil => simp [cut, Packet.closes]
  | cons packet front ih =>
      obtain ⟨first, later, split⟩ := List.exists_cons_of_ne_nil (cut_ne_nil front)
      by_cases closes : packet.closes = true
      · simp [cut, closes, ih]
      · simp [cut, closes, ih, split]

-----------------------------------------------------------------------------------------
-- Samples become items of the page table
-----------------------------------------------------------------------------------------

/-- The page of a virtual address, unless `_flush_sample` drops it. -/
def pageKey (va : List Char) : Option (List Char) :=
  if isKernel va then none else (intHex va).map (fun va => hex (va / 4096 * 4096))

/-- The item that a sample adds to the page table, if any. -/
def Sample.item (sample : Sample) : Option (List Char × PageStats) :=
  (sample.va.bind pageKey).map (fun page => (page, sample.contribution))

/-- `_flush_sample` adds the item of the sample. -/
theorem flushSample_eq (sample : Sample) (pageStats : StatsTable)
    : flushSample sample pageStats
      = Dict.collect PageStats.combine PageStats.zero pageStats sample.item.toList := by
  cases va : sample.va with
  | none => simp [flushSample, Sample.item, va, Dict.collect]
  | some text =>
      by_cases kernel : isKernel text = true
      · simp [flushSample, Sample.item, va, pageKey, kernel, Dict.collect]
      · cases value : intHex text with
        | none => simp [flushSample, Sample.item, va, pageKey, kernel, value, Dict.collect]
        | some address =>
            simp [flushSample, Sample.item, va, pageKey, kernel, value, Dict.collect,
              PageStats.addSample_eq]

/-- What a parser reads from the records of a packet sequence, the first of which goes on
from a given sample.
-/
def samples (absorb : Sample → Packet → Sample) (sample : Sample) : List Packet → List Sample
  | [] => [sample]
  | packet :: rest =>
      if packet.closes then
        sample :: samples absorb (absorb sample packet) rest
      else
        samples absorb (absorb sample packet) rest

/-- A packet closes the current record or goes into it. -/
def tally (absorb : Sample → Packet → Sample) (state : ParseState)
    : Option Packet → ParseState
  | none => state
  | some packet =>
      if packet.closes then
        state.close (absorb state.currentSample packet)
      else
        { state with currentSample := absorb state.currentSample packet }

/-- A loop body that does to the table, the sample and the count what `tally` does. -/
structure Reads (absorb : Sample → Packet → Sample) (meaning : List Char → Option Packet)
    (body : ParseState → List Char → ParseState) : Prop where
  pageStats
    : ∀ state line,
        (body state line).pageStats = (tally absorb state (meaning line)).pageStats
  currentSample
    : ∀ state line,
        (body state line).currentSample = (tally absorb state (meaning line)).currentSample
  recordsParsed
    : ∀ state line,
        (body state line).recordsParsed = (tally absorb state (meaning line)).recordsParsed

theorem ParseState.close_pageStats (state : ParseState) (started : Sample)
    : (state.close started).pageStats
      = Dict.collect PageStats.combine PageStats.zero state.pageStats
          state.currentSample.item.toList := by
  rw [← flushSample_eq]
  unfold ParseState.close
  split
  · rfl
  case isFalse invalid =>
      have absent : state.currentSample.va = none := by
        simpa [sampleIsValid] using invalid
      simp [flushSample, absent]

theorem ParseState.close_recordsParsed (state : ParseState) (started : Sample)
    : (state.close started).recordsParsed
      = state.recordsParsed + (sampleIsValid state.currentSample).toNat := by
  unfold ParseState.close
  split
  case isTrue valid => simp [valid]
  case isFalse invalid => simp [invalid]

theorem ParseState.close_currentSample (state : ParseState) (started : Sample)
    : (state.close started).currentSample = started := by
  unfold ParseState.close
  split <;> rfl

theorem ParseState.finish_eq_close (state : ParseState)
    : state.finish.pageStats = (state.close {}).pageStats
      ∧ state.finish.recordsParsed = (state.close {}).recordsParsed := by
  unfold ParseState.finish ParseState.close
  split <;> exact ⟨rfl, rfl⟩

/-- The result of a loop over lines: the items of all samples are collected and the valid
ones counted, by induction on the lines.
-/
theorem Reads.run {absorb : Sample → Packet → Sample} {meaning : List Char → Option Packet}
    {body : ParseState → List Char → ParseState} (reads : Reads absorb meaning body)
    (lines : List (List Char)) (state : ParseState)
    : (lines.foldl body state).finish.pageStats
        = Dict.collect PageStats.combine PageStats.zero state.pageStats
            ((samples absorb state.currentSample (lines.filterMap meaning)).filterMap
              Sample.item)
      ∧ (lines.foldl body state).finish.recordsParsed
        = state.recordsParsed
          + (samples absorb state.currentSample (lines.filterMap meaning)).countP
              sampleIsValid := by
  induction lines generalizing state with
  | nil =>
      obtain ⟨table, count⟩ := state.finish_eq_close
      simp only [List.foldl_nil, List.filterMap_nil, samples, table, count,
        ParseState.close_pageStats, ParseState.close_recordsParsed]
      constructor
      · cases item : state.currentSample.item <;> simp [item]
      · cases valid : sampleIsValid state.currentSample <;> simp [valid]
  | cons line lines ih =>
      obtain ⟨table, count⟩ := ih (body state line)
      rw [List.foldl_cons, table, count, reads.pageStats, reads.currentSample,
        reads.recordsParsed]
      cases found : meaning line with
      | none => simp [tally, found]
      | some packet =>
          rw [List.filterMap_cons_some found]
          by_cases closes : packet.closes = true
          · simp only [tally, samples, closes, if_true, ParseState.close_pageStats,
              ParseState.close_currentSample, ParseState.close_recordsParsed]
            constructor
            · cases item : state.currentSample.item <;> simp [item, Dict.collect]
            · cases valid : sampleIsValid state.currentSample
                <;> simp [valid, Nat.add_assoc, Nat.add_comm]
          · simp [tally, samples, closes]

-----------------------------------------------------------------------------------------
-- A result depends on the records only
-----------------------------------------------------------------------------------------

/-- The last thing of some kind that a record says. -/
def lastOf {α : Type} (view : Packet → Option α) (record : List Packet) : Option α :=
  (record.filterMap view).getLast?

def Packet.va? : Packet → Option (List Char)
  | .va value => some value
  | _ => none

/-- The page that a record counts for, if any. -/
def pageOf (record : List Packet) : Option (List Char) :=
  (lastOf Packet.va? record).bind pageKey

/-- The records that count for a page. -/
def onPage (page : List Char) (records : List (List Packet)) : List (List Packet) :=
  records.filter (fun record => pageOf record = some page)

theorem onPage_cons (page : List Char) (record : List Packet) (records : List (List Packet))
    : onPage page (record :: records)
      = if pageOf record = some page then record :: onPage page records
        else onPage page records := by
  by_cases here : pageOf record = some page <;> simp [onPage, here]

/-- The sample of a record. -/
def readRecord (absorb : Sample → Packet → Sample) (record : List Packet) : Sample :=
  record.foldl absorb {}

/-- How a parser must treat packets for its records to be independent of each other. -/
structure ReadsRecords (absorb : Sample → Packet → Sample) : Prop where
  ts : ∀ sample, absorb sample .ts = {}
  pc : ∀ sample value, absorb sample (.pc value) = { pc := some value }
  keepsPc
    : ∀ sample pc packet,
        packet.closes = false
        → absorb { sample with pc } packet = { absorb sample packet with pc }
  va
    : ∀ sample packet,
        packet.closes = false
        → (absorb sample packet).va = packet.va?.or sample.va

/-- A field that each packet overwrites or leaves alone holds what was said last. -/
theorem foldl_lastOf {α : Type} {absorb : Sample → Packet → Sample}
    {field : Sample → Option α}
    {view : Packet → Option α}
    (overwrites : ∀ sample packet, packet.closes = false →
      field (absorb sample packet) = (view packet).or (field sample))
    {record : List Packet} (inner : ∀ packet ∈ record, packet.closes = false)
    (sample : Sample)
    : field (record.foldl absorb sample) = (lastOf view record).or (field sample) := by
  induction record generalizing sample with
  | nil => simp [lastOf]
  | cons packet record ih =>
      have rest := ih (fun other member => inner other (List.mem_cons_of_mem packet member))
        (absorb sample packet)
      rw [List.foldl_cons, rest, overwrites sample packet (inner packet List.mem_cons_self)]
      cases said : view packet with
      | none => simp [lastOf, said]
      | some value =>
          cases later : (record.filterMap view).getLast? <;>
            simp [lastOf, said, later, List.getLast?_cons]

/-- A sample without its `pc`, which nothing reads. -/
def Sample.withoutPc (sample : Sample) : Sample := { sample with pc := none }

theorem foldl_keepsPc {absorb : Sample → Packet → Sample} (reads : ReadsRecords absorb)
    {record : List Packet} (inner : ∀ packet ∈ record, packet.closes = false)
    (sample : Sample) (pc : Option (List Char))
    : record.foldl absorb { sample with pc } = { record.foldl absorb sample with pc } := by
  induction record generalizing sample with
  | nil => rfl
  | cons packet record ih =>
      rw [List.foldl_cons, List.foldl_cons,
        reads.keepsPc sample pc packet (inner packet List.mem_cons_self)]
      exact ih (fun other member => inner other (List.mem_cons_of_mem packet member)) _

/-- The samples of a packet sequence are those of its records, by induction on the sequence;
only the first record goes on from the given sample.
-/
theorem samples_cut {absorb : Sample → Packet → Sample} (reads : ReadsRecords absorb)
    (sequence : List Packet) (sample : Sample)
    : ∃ first later, cut sequence = first :: later
      ∧ (samples absorb sample sequence).map Sample.withoutPc
        = (first.foldl absorb sample).withoutPc
          :: later.map (fun record => (readRecord absorb record).withoutPc) := by
  induction sequence generalizing sample with
  | nil => exact ⟨[], [], rfl, rfl⟩
  | cons packet rest ih =>
      obtain ⟨first, later, split, same⟩ := ih (absorb sample packet)
      by_cases closes : packet.closes = true
      · refine ⟨[], cut rest, by simp [cut, closes], ?_⟩
        have inner := cut_inner first (by rw [split]; exact List.mem_cons_self)
        have restart : (first.foldl absorb (absorb sample packet)).withoutPc
            = (readRecord absorb first).withoutPc := by
          cases packet with
          | ts => rw [reads.ts, readRecord]
          | pc value =>
              rw [reads.pc, readRecord, foldl_keepsPc reads inner {} (some value)]
              rfl
          | _ => cases closes
        simp [samples, closes, same, split, restart]
      · refine ⟨packet :: first, later, by simp [cut, closes, split], ?_⟩
        simp [samples, closes, same]

/-- From an empty sample, all records are read alike. -/
theorem samples_map {α : Type} {absorb : Sample → Packet → Sample}
    (reads : ReadsRecords absorb)
    (sequence : List Packet) (f : Sample → α) (blind : ∀ sample, f sample.withoutPc = f sample)
    : (samples absorb {} sequence).map f
      = (cut sequence).map (fun record => f (readRecord absorb record)) := by
  obtain ⟨first, later, split, same⟩ := samples_cut reads sequence {}
  have mapped := congrArg (List.map f) same
  simp only [List.map_map, List.map_cons, Function.comp_def, blind] at mapped
  rw [mapped, split]
  rfl

/-- A parsed dump: the counters of a page are those of the records on it, put together in
order, and the number of records is that of the records with a virtual address.
-/
structure CountsRecords (absorb : Sample → Packet → Sample) (records : List (List Packet))
    (parsed : Parsed) : Prop where
  pageStats
    : ∀ page,
        parsed.pageStats.get? page
        = Dict.total PageStats.combine PageStats.zero
            ((onPage page records).map (fun record => (readRecord absorb record).contribution))
  recordsParsed
    : parsed.recordsParsed = records.countP (fun record => (lastOf Packet.va? record).isSome)

theorem readRecord_va {absorb : Sample → Packet → Sample} (reads : ReadsRecords absorb)
    {record : List Packet} (inner : ∀ packet ∈ record, packet.closes = false)
    : (readRecord absorb record).va = lastOf Packet.va? record := by
  rw [readRecord, foldl_lastOf reads.va inner, Option.or_none]

theorem readRecord_item {absorb : Sample → Packet → Sample} (reads : ReadsRecords absorb)
    {record : List Packet} (inner : ∀ packet ∈ record, packet.closes = false)
    : (readRecord absorb record).item
      = (pageOf record).map (fun page => (page, (readRecord absorb record).contribution)) := by
  rw [Sample.item, readRecord_va reads inner, pageOf]

/-- The items for a page are the contributions of the records on it. -/
theorem valuesAt_items {absorb : Sample → Packet → Sample} (reads : ReadsRecords absorb)
    {records : List (List Packet)}
    (inner : ∀ record ∈ records, ∀ packet ∈ record, packet.closes = false)
    (page : List Char)
    : Dict.valuesAt page (records.filterMap (fun record => (readRecord absorb record).item))
      = (onPage page records).map (fun record => (readRecord absorb record).contribution) := by
  induction records with
  | nil => rfl
  | cons record records ih =>
      have rest := ih (fun other member => inner other (List.mem_cons_of_mem record member))
      have item := readRecord_item reads (inner record List.mem_cons_self)
      cases found : pageOf record with
      | none => simp [onPage_cons, item, found, ← rest]
      | some other =>
          rw [found] at item
          by_cases same : other = page
            <;> simp [onPage_cons, item, found, same, Dict.valuesAt_cons, ← rest]

/-- The result of a loop that reads packets counts the records of the packets. -/
theorem Reads.counts {absorb : Sample → Packet → Sample} {meaning : List Char → Option Packet}
    {body : ParseState → List Char → ParseState} (loop : Reads absorb meaning body)
    (reads : ReadsRecords absorb) (lines : List (List Char)) {state : ParseState}
    (table : state.pageStats = .empty) (sample : state.currentSample = {})
    (count : state.recordsParsed = 0)
    : CountsRecords absorb (cut (lines.filterMap meaning)) (lines.foldl body state).finish := by
  obtain ⟨collected, counted⟩ := loop.run lines state
  rw [table, sample] at collected
  rw [sample, count, Nat.zero_add] at counted
  constructor
  · intro page
    have items := samples_map reads (lines.filterMap meaning) Sample.item (fun _ => rfl)
    have same : (samples absorb {} (lines.filterMap meaning)).filterMap Sample.item
        = (cut (lines.filterMap meaning)).filterMap
            (fun record => (readRecord absorb record).item) := by
      simpa using congrArg (List.filterMap id) items
    rw [collected, Dict.get?_collect_empty, same, valuesAt_items reads cut_inner]
  · have valid := samples_map reads (lines.filterMap meaning) sampleIsValid (fun _ => rfl)
    have same := congrArg (List.countP id) valid
    simp only [List.countP_map, Function.id_comp] at same
    rw [counted, same]
    refine List.countP_congr (fun record member => ?_)
    simp [sampleIsValid, readRecord_va reads (cut_inner record member)]

end Kumf.Spe
