import Kumf.Spe.Merging

/-! The worker's parser against `parse_stream`: they cut a dump into the same records, but
the worker writes other keys of a sample for operations and unlabelled latencies, and adds
up translation latencies.
-/

namespace Kumf.Spe

open Kumf.Library PyText

def Packet.xlat? : Packet → Option Nat
  | .lat value (some tag) => if tag = "XLAT".toList then some value else none
  | _ => none

/-- The translation latencies of a record. -/
def xlats (record : List Packet) : List Nat := record.filterMap Packet.xlat?

/-- A LAT packet with none of the three labels. -/
def Packet.unlabelled : Packet → Bool
  | .lat _ tag =>
      tag ≠ some "TOT".toList && tag ≠ some "ISSUE".toList && tag ≠ some "XLAT".toList
  | _ => false

/-- An LD or ST packet. -/
def Packet.operation : Packet → Bool
  | .op _ _ => true
  | _ => false

/-- A record that both parsers count alike. -/
structure CountedAlike (record : List Packet) : Prop where
  noOperation : ∀ packet ∈ record, packet.operation = false
  labelled : ∀ packet ∈ record, packet.unlabelled = false
  oneXlat : ∀ latency ∈ (xlats record).dropLast, latency = 0

/-- How the two samples of a record differ after some of its packets. -/
structure Differ (worker stream : Sample) (before : List Packet) : Prop where
  latTot : worker.latTot = stream.latTot
  latIssue : worker.latIssue = stream.latIssue
  llcRefill : worker.llcRefill = stream.llcRefill
  llcAccess : worker.llcAccess = stream.llcAccess
  tlbRefill : worker.tlbRefill = stream.tlbRefill
  workerXlat : worker.latXlat.getD 0 = (xlats before).sum
  streamXlat : stream.latXlat.getD 0 = (xlats before).getLast?.getD 0
  workerLat9e : worker.lat9e = none
  streamLat9e : stream.lat9e.isSome = before.any Packet.unlabelled
  workerLoad : worker.isLoad = false
  workerStore : worker.isStore = false
  workerSve : worker.isSve = false
  streamKind : (stream.isLoad || stream.isStore) = before.any Packet.operation
  streamSve : stream.isSve = true → before.any Packet.operation = true

/-- A packet whose operation, if it is one, is a load or a store. -/
def Packet.LoadOrStore : Packet → Prop
  | .op type _ => type = "LD".toList ∨ type = "ST".toList
  | _ => True

theorem xlats_concat_of_none {packet : Packet} (noXlat : packet.xlat? = none)
    (before : List Packet)
    : xlats (before ++ [packet]) = xlats before := by
  simp [xlats, noXlat]

section
variable {worker stream : Sample} {before : List Packet}

/-- A packet that only overwrites what both parsers overwrite alike. -/
theorem Differ.silent (differ : Differ worker stream before) (packet : Packet)
    (noXlat : packet.xlat? = none) (labelled : packet.unlabelled = false)
    (noOperation : packet.operation = false)
    : Differ worker stream (before ++ [packet]) := by
  have same := xlats_concat_of_none noXlat before
  have sameUnlabelled : (before ++ [packet]).any Packet.unlabelled
      = before.any Packet.unlabelled := by
    simp [labelled]
  have sameOperation : (before ++ [packet]).any Packet.operation
      = before.any Packet.operation := by
    simp [noOperation]
  exact { differ with
    workerXlat := by rw [same]; exact differ.workerXlat
    streamXlat := by rw [same]; exact differ.streamXlat
    streamLat9e := by rw [sameUnlabelled]; exact differ.streamLat9e
    streamKind := by rw [sameOperation]; exact differ.streamKind
    streamSve := by rw [sameOperation]; exact differ.streamSve }

/-- The worker adds a translation latency, and `parse_stream` keeps the last one. -/
theorem Differ.translation (differ : Differ worker stream before) (value : Nat)
    : Differ (workerAbsorb worker (.lat value (some "XLAT".toList)))
        (streamAbsorb stream (.lat value (some "XLAT".toList)))
        (before ++ [.lat value (some "XLAT".toList)]) := by
  have grown : xlats (before ++ [.lat value (some "XLAT".toList)]) = xlats before ++ [value] := by
    simp [xlats, Packet.xlat?]
  have kept : streamAbsorb stream (.lat value (some "XLAT".toList))
      = { stream with latXlat := some value } := rfl
  rw [kept]
  exact { differ with
    workerXlat := by
      rw [grown, List.sum_append, List.sum_singleton, ← differ.workerXlat]
      rfl
    streamXlat := by rw [grown, List.getLast?_concat, Option.getD_some]
    streamLat9e := by simpa [Packet.unlabelled] using differ.streamLat9e
    streamKind := by simpa [Packet.operation] using differ.streamKind
    streamSve := by simpa [Packet.operation] using differ.streamSve }

/-- A latency with another label, which `parse_stream` alone keeps. -/
theorem Differ.otherLatency (differ : Differ worker stream before) (value : Nat)
    {tag : Option (List Char)} (tot : tag ≠ some "TOT".toList)
    (issue : tag ≠ some "ISSUE".toList)
    (xlat : tag ≠ some "XLAT".toList)
    : Differ (workerAbsorb worker (.lat value tag)) (streamAbsorb stream (.lat value tag))
        (before ++ [.lat value tag]) := by
  have noXlat : (Packet.lat value tag).xlat? = none := by
    cases tag with
    | none => rfl
    | some label => exact if_neg (fun same => xlat (congrArg some same))
  have unlabelled : (Packet.lat value tag).unlabelled = true := by
    simp only [Packet.unlabelled, ne_eq, tot, issue, xlat, not_false_eq_true, decide_true,
      Bool.and_self]
  have same := xlats_concat_of_none noXlat before
  simp only [workerAbsorb, workerLat, streamAbsorb, streamLat, if_neg tot, if_neg issue,
    if_neg xlat]
  exact { differ with
    workerXlat := by rw [same]; exact differ.workerXlat
    streamXlat := by rw [same]; exact differ.streamXlat
    streamLat9e := by simp [unlabelled]
    streamKind := by simpa [Packet.operation] using differ.streamKind
    streamSve := by simpa [Packet.operation] using differ.streamSve }

/-- An LD or ST packet, which `parse_stream` alone keeps. -/
theorem Differ.loadOrStore (differ : Differ worker stream before) {type reg : List Char}
    (kind : type = "LD".toList ∨ type = "ST".toList)
    : Differ (workerAbsorb worker (.op type reg)) (streamAbsorb stream (.op type reg))
        (before ++ [.op type reg]) := by
  have same : xlats (before ++ [.op type reg]) = xlats before :=
    xlats_concat_of_none rfl before
  have sameUnlabelled : (before ++ [Packet.op type reg]).any Packet.unlabelled
      = before.any Packet.unlabelled := by
    simp [Packet.unlabelled]
  have used : (before ++ [Packet.op type reg]).any Packet.operation = true := by
    simp [Packet.operation]
  exact { differ with
    workerXlat := by rw [same]; exact differ.workerXlat
    streamXlat := by rw [same]; exact differ.streamXlat
    streamLat9e := by rw [sameUnlabelled]; exact differ.streamLat9e
    streamKind := by
      rw [used]
      rcases kind with rfl | rfl <;> simp [streamAbsorb, streamOp]
    streamSve := fun _ => used }

/-- One packet, by cases on its kind and on the label of a latency. -/
theorem Differ.step (differ : Differ worker stream before) {packet : Packet}
    (inner : packet.closes = false) (kind : packet.LoadOrStore)
    : Differ (workerAbsorb worker packet) (streamAbsorb stream packet)
        (before ++ [packet]) := by
  cases packet with
  | ts => cases inner
  | pc value => cases inner
  | va value => exact { differ.silent (.va value) rfl rfl rfl with }
  | lat value tag =>
      by_cases tot : tag = some "TOT".toList
      · subst tot
        exact { differ.silent (.lat value (some "TOT".toList)) rfl rfl rfl with latTot := rfl }
      · by_cases issue : tag = some "ISSUE".toList
        · subst issue
          exact { differ.silent (.lat value (some "ISSUE".toList)) rfl rfl rfl with
            latIssue := rfl }
        · by_cases xlat : tag = some "XLAT".toList
          · subst xlat
            exact differ.translation value
          · exact differ.otherLatency value tot issue xlat
  | ev events =>
      exact { differ.silent (.ev events) rfl rfl rfl with
        llcRefill := by simp [workerAbsorb, streamAbsorb, streamEv, setEvents, differ.llcRefill]
        llcAccess := by simp [workerAbsorb, streamAbsorb, streamEv, setEvents, differ.llcAccess]
        tlbRefill := by simp [workerAbsorb, streamAbsorb, streamEv, setEvents, differ.tlbRefill] }
  | op type reg => exact differ.loadOrStore kind

end

/-- The samples of a whole record, by induction on its packets from the last one. -/
theorem differ_record {record : List Packet} (inner : ∀ packet ∈ record, packet.closes = false)
    (kinds : ∀ packet ∈ record, packet.LoadOrStore)
    : Differ (readRecord workerAbsorb record) (readRecord streamAbsorb record) record := by
  induction record using List.reverseRecOn with
  | nil =>
      exact ⟨rfl, rfl, rfl, rfl, rfl, rfl, rfl, rfl, rfl, rfl, rfl, rfl, rfl, by decide⟩
  | append_singleton before packet ih =>
      have differ := ih (fun other member => inner other (List.mem_append_left _ member))
        (fun other member => kinds other (List.mem_append_left _ member))
      have last : packet ∈ before ++ [packet] := by simp
      have next := differ.step (inner packet last) (kinds packet last)
      simpa [readRecord] using next

/-- The worker counts at most what `parse_stream` counts, but for translation latencies. -/
theorem Differ.contribution_le {worker stream : Sample} {record : List Packet}
    (differ : Differ worker stream record) (key : Counter)
    : if key = .latXlatSum then stream.contribution key ≤ worker.contribution key
      else worker.contribution key ≤ stream.contribution key := by
  cases key with
  | latXlatSum =>
      rw [if_pos rfl, Sample.contribution, Sample.contribution, differ.workerXlat,
        differ.streamXlat]
      exact getLast?_le_sum _
  | _ =>
      simp [Sample.contribution, differ.latTot, differ.latIssue, differ.llcRefill,
        differ.llcAccess, differ.tlbRefill, differ.workerLat9e, differ.workerLoad,
        differ.workerStore, differ.workerSve]

/-- The contributions agree exactly for records that are counted alike. -/
theorem Differ.contribution_eq_iff {worker stream : Sample} {record : List Packet}
    (differ : Differ worker stream record)
    : (∀ key, worker.contribution key = stream.contribution key) ↔ CountedAlike record := by
  have xlats : worker.contribution .latXlatSum = stream.contribution .latXlatSum
      ↔ ∀ latency ∈ (xlats record).dropLast, latency = 0 := by
    rw [← getLast?_eq_sum_iff, Sample.contribution, Sample.contribution, differ.workerXlat,
      differ.streamXlat]
    exact eq_comm
  constructor
  · intro same
    have load : stream.isLoad = false := by
      simpa [Sample.contribution, differ.workerLoad] using (same .ldCount).symm
    have store : stream.isStore = false := by
      simpa [Sample.contribution, differ.workerStore] using (same .stCount).symm
    have lat9e : stream.lat9e.isSome = false := by
      simpa [Sample.contribution, differ.workerLat9e] using (same .lat9eCount).symm
    have kind := differ.streamKind
    have labels := differ.streamLat9e
    rw [load, store] at kind
    rw [lat9e] at labels
    exact ⟨by simpa using kind.symm, by simpa using labels.symm, xlats.mp (same .latXlatSum)⟩
  · intro alike key
    have noOperation : record.any Packet.operation = false := by
      simpa using alike.noOperation
    have labelled : record.any Packet.unlabelled = false := by
      simpa using alike.labelled
    have kind := differ.streamKind
    have lat9e : stream.lat9e = none := by
      simpa [labelled] using differ.streamLat9e
    have sve : stream.isSve = false := by
      refine Bool.eq_false_of_not_eq_true (fun used => ?_)
      have operation := differ.streamSve used
      rw [noOperation] at operation
      cases operation
    rw [noOperation, Bool.or_eq_false_iff] at kind
    cases key with
    | latXlatSum => exact xlats.mpr alike.oneXlat
    | _ =>
        simp [Sample.contribution, differ.latTot, differ.latIssue, differ.llcRefill,
          differ.llcAccess, differ.tlbRefill, differ.workerLat9e, differ.workerLoad,
          differ.workerStore, differ.workerSve, lat9e, kind, sve]

theorem cut_mem {sequence record : List Packet} (member : record ∈ cut sequence)
    : ∀ packet ∈ record, packet ∈ sequence := by
  induction sequence generalizing record with
  | nil =>
      rw [cut, List.mem_singleton] at member
      simp [member]
  | cons first rest ih =>
      intro packet inRecord
      obtain ⟨start, later, split⟩ := List.exists_cons_of_ne_nil (cut_ne_nil rest)
      by_cases closes : first.closes = true
      · simp only [cut, closes, if_true, List.mem_cons] at member
        rcases member with rfl | inRest
        · cases inRecord
        · exact List.mem_cons_of_mem _ (ih inRest packet inRecord)
      · simp only [cut, closes, Bool.false_eq_true, if_false, split, List.mem_cons] at member
        rcases member with rfl | inLater
        · rcases List.mem_cons.mp inRecord with rfl | inStart
          · exact List.mem_cons_self
          · exact List.mem_cons_of_mem _ (ih (by simp [split]) packet inStart)
        · exact List.mem_cons_of_mem _ (ih (by simp [split, inLater]) packet inRecord)

/-- `RE_OP` captures LD or ST. -/
theorem reOp_type {line : List Char} {captured : List Char × List Char}
    (found : reOp.search line = some captured)
    : captured.1 = "LD".toList ∨ captured.1 = "ST".toList := by
  obtain ⟨suffix, rest, member⟩ := Pattern.exists_of_search found
  obtain ⟨⟨type, left⟩, inType, behind⟩ := List.mem_flatMap.mp member
  obtain ⟨_, _, behind⟩ := List.mem_flatMap.mp behind
  obtain ⟨_, _, behind⟩ := List.mem_flatMap.mp behind
  rw [(Prod.mk.inj (List.mem_singleton.mp behind)).1]
  rcases List.mem_append.mp inType with load | store
  · have same := Pattern.eq_of_mem_word load
    exact .inl same
  · have same := Pattern.eq_of_mem_word store
    exact .inr same

theorem packet?_loadOrStore {line : List Char} {packet : Packet}
    (found : packet? line = some packet)
    : packet.LoadOrStore := by
  unfold packet? at found
  split at found
  case h_6 type reg op =>
      cases found
      exact reOp_type op
  all_goals cases found
  all_goals trivial

/-- Counters of a page with ordered contributions agree only if all contributions do. -/
theorem contributions_agree {records : List (List Packet)} {left right : List Packet → PageStats}
    {key : Counter} (notMax : key ≠ .latTotMax)
    (same : (records.map left).foldl PageStats.combine PageStats.zero key
      = (records.map right).foldl PageStats.combine PageStats.zero key)
    (ordered : ∀ record ∈ records, left record key ≤ right record key)
    : ∀ record ∈ records, left record key = right record key := by
  rw [foldl_combine_apply, foldl_combine_apply, foldl_join_eq_sum notMax,
    foldl_join_eq_sum notMax, List.map_map, List.map_map] at same
  exact (sum_map_eq_iff ordered).mp same

/-- The worker's result is that of `parse_stream` exactly when every record on a page has no
operation, no unlabelled latency and at most its last translation latency other than zero.
Witness: the counters of a page are sums of ordered terms, so they agree record by record.
-/
theorem worker_agrees_iff (lines : List (List Char)) (plain : ∀ line ∈ lines, '\n' ∉ line)
    (noHeader : ∀ line ∈ lines, isHeader (strip line) = false)
    : SameResult (parseChunkWorker (unlines lines)) (parseStream lines none)
      ↔ ∀ record ∈ cut (packets lines), (pageOf record).isSome → CountedAlike record := by
  have worker := parseChunkWorker_counts plain
  have stream := parseStream_counts lines
  have meaning : lines.filterMap streamMeaning = packets lines :=
    List.filterMap_congr (fun line member => by simp [streamMeaning, noHeader line member])
  rw [meaning] at stream
  have differ (record : List Packet) (member : record ∈ cut (packets lines))
      : Differ (readRecord workerAbsorb record) (readRecord streamAbsorb record) record := by
    refine differ_record (cut_inner record member) (fun packet inRecord => ?_)
    obtain ⟨line, _, found⟩ := List.mem_filterMap.mp (cut_mem member packet inRecord)
    exact packet?_loadOrStore found
  constructor
  · intro same record member counted
    obtain ⟨page, here⟩ := Option.isSome_iff_exists.mp counted
    have onIt : record ∈ onPage page (cut (packets lines)) :=
      List.mem_filter.mpr ⟨member, decide_eq_true here⟩
    have differOn (other : List Packet) (there : other ∈ onPage page (cut (packets lines)))
        : Differ (readRecord workerAbsorb other) (readRecord streamAbsorb other) other :=
      differ other (List.mem_filter.mp there).1
    have pages := same.pageStats page
    rw [worker.pageStats, stream.pageStats] at pages
    have totals := Dict.foldl_of_total pages (by simpa using List.ne_nil_of_mem onIt)
    refine (differ record member).contribution_eq_iff.mp (fun key => ?_)
    by_cases isMax : key = .latTotMax
    · rw [isMax, Sample.contribution, Sample.contribution, (differ record member).latTot]
    · by_cases isXlat : key = .latXlatSum
      · refine (contributions_agree isMax (congrFun totals.symm key) ?_ record onIt).symm
        intro other there
        simpa [isXlat] using (differOn other there).contribution_le key
      · refine contributions_agree isMax (congrFun totals key) ?_ record onIt
        intro other there
        simpa [isXlat] using (differOn other there).contribution_le key
  · intro alike
    refine ⟨fun page => ?_, worker.recordsParsed.trans stream.recordsParsed.symm⟩
    rw [worker.pageStats, stream.pageStats]
    refine congrArg _ (List.map_congr_left (fun record onIt => ?_))
    obtain ⟨member, here⟩ := List.mem_filter.mp onIt
    have counted : (pageOf record).isSome := by
      rw [of_decide_eq_true here]
      rfl
    exact funext ((differ record member).contribution_eq_iff.mpr (alike record member counted))

/-- A documented record without operation and unlabelled latency. -/
def plainRecord : List (List Char) :=
  ["PC  0x40000fc33d00 el0 ns=1".toList, "LAT 95 TOT".toList, "VA  0x40000fc59b90".toList,
    "LAT 1 XLAT".toList, "TS  1664985821392".toList]

theorem worker_agrees_iff_plainRecord
    : SameResult (parseChunkWorker (unlines plainRecord)) (parseStream plainRecord none)
      ↔ ∀ record ∈ cut (packets plainRecord), (pageOf record).isSome
        → CountedAlike record :=
  worker_agrees_iff plainRecord (by decide) (by decide)

/-- A load that the worker does not count. -/
theorem worker_misses_load
    : ¬ SameResult
        (parseChunkWorker (unlines ["VA 0x1000".toList, "LD  GP-REG".toList, "TS 1".toList]))
        (parseStream ["VA 0x1000".toList, "LD  GP-REG".toList, "TS 1".toList] none) := by
  intro same
  have loads := congrArg (Option.map (fun stats => stats .ldCount))
    (same.pageStats "0x1000".toList)
  exact absurd loads (by decide)

end Kumf.Spe
