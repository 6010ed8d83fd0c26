import Kumf.Spe.DumpMeaning

/-! What `parse_stream` makes of a dump: the sums of what its records contribute to their
pages, in whatever order the records stand.
-/

namespace Kumf.Spe

open Kumf.Library PyText

/-- Sequences related to an appended one fall into two parts. -/
theorem forall₂_append_split {α β : Type} {related : α → β → Prop} {front back : List α}
    {whole : List β} (all : List.Forall₂ related (front ++ back) whole)
    : ∃ left right, List.Forall₂ related front left ∧ List.Forall₂ related back right
        ∧ whole = left ++ right := by
  induction front generalizing whole with
  | nil => exact ⟨[], whole, .nil, all, rfl⟩
  | cons a front ih =>
      obtain ⟨b, rest, first, others, rfl⟩ := List.forall₂_cons_left_iff.mp all
      obtain ⟨left, right, inFront, inBack, rfl⟩ := ih others
      exact ⟨b :: left, right, .cons first inFront, inBack, rfl⟩

theorem forall₂_mem {α β : Type} {related : α → β → Prop} {left : List α}
    {right : List β}
    (all : List.Forall₂ related left right) {b : β} (member : b ∈ right)
    : ∃ a ∈ left, related a b := by
  induction all with
  | nil => cases member
  | cons first _ ih =>
      rcases List.mem_cons.mp member with rfl | later
      · exact ⟨_, List.mem_cons_self, first⟩
      · obtain ⟨a, inLeft, same⟩ := ih later
        exact ⟨a, List.mem_cons_of_mem _ inLeft, same⟩

/-- Packets that close nothing go to the front of the first record. -/
theorem cut_append_inner {inner : List Packet}
    (goesOn : ∀ packet ∈ inner, packet.closes = false)
    {rest : List Packet} {first : List Packet} {later : List (List Packet)}
    (split : cut rest = first :: later)
    : cut (inner ++ rest) = (inner ++ first) :: later := by
  induction inner with
  | nil => exact split
  | cons packet inner ih =>
      have behind := ih (fun other member => goesOn other (List.mem_cons_of_mem packet member))
      have goes := goesOn packet List.mem_cons_self
      simp [cut, goes, behind]

/-- A packet that closes ends a record at once. -/
theorem cut_cons_close {packet : Packet} (closes : packet.closes = true) (rest : List Packet)
    : cut (packet :: rest) = [] :: cut rest := by
  simp [cut, closes]

/-- No line within a record closes it. -/
theorem SpeRecord.body_goesOn (record : SpeRecord)
    : ∀ saying ∈ record.body, saying.closes = false := by
  have lats {label : Option LatLabel} {cycles : Option (Numeral 10)}
      : ∀ saying ∈ latSayings label cycles, saying.closes = false := by
    cases cycles <;> simp [latSayings, Saying.closes]
  have events : ∀ saying ∈ evSayings record.events, saying.closes = false := by
    cases record.events <;> simp [evSayings, Saying.closes]
  have op : ∀ saying ∈ opSayings record.op, saying.closes = false := by
    cases record.op <;> simp [opSayings, Saying.closes]
  have va : ∀ saying ∈ vaSayings record.va, saying.closes = false := by
    cases record.va <;> simp [vaSayings, Saying.closes]
  simp only [body, List.mem_append]
  intro saying member
  rcases member with ((((((issue | tot) | ev) | kind) | address) | xlat) | lat9e)
  · exact lats saying issue
  · exact lats saying tot
  · exact events saying ev
  · exact op saying kind
  · exact va saying address
  · exact lats saying xlat
  · exact lats saying lat9e

/-- The counted part of the sample that `parse_stream` reads from a record. -/
def streamSample (record : List Packet) : Sample := (readRecord streamAbsorb record).counted

/-- The samples of a dump that are flushed. -/
def flushed (records : List (List Packet)) : List Sample :=
  (records.map streamSample).filter sampleIsValid

/-- A record is flushed when it is valid. -/
theorem flushed_cons (record : List Packet) (records : List (List Packet))
    : flushed (record :: records)
      = if sampleIsValid (streamSample record) then streamSample record :: flushed records
        else flushed records := by
  simp [flushed, List.filter_cons]

/-- An empty record is not. -/
theorem flushed_nil_cons (records : List (List Packet))
    : flushed ([] :: records) = flushed records :=
  flushed_cons [] records

/-- The packets of one record in front of others: it is cut off whole. -/
theorem SpeRecord.cut_sayings (record : SpeRecord) {close : Option (Numeral 10)}
    {sequence rest : List Packet} {later : List (List Packet)}
    (means : List.Forall₂ Saying.Means (record.sayings close) sequence)
    (split : cut rest = [] :: later)
    : ∃ inner more, cut (sequence ++ rest) = [] :: inner :: more
        ∧ streamSample inner = record.sample ∧ flushed more = flushed later := by
  obtain ⟨pc, behind, first, others, rfl⟩ := List.forall₂_cons_left_iff.mp means
  obtain ⟨inner, ending, body, closing, rfl⟩ := forall₂_append_split others
  have goesOn : ∀ packet ∈ inner, packet.closes = false := by
    intro packet member
    obtain ⟨saying, inBody, means⟩ := forall₂_mem body member
    rw [means.closes]
    exact record.body_goesOn saying inBody
  have read : streamSample inner = record.sample := by
    rw [streamSample, readRecord, absorbs_run body]
    exact record.absorb_body
  rw [List.cons_append, cut_cons_close first.closes, List.append_assoc]
  cases close with
  | none =>
      obtain rfl := List.forall₂_nil_left_iff.mp closing
      exact ⟨inner, later, by rw [List.nil_append, cut_append_inner goesOn split,
        List.append_nil], read, rfl⟩
  | some time =>
      obtain ⟨packet, nothing, last, empty, rfl⟩ := List.forall₂_cons_left_iff.mp closing
      obtain rfl := List.forall₂_nil_left_iff.mp empty
      have closed : cut (packet :: rest) = [] :: [] :: later := by
        rw [cut_cons_close last.closes, split]
      refine ⟨inner, [] :: later, ?_, read, flushed_nil_cons later⟩
      rw [List.singleton_append, cut_append_inner goesOn closed, List.append_nil]

/-- The records that a dump is cut into are its own, and empty ones. -/
theorem Dump.cut_meaning {records : List SpeRecord} {lines : List (List Char)}
    (dump : Dump records lines)
    : ∃ later, cut (lines.filterMap streamMeaning) = [] :: later
        ∧ flushed later = (records.map SpeRecord.sample).filter sampleIsValid := by
  induction dump with
  | done => exact ⟨[], rfl, rfl⟩
  | padding padding _ ih => rwa [List.filterMap_cons_none padding.meaning]
  | header header _ ih => rwa [List.filterMap_cons_none header.meaning]
  | @record record close records front back lines _ ih =>
      obtain ⟨later, split, same⟩ := ih
      obtain ⟨inner, more, whole, read, rest⟩ := record.cut_sayings lines.meaning split
      refine ⟨inner :: more, ?_, ?_⟩
      · rw [List.filterMap_append, whole]
      · rw [flushed_cons, read, rest, same, List.map_cons, List.filter_cons]

-----------------------------------------------------------------------------------------
-- Pages as sums over the records
-----------------------------------------------------------------------------------------

/-- Counters of a page from what its records contribute: sums and one maximum. -/
def pageTotal (contributions : List PageStats) : Option PageStats :=
  if contributions = [] then
    none
  else
    some (fun key =>
      if key = .latTotMax then (contributions.map (fun stats => stats key)).foldl max 0
      else (contributions.map (fun stats => stats key)).sum)

/-- The result of parsing records: the totals of all pages under their hexadecimal addresses,
nothing else, and the number of records with a virtual address.
-/
structure SumsUp (records : List SpeRecord) (parsed : Parsed) : Prop where
  pageStats
    : ∀ page,
        parsed.pageStats.get? (hex page)
        = pageTotal ((records.filter (fun record => record.page = some page)).map
            SpeRecord.contribution)
  others : ∀ key, (∀ page, hex page ≠ key) → parsed.pageStats.get? key = none
  recordsParsed : parsed.recordsParsed = records.countP (fun record => record.va.isSome)

/-- The total of a page is the sum of its contributions. -/
theorem total_eq_pageTotal (contributions : List PageStats)
    : Dict.total PageStats.combine PageStats.zero contributions = pageTotal contributions := by
  cases contributions with
  | nil => rfl
  | cons first more =>
      simp only [Dict.total, pageTotal, List.isEmpty_cons, Bool.false_eq_true, if_false,
        reduceCtorEq]
      refine congrArg some (funext (fun key => ?_))
      rw [foldl_combine_apply]
      split
      case isTrue isMax => rw [isMax]; rfl
      case isFalse notMax => exact foldl_join_eq_sum notMax _

/-- A literal outside the kernel's half is an address on the page of its value. -/
theorem pageKey_literal {address : Numeral 16}
    (user : address.digits.take 4 ∉ ["ffff".toList, "FFFF".toList])
    : pageKey (literal address) = some (hex (address.value / 4096 * 4096)) := by
  have noFront {front : List Char} (short : front.length = 4)
      (known : front ∈ ["ffff".toList, "FFFF".toList])
      : startsWith (literal address) ('0' :: 'x' :: front) = false := by
    refine Bool.eq_false_of_not_eq_true (fun starts => user ?_)
    obtain ⟨rest, same⟩ := List.isPrefixOf_iff_prefix.mp starts
    have digits : front ++ rest = address.digits := (List.cons.inj (List.cons.inj same).2).2
    rw [← digits, ← short, List.take_left]
    exact known
  have kernel : isKernel (literal address) = false := by
    have lower := noFront (rfl : "ffff".toList.length = 4) List.mem_cons_self
    have upper := noFront (rfl : "FFFF".toList.length = 4)
      (List.mem_cons_of_mem _ List.mem_cons_self)
    exact Bool.or_eq_false_iff.mpr ⟨lower, upper⟩
  have value : intHex (literal address) = some address.value := by
    have digits : (literal address).drop 2 = address.digits := rfl
    have valid : address.digits.all isHex = true := List.all_eq_true.mpr address.valid
    have front : startsWith (literal address) "0x".toList = true := rfl
    rw [intHex, digits, if_pos ⟨front, address.nonempty, valid⟩]
    rfl
  rw [pageKey, kernel, value]
  rfl

/-- A record counts for its page. -/
theorem SpeRecord.sample_item (record : SpeRecord)
    : record.sample.item = record.page.map (fun page => (hex page, record.contribution)) := by
  have flag (set : Bool) : set.toNat = bif set then 1 else 0 := rfl
  have contributes : record.sample.contribution = record.contribution := by
    funext key
    cases key <;> simp [Sample.contribution, contribution, sample, flag, Bool.cond_decide]
  rw [Sample.item, contributes, page, sample]
  cases va : record.va with
  | none => rfl
  | some address =>
      have key := pageKey_literal (record.user address va)
      simp [key]

/-- The items of a packet sequence are those of its flushed samples. -/
theorem items_flushed (records : List (List Packet))
    : records.filterMap (fun record => (readRecord streamAbsorb record).item)
      = (flushed records).filterMap Sample.item := by
  induction records with
  | nil => rfl
  | cons record records ih =>
      have item : (streamSample record).item = (readRecord streamAbsorb record).item := rfl
      rw [List.filterMap_cons, ih, flushed_cons]
      cases va : (streamSample record).va with
      | none =>
          have absent : (streamSample record).item = none := by simp [Sample.item, va]
          simp [sampleIsValid, va, ← item, absent]
      | some address => simp [sampleIsValid, va, ← item, List.filterMap_cons]

/-- A page has the contributions of the records on it. -/
theorem valuesAt_sample_items (key : List Char) (records : List SpeRecord)
    : Dict.valuesAt key
        (((records.map SpeRecord.sample).filter sampleIsValid).filterMap Sample.item)
      = (records.filter (fun record => record.page.map hex = some key)).map
          SpeRecord.contribution := by
  induction records with
  | nil => rfl
  | cons record records ih =>
      have item := record.sample_item
      cases va : record.va with
      | none =>
          have invalid : sampleIsValid record.sample = false := by
            simp [sampleIsValid, SpeRecord.sample, va]
          have elsewhere : record.page = none := by simp [SpeRecord.page, va]
          simp [-Option.map_eq_some_iff, invalid, elsewhere, ← ih]
      | some address =>
          have valid : sampleIsValid record.sample = true := by
            simp [sampleIsValid, SpeRecord.sample, va]
          obtain ⟨other, here⟩ : ∃ other, record.page = some other :=
            ⟨_, by rw [SpeRecord.page, va]; rfl⟩
          rw [here] at item
          by_cases same : hex other = key
            <;> simp [-Option.map_eq_some_iff, valid, item, here, same, Dict.valuesAt_cons, ← ih]

/-- Every dump of some records sums up to their totals. -/
theorem Dump.sumsUp {records : List SpeRecord} {lines : List (List Char)}
    (dump : Dump records lines)
    : SumsUp records (parseStream lines none) := by
  have counts := parseStream_counts lines
  obtain ⟨later, split, same⟩ := dump.cut_meaning
  have whole : flushed (cut (lines.filterMap streamMeaning))
      = (records.map SpeRecord.sample).filter sampleIsValid := by
    rw [split, flushed_nil_cons, same]
  have totals (key : List Char)
      : (parseStream lines none).pageStats.get? key
        = pageTotal ((records.filter (fun record => record.page.map hex = some key)).map
            SpeRecord.contribution) := by
    rw [counts.pageStats, ← valuesAt_items streamAbsorb_reads cut_inner, items_flushed, whole,
      valuesAt_sample_items, total_eq_pageTotal]
  constructor
  · intro page
    -- Different pages have different keys.
    have here (record : SpeRecord)
        : record.page.map hex = some (hex page) ↔ record.page = some page :=
      (Option.map_injective hex_injective).eq_iff (b := some page)
    simp only [totals, here]
  · intro key noPage
    have nowhere : records.filter (fun record => record.page.map hex = some key) = [] := by
      refine List.filter_eq_nil_iff.mpr (fun record _ here => ?_)
      obtain ⟨page, _, same⟩ := Option.map_eq_some_iff.mp (of_decide_eq_true here)
      exact noPage page same
    rw [totals, nowhere]
    rfl
  · have valid (record : List Packet) (member : record ∈ cut (lines.filterMap streamMeaning))
        : (lastOf Packet.va? record).isSome = sampleIsValid (streamSample record) := by
      rw [← readRecord_va streamAbsorb_reads (cut_inner record member)]
      rfl
    have counted := congrArg List.length whole
    rw [flushed, ← List.countP_eq_length_filter, ← List.countP_eq_length_filter,
      List.countP_map, List.countP_map] at counted
    rw [counts.recordsParsed, List.countP_congr (fun record member => by rw [valid record member])]
    refine counted.trans (List.countP_congr (fun record _ => ?_))
    cases va : record.va <;> simp [sampleIsValid, SpeRecord.sample, va]

/-- The order of the records does not matter to a page. -/
theorem pageTotal_perm {left right : List PageStats} (perm : left.Perm right)
    : pageTotal left = pageTotal right := by
  rw [← total_eq_pageTotal, ← total_eq_pageTotal, Dict.total_perm perm]

/-- The order of the records does not matter for what they sum up to. -/
theorem SumsUp.sameResult {left right : List SpeRecord} {parsed other : Parsed}
    (sums : SumsUp left parsed) (sums' : SumsUp right other) (perm : left.Perm right)
    : SameResult parsed other where
  pageStats := by
    intro key
    by_cases isPage : ∃ page, hex page = key
    · obtain ⟨page, rfl⟩ := isPage
      rw [sums.pageStats, sums'.pageStats]
      exact pageTotal_perm ((perm.filter _).map _)
    · have noPage : ∀ page, hex page ≠ key := fun page same => isPage ⟨page, same⟩
      rw [sums.others key noPage, sums'.others key noPage]
  recordsParsed := by
    rw [sums.recordsParsed, sums'.recordsParsed]
    exact perm.countP_eq _

/-- `parse_stream` without a limit sums a dump up to the totals of its records, and gives the
same for every dump of the records in another order. Witness: each record is cut off whole.
-/
theorem parseStream_dump {records : List SpeRecord} {lines : List (List Char)}
    (dump : Dump records lines)
    : SumsUp records (parseStream lines none)
      ∧ ∀ shuffled other, shuffled.Perm records → Dump shuffled other
        → SameResult (parseStream other none) (parseStream lines none) := by
  refine ⟨dump.sumsUp, ?_⟩
  intro shuffled other perm second
  exact second.sumsUp.sameResult dump.sumsUp perm

/-- The store of the documented dump. -/
def documented : SpeRecord where
  pc := ⟨"40000fc33d00".toList, by simp, List.all_eq_true.mp rfl⟩
  latIssue := some (.dec 90)
  latTot := some (.dec 95)
  events := [.retired, .tlbAccess]
  op := some (.st, .gpReg)
  va := some ⟨"40000fc59b90".toList, by simp, List.all_eq_true.mp rfl⟩
  latXlat := some (.dec 1)
  lat9e := none
  user := by
    rintro address ⟨⟩
    decide

/-- A load of the same page that missed the last cache. -/
def missed : SpeRecord where
  pc := ⟨"40000fc33d08".toList, by simp, List.all_eq_true.mp rfl⟩
  latIssue := some (.dec 12)
  latTot := some (.dec 410)
  events := [.retired, .llcAccess, .llcRefill, .tlbRefill]
  op := some (.ld, .gpReg)
  va := some ⟨"40000fc59ff8".toList, by simp, List.all_eq_true.mp rfl⟩
  latXlat := some (.dec 30)
  lat9e := some (.dec 7)
  user := by
    rintro address ⟨⟩
    decide

/-- A vector load of another page. -/
def elsewhere : SpeRecord :=
  { missed with
    events := [.retired]
    op := some (.ld, .sve)
    va := some ⟨"40000fc5a000".toList, by simp, List.all_eq_true.mp rfl⟩
    user := by
      rintro address ⟨⟩
      decide }

/-- The PC line of the last record closes the one before it. -/
def threeRecords : List (SpeRecord × Option (Numeral 10)) :=
  [(documented, some (.dec 1664985821392)), (missed, none),
    (elsewhere, some (.dec 1664985821400))]

/-- Three records under a header. -/
def documentedDump : List (List Char) :=
  "0x1f8 [0x30]: PERF_RECORD_AUXTRACE size: 0x100000".toList :: [] :: render threeRecords

/-- The example is a dump of three records. -/
theorem documentedDump_dump : Dump [documented, missed, elsewhere] documentedDump :=
  .header (.auxtrace (by decide)) (.padding (.blank (by simp)) (render_dump threeRecords))

theorem parseStream_dump_documented
    : (parseStream documentedDump none).recordsParsed = 3
      ∧ ((parseStream documentedDump none).pageStats.get? (hex 0x40000fc59000)).map
          (fun stats => [stats .accessCount, stats .latTotSum, stats .latTotMax, stats .ldCount,
            stats .stCount, stats .llcRefillCount])
        = some [2, 505, 410, 1, 1, 1]
      ∧ ∀ other, Dump [elsewhere, missed, documented] other
        → SameResult (parseStream other none) (parseStream documentedDump none) := by
  obtain ⟨sums, shuffles⟩ := parseStream_dump documentedDump_dump
  have backwards := List.reverse_perm [documented, missed, elsewhere]
  refine ⟨?_, ?_, fun other => shuffles _ other backwards⟩
  · rw [sums.recordsParsed]
    rfl
  · rw [sums.pageStats]
    decide

end Kumf.Spe
