import Kumf.Spe.Chunks
import Kumf.Spe.DumpTotals
import Kumf.Spe.WorkerAgreement

/-! `parse_file_parallel` as a whole against `parse_stream` of the same file: which counters of a
page come out the same, and how far the others can go apart.
-/

namespace Kumf.Spe

open Kumf.Library PyText

/-- `parse_stream(open(filepath))` -/
def parseFile (text : List Char) : Parsed := parseStream (readlines (universalNewlines text)) none

/-- `parse_file_parallel` of a file with this text. -/
def parseFileParallel (text : List Char) (numWorkers : Nat) : Parsed :=
  let content := utf8 text
  if content.length < 10 * 1024 * 1024 then
    parseFile text
  else
    let chunks := fileChunks content numWorkers
    if chunks.length < 2 then
      parseFile text
    else
      mergeResults
        (chunks.map (fun chunk => parseChunkWorker (decodeUtf8 (chunkBytes content chunk))))

-----------------------------------------------------------------------------------------
-- The counters of a page
-----------------------------------------------------------------------------------------

/-- The counters that both ways fill alike. -/
def Counter.shared : Counter → Bool
  | .accessCount => true
  | .latTotSum => true
  | .latIssueSum => true
  | .llcRefillCount => true
  | .llcAccessCount => true
  | .tlbRefillCount => true
  | _ => false

/-- The counters of a page in parallel against those in one piece. The largest latency is added up
over the pieces, translation latencies are added up within a record, and operations and unlabelled
latencies can be missed.
-/
structure Near (numWorkers : Nat) (parallel plain : PageStats) : Prop where
  shared : ∀ key, key.shared = true → parallel key = plain key
  latTotMax : plain .latTotMax ≤ parallel .latTotMax
  latTotMax_le : parallel .latTotMax ≤ numWorkers * plain .latTotMax
  latXlatSum : plain .latXlatSum ≤ parallel .latXlatSum
  others
    : ∀ key, key ≠ .latTotMax → key ≠ .latXlatSum → parallel key ≤ plain key

/-- A tally is near itself. -/
theorem Near.refl {numWorkers : Nat} (positive : 0 < numWorkers) (stats : PageStats)
    : Near numWorkers stats stats where
  shared _ _ := rfl
  latTotMax := Nat.le_refl _
  latTotMax_le := Nat.le_mul_of_pos_left _ positive
  latXlatSum := Nat.le_refl _
  others _ _ _ := Nat.le_refl _

/-- Larger parts join to a larger whole. -/
theorem foldl_join_mono {key : Counter} {ι : Type} {items : List ι} {low high : ι → Nat}
    (ordered : ∀ item ∈ items, low item ≤ high item)
    : (items.map low).foldl key.join 0 ≤ (items.map high).foldl key.join 0 := by
  have mono {a b c d : Nat} (left : a ≤ b) (right : c ≤ d) : key.join a c ≤ key.join b d := by
    cases key with
    | latTotMax => exact max_le_max left right
    | _ => exact Nat.add_le_add left right
  have general (items : List ι) : ∀ {start next : Nat}, start ≤ next
      → (∀ item ∈ items, low item ≤ high item)
      → (items.map low).foldl key.join start ≤ (items.map high).foldl key.join next := by
    induction items with
    | nil => exact fun first _ => first
    | cons item items ih =>
        intro start next first ordered
        exact ih (mono first (ordered item List.mem_cons_self))
          (fun other member => ordered other (List.mem_cons_of_mem item member))
  exact general items (Nat.le_refl 0) ordered

/-- The pieces' counters added up against the same counters put together. -/
theorem near_add (values : List PageStats)
    : Near values.length (values.foldl PageStats.add PageStats.zero)
        (values.foldl PageStats.combine PageStats.zero) := by
  have same {key : Counter} (notMax : key ≠ .latTotMax)
      : values.foldl PageStats.add PageStats.zero key
        = values.foldl PageStats.combine PageStats.zero key := by
    rw [foldl_add_apply, foldl_combine_apply, foldl_join_eq_sum notMax]
  constructor
  · intro key shared
    apply same
    rintro rfl
    cases shared
  · rw [foldl_add_apply, foldl_combine_apply]
    exact foldl_max_le_sum _
  · rw [foldl_add_apply, foldl_combine_apply]
    have bound := sum_le_length_mul_foldl_max (values.map (fun stats => stats .latTotMax))
    rwa [List.length_map] at bound
  · exact Nat.le_of_eq (same (by decide)).symm
  · intro key notMax _
    exact Nat.le_of_eq (same notMax)

/-- What the worker makes of a record against what `parse_stream` makes of it. -/
theorem Differ.contribution_eq {worker stream : Sample} {record : List Packet}
    (differ : Differ worker stream record) {key : Counter}
    (alike : key.shared = true ∨ key = .latTotMax)
    : worker.contribution key = stream.contribution key := by
  cases key with
  | accessCount => rfl
  | latTotSum => exact congrArg (fun lat => lat.getD 0) differ.latTot
  | latTotMax => exact congrArg (fun lat => lat.getD 0) differ.latTot
  | latIssueSum => exact congrArg (fun lat => lat.getD 0) differ.latIssue
  | llcRefillCount => exact congrArg Bool.toNat differ.llcRefill
  | llcAccessCount => exact congrArg Bool.toNat differ.llcAccess
  | tlbRefillCount => exact congrArg Bool.toNat differ.tlbRefill
  | _ => simp [Counter.shared] at alike

section
variable {numWorkers : Nat} {parallel : PageStats} {records : List (List Packet)}
  {worker stream : List Packet → Sample}

/-- The same records, read by the worker or by `parse_stream`. -/
theorem Near.differ
    (near : Near numWorkers parallel
      ((records.map (fun record => (worker record).contribution)).foldl PageStats.combine
        PageStats.zero))
    (differ : ∀ record ∈ records, Differ (worker record) (stream record) record)
    : Near numWorkers parallel
        ((records.map (fun record => (stream record).contribution)).foldl PageStats.combine
          PageStats.zero) := by
  have less {low high : List Packet → PageStats} {key : Counter}
      (ordered : ∀ record ∈ records, low record key ≤ high record key)
      : (records.map low).foldl PageStats.combine PageStats.zero key
        ≤ (records.map high).foldl PageStats.combine PageStats.zero key := by
    rw [foldl_combine_apply, foldl_combine_apply, List.map_map, List.map_map]
    exact foldl_join_mono ordered
  have same {key : Counter} (alike : key.shared = true ∨ key = .latTotMax)
      : (records.map (fun record => (worker record).contribution)).foldl PageStats.combine
          PageStats.zero key
        = (records.map (fun record => (stream record).contribution)).foldl PageStats.combine
          PageStats.zero key :=
    Nat.le_antisymm
      (less fun record member => Nat.le_of_eq ((differ record member).contribution_eq alike))
      (less fun record member => Nat.le_of_eq ((differ record member).contribution_eq alike).symm)
  constructor
  · exact fun key shared => (near.shared key shared).trans (same (.inl shared))
  · exact same (.inr rfl) ▸ near.latTotMax
  · exact same (.inr rfl) ▸ near.latTotMax_le
  · refine Nat.le_trans (less fun record member => ?_) near.latXlatSum
    simpa using (differ record member).contribution_le .latXlatSum
  · intro key notMax notXlat
    refine Nat.le_trans (near.others key notMax notXlat) (less fun record member => ?_)
    simpa [notXlat] using (differ record member).contribution_le key

/-- More workers allow no smaller error. -/
theorem Near.mono {plain : PageStats} {more : Nat} (near : Near numWorkers parallel plain)
    (atMost : numWorkers ≤ more)
    : Near more parallel plain :=
  { near with latTotMax_le := Nat.le_trans near.latTotMax_le (Nat.mul_le_mul_right _ atMost) }

end

-----------------------------------------------------------------------------------------
-- Pieces of the dump
-----------------------------------------------------------------------------------------

/-- Every piece ends with a TS line, up to those behind which nothing comes. -/
def Divided : List (List (List Char)) → Prop
  | [] => True
  | piece :: rest => (rest.flatten = [] ∨ EndsWithTs piece) ∧ Divided rest

/-- The records of the dump are those of its pieces. -/
theorem Divided.divides {pieces : List (List (List Char))} (divided : Divided pieces)
    (page : List Char)
    : pageValues page (packets pieces.flatten)
        = pieces.flatMap (fun piece => pageValues page (packets piece))
      ∧ validCount (packets pieces.flatten)
        = (pieces.map (fun piece => validCount (packets piece))).sum := by
  induction pieces with
  | nil => exact ⟨pageValues_nil page, rfl⟩
  | cons piece rest ih =>
      obtain ⟨last, later⟩ := divided
      obtain ⟨values, counts⟩ := ih later
      rw [List.flatten_cons, List.flatMap_cons, List.map_cons, List.sum_cons, ← values,
        ← counts]
      cases last with
      | inl empty =>
          rw [empty, List.append_nil]
          exact ⟨by simp [packets, pageValues_nil], rfl⟩
      | inr ends =>
          rw [packets_append]
          exact ends.divides page (packets rest.flatten)

/-- Only no lines at all make an empty text. -/
theorem unlines_eq_nil_iff {lines : List (List Char)}
    : unlines lines = [] ↔ lines = [] := by
  cases lines with
  | nil => simp [unlines]
  | cons line lines => simp [unlines]

/-- Behind a line there is no begun one. -/
theorem lastLine_unlines (text : List Char) (lines : List (List Char)) (begins : lastLine text = [])
    : lastLine (text ++ unlines lines) = [] := by
  rcases List.eq_nil_or_concat lines with rfl | ⟨front, line, rfl⟩
  · simpa [unlines] using begins
  · have last : unlines [line] = line ++ ['\n'] := by simp [unlines]
    rw [List.concat_eq_append, unlines_append, last, ← List.append_assoc, ← List.append_assoc]
    exact lastLine_newline _

section
variable {content : List Char}

/-- A piece up to a place that cuts no record ends with a TS line. -/
theorem piece_endsWithTs {start stop : Nat} {remaining : List (List Char)}
    (plain : ∀ line ∈ remaining, '\n' ∉ line)
    (here : content.drop start = utf8 (unlines remaining)) (forward : start < stop)
    (inside : stop < content.length) (cuts : CutsNoRecord content stop)
    (begins : lastLine (content.take start) = [])
    : ∃ count,
        chunkBytes content (start, stop) = utf8 (unlines (remaining.take count))
        ∧ content.drop stop = utf8 (unlines (remaining.drop count))
        ∧ EndsWithTs (remaining.take count)
        ∧ lastLine (content.take stop) = [] := by
  obtain ⟨text, taken, isTs⟩ := cuts (by omega) inside
  have plainBytes : ∀ line ∈ remaining.map utf8, '\n' ∉ line := by
    intro line member
    obtain ⟨original, inRemaining, rfl⟩ := List.mem_map.mp member
    exact fun newline => plain original inRemaining (mem_of_mem_utf8 (by decide) newline)
  have parts : content.take stop = content.take start ++ chunkBytes content (start, stop) := by
    have whole := List.take_append_drop start (content.take stop)
    rw [List.take_take, Nat.min_eq_left (Nat.le_of_lt forward), List.drop_take] at whole
    exact whole.symm
  have length : (chunkBytes content (start, stop)).length = stop - start := by
    rw [chunkBytes, slice, List.length_take, List.length_drop]
    omega
  have some : chunkBytes content (start, stop) ≠ [] := by
    intro empty
    rw [empty, List.length_nil] at length
    omega
  obtain ⟨front, c, ends⟩ := List.eq_nil_or_concat _ |>.resolve_left some
  rw [List.concat_eq_append] at ends
  have newline : c = '\n' := by
    rw [parts, ends, ← List.append_assoc] at taken
    have last := congrArg List.getLast? taken
    rw [List.getLast?_concat, List.getLast?_concat] at last
    exact Option.some.inj last
  subst newline
  have behind : (unlines (remaining.map utf8)).take (stop - start) = front ++ ['\n'] := by
    rw [← utf8_unlines, ← here]
    exact ends
  obtain ⟨count, takes, drops⟩ := unlines_cut plainBytes behind
  rw [behind, ← List.map_take, ← utf8_unlines] at takes
  rw [← List.map_drop, ← utf8_unlines, ← utf8_unlines] at drops
  have rest : content.drop stop = utf8 (unlines (remaining.drop count)) := by
    rw [← drops, ← here, List.drop_drop]
    congr 1
    omega
  have lines : remaining.take count ≠ [] := by
    intro empty
    rw [empty] at takes
    exact absurd takes (by simp [unlines, utf8])
  obtain ⟨before, line, split⟩ := List.eq_nil_or_concat _ |>.resolve_left lines
  rw [List.concat_eq_append] at split
  have lastBytes : utf8 (unlines (remaining.take count))
      = utf8 (unlines before) ++ utf8 line ++ ['\n'] := by
    have newline : utf8 ['\n'] = ['\n'] := utf8_ascii (by simp [Ascii])
    have single : unlines [line] = line ++ ['\n'] := by simp [unlines]
    rw [split, unlines_append, single, utf8_append, utf8_append, newline, List.append_assoc]
  have solid : '\n' ∉ utf8 line := by
    have member : line ∈ remaining := List.mem_of_mem_take (by rw [split]; simp)
    exact fun newline => plain line member (mem_of_mem_utf8 (by decide) newline)
  have last : lastLine text = utf8 line := by
    have same : text = content.take start ++ unlines (before.map utf8) ++ utf8 line := by
      rw [parts, ends, takes, lastBytes, ← List.append_assoc] at taken
      rw [← utf8_unlines, List.append_assoc]
      exact (List.append_cancel_right taken).symm
    rw [same, lastLine_append solid, lastLine_unlines _ _ begins, List.nil_append]
  refine ⟨count, ends.trans takes, rest, ⟨before, line, split, ?_⟩, ?_⟩
  · rwa [isTsLine, last, decodeUtf8_utf8] at isTs
  · rw [taken]
    exact lastLine_newline text

/-- The chunks between positions that cut no record are pieces of whole records. -/
theorem chunks_divide {start : Nat} {rest : List Nat} {remaining : List (List Char)}
    (plain : ∀ line ∈ remaining, '\n' ∉ line)
    (here : content.drop start = utf8 (unlines remaining))
    (ascending : (start :: rest).Pairwise (· < ·))
    (reaches : ∃ stop ∈ start :: rest, content.length ≤ stop)
    (cuts : ∀ position ∈ rest, CutsNoRecord content position)
    (begins : start < content.length → lastLine (content.take start) = [])
    : ∃ pieces,
        Divided pieces
        ∧ pieces.flatten = remaining
        ∧ (steps (start :: rest)).map (chunkBytes content)
          = pieces.map (fun piece => utf8 (unlines piece)) := by
  have nothing {position : Nat} {lines : List (List Char)} (beyond : content.length ≤ position)
      (there : content.drop position = utf8 (unlines lines)) : lines = [] := by
    rw [List.drop_eq_nil_of_le beyond] at there
    exact unlines_eq_nil_iff.mp (utf8_injective there.symm)
  induction rest generalizing start remaining with
  | nil =>
      obtain ⟨stop, member, beyond⟩ := reaches
      rw [List.mem_singleton.mp member] at beyond
      exact ⟨[], trivial, (nothing beyond here).symm, rfl⟩
  | cons stop rest ih =>
      obtain ⟨less, later⟩ := List.pairwise_cons.mp ascending
      have forward : start < stop := less stop List.mem_cons_self
      have reachesLater : ∃ other ∈ stop :: rest, content.length ≤ other := by
        obtain ⟨other, member, beyond⟩ := reaches
        cases List.mem_cons.mp member with
        | inl same => exact ⟨stop, List.mem_cons_self, by omega⟩
        | inr inRest => exact ⟨other, inRest, beyond⟩
      have cutsLater : ∀ position ∈ rest, CutsNoRecord content position :=
        fun position member => cuts position (List.mem_cons_of_mem stop member)
      by_cases inside : stop < content.length
      · obtain ⟨count, taken, dropped, ends, begun⟩ :=
          piece_endsWithTs plain here forward inside
          (cuts stop List.mem_cons_self) (begins (by omega))
        obtain ⟨pieces, divided, flatten, chunks⟩ := ih
          (fun line member => plain line (List.mem_of_mem_drop member)) dropped later reachesLater
          cutsLater (fun _ => begun)
        refine ⟨remaining.take count :: pieces, ⟨.inr ends, divided⟩, ?_, ?_⟩
        · rw [List.flatten_cons, flatten, List.take_append_drop]
        · rw [steps, List.map_cons, taken, chunks, List.map_cons]
      · have beyond : content.length ≤ stop := Nat.le_of_not_lt inside
        have dropped : content.drop stop = utf8 (unlines []) := List.drop_eq_nil_of_le beyond
        obtain ⟨pieces, divided, flatten, chunks⟩ := @ih stop [] (by simp) dropped later
          reachesLater cutsLater (fun less => absurd less inside)
        refine ⟨remaining :: pieces, ⟨.inl flatten, divided⟩, ?_, ?_⟩
        · rw [List.flatten_cons, flatten, List.append_nil]
        · have whole : chunkBytes content (start, stop) = utf8 (unlines remaining) := by
            rw [chunkBytes, slice, ← here]
            exact List.take_of_length_le (by rw [List.length_drop]; omega)
          rw [steps, List.map_cons, whole, chunks, List.map_cons]

end

-----------------------------------------------------------------------------------------
-- The whole file
-----------------------------------------------------------------------------------------

/-- There are no more chunks than workers. -/
theorem length_fileChunks_le (content : List Char) {numWorkers : Nat} (positive : 0 < numWorkers)
    : (fileChunks content numWorkers).length ≤ numWorkers := by
  have unsorted := foldl_addBoundary content (content.length / numWorkers) (numWorkers - 1) [0]
  rw [List.length_singleton] at unsorted
  have few := (List.dedup_sublist ((List.range' 1 (numWorkers - 1)).foldl
    (addBoundary content (content.length / numWorkers)) [0] ++ [content.length])).length_le
  rw [unsorted] at few
  rw [fileChunks_eq, length_steps, fileBoundaries, List.length_insertionSort, unsorted]
  simp only [List.length_append, List.length_map, List.length_range', List.length_singleton]
    at few
  omega

/-- The results of the pieces merged, against the records of the dump in one piece. -/
theorem mergeResults_near {pieces : List (List (List Char))} {numWorkers : Nat} {stream : Parsed}
    (divided : Divided pieces) (plain : ∀ piece ∈ pieces, ∀ line ∈ piece, '\n' ∉ line)
    (atMost : pieces.length ≤ numWorkers)
    (counts : CountsRecords streamAbsorb (cut (packets pieces.flatten)) stream)
    : let merged := mergeResults (pieces.map (fun piece => parseChunkWorker (unlines piece)))
      merged.recordsParsed = stream.recordsParsed
      ∧ ∀ page, Option.Rel (Near numWorkers) (merged.pageStats.get? page)
          (stream.pageStats.get? page) := by
  have worker (piece : List (List Char)) (member : piece ∈ pieces) :=
    parseChunkWorker_counts (plain piece member)
  constructor
  · have total := (divided.divides []).2
    rw [validCount] at total
    rw [mergeResults_recordsParsed, counts.recordsParsed, total, List.map_map]
    exact congrArg List.sum (List.map_congr_left fun piece member =>
      (worker piece member).recordsParsed)
  · intro page
    let values := pieces.filterMap (fun piece =>
      Dict.total PageStats.combine PageStats.zero (pageValues page (packets piece)))
    let records := onPage page (cut (packets pieces.flatten))
    have merged : (mergeResults (pieces.map
          (fun piece => parseChunkWorker (unlines piece)))).pageStats.get? page
        = Dict.total PageStats.add PageStats.zero values := by
      rw [mergeResults_get?, List.filterMap_map]
      exact congrArg _
        (List.filterMap_congr fun piece member => (worker piece member).pageStats page)
    have whole : Dict.total PageStats.combine PageStats.zero
          (records.map (fun record => (readRecord workerAbsorb record).contribution))
        = Dict.total PageStats.combine PageStats.zero values := by
      have parts := (divided.divides page).1
      rw [pageValues] at parts
      rw [parts, Dict.total_flatMap]
    have differ (record : List Packet) (member : record ∈ records)
        : Differ (readRecord workerAbsorb record) (readRecord streamAbsorb record) record := by
      have inDump := (List.mem_filter.mp member).1
      refine differ_record (cut_inner record inDump) (fun packet inRecord => ?_)
      obtain ⟨line, _, found⟩ := List.mem_filterMap.mp (cut_mem inDump packet inRecord)
      exact packet?_loadOrStore found
    have few : values.length ≤ numWorkers :=
      Nat.le_trans (List.length_filterMap_le _ _) atMost
    rw [merged, counts.pageStats]
    by_cases none : records = []
    · have empty : values = [] := by
        rw [none, List.map_nil] at whole
        simpa [Dict.total] using whole.symm
      rw [empty, show onPage page (cut (packets pieces.flatten)) = [] from none]
      exact .none
    · have some : values ≠ [] := by
        intro empty
        rw [empty] at whole
        exact none (by simpa [Dict.total] using whole)
      have same := Dict.foldl_of_total whole (by simpa using none)
      have near := (near_add values).mono few
      rw [← same] at near
      simp only [Dict.total, List.isEmpty_eq_false_iff.mpr some,
        List.isEmpty_eq_false_iff.mpr (show (onPage page (cut (packets pieces.flatten))).map
          (fun record => (readRecord streamAbsorb record).contribution) ≠ [] by simpa using none)]
      exact .some (near.differ differ)

/-- What `parse_stream` reads of a text file whose headers are no packets. -/
theorem parseFile_counts {lines : List (List Char)}
    (plain : ∀ line ∈ lines, '\n' ∉ line ∧ '\r' ∉ line)
    (headers : ∀ line ∈ lines, isHeader (strip line) = true → packet? (strip line) = none)
    : CountsRecords streamAbsorb (cut (packets lines)) (parseFile (unlines lines)) := by
  have noReturn : '\r' ∉ unlines lines := by
    intro member
    obtain ⟨line, inLines, inLine⟩ := List.mem_flatMap.mp member
    cases List.mem_append.mp inLine with
    | inl inside => exact (plain line inLines).2 inside
    | inr newline => simp at newline
  have meaning (line : List Char) (member : line ∈ lines)
      : streamMeaning (line ++ ['\n']) = packet? (strip line) := by
    rw [streamMeaning, strip_newline]
    split
    case isTrue header => exact (headers line member header).symm
    case isFalse => rfl
  have counts := parseStream_counts (readlines (universalNewlines (unlines lines)))
  rw [universalNewlines_eq noReturn, readlines_unlines fun line member => (plain line member).1,
    List.filterMap_map] at counts
  have same : lines.filterMap (streamMeaning ∘ fun line => line ++ ['\n']) = packets lines :=
    List.filterMap_congr meaning
  rw [same] at counts
  rwa [parseFile, universalNewlines_eq noReturn,
    readlines_unlines fun line member => (plain line member).1]

/-- Where no boundary cuts a record, `parse_file_parallel` counts the records that `parse_stream`
counts, and on each page the counters of both are near to each other.
-/
theorem parseFileParallel_near {lines : List (List Char)} {numWorkers : Nat}
    (positive : 0 < numWorkers) (plain : ∀ line ∈ lines, '\n' ∉ line ∧ '\r' ∉ line)
    (headers : ∀ line ∈ lines, isHeader (strip line) = true → packet? (strip line) = none)
    (cuts : ∀ position ∈ fileBoundaries (utf8 (unlines lines)) numWorkers,
      CutsNoRecord (utf8 (unlines lines)) position)
    : (parseFileParallel (unlines lines) numWorkers).recordsParsed
        = (parseFile (unlines lines)).recordsParsed
      ∧ ∀ page, Option.Rel (Near numWorkers)
          ((parseFileParallel (unlines lines) numWorkers).pageStats.get? page)
          ((parseFile (unlines lines)).pageStats.get? page) := by
  have same : ∀ page, Option.Rel (Near numWorkers)
      ((parseFile (unlines lines)).pageStats.get? page)
      ((parseFile (unlines lines)).pageStats.get? page) := by
    intro page
    cases (parseFile (unlines lines)).pageStats.get? page with
    | none => exact .none
    | some stats => exact .some (.refl positive stats)
  unfold parseFileParallel
  dsimp only
  split
  case isTrue => exact ⟨rfl, same⟩
  case isFalse =>
      split
      case isTrue => exact ⟨rfl, same⟩
      case isFalse =>
          let content := utf8 (unlines lines)
          obtain ⟨rest, parts⟩ := fileBoundaries_eq content numWorkers
          have ascending := fileBoundaries_ascending content numWorkers
          have last : content.length ∈ fileBoundaries content numWorkers :=
            mem_fileBoundaries.mpr (.inr (.inr rfl))
          rw [parts] at ascending last
          obtain ⟨pieces, divided, flatten, chunks⟩ :=
            chunks_divide (fun line member => (plain line member).1) List.drop_zero ascending
              ⟨_, last, Nat.le_refl _⟩
              (fun position member => cuts position (parts ▸ List.mem_cons_of_mem 0 member))
              (fun _ => rfl)
          rw [← parts, ← fileChunks_eq] at chunks
          have results : (fileChunks content numWorkers).map
                (fun chunk => parseChunkWorker (decodeUtf8 (chunkBytes content chunk)))
              = pieces.map (fun piece => parseChunkWorker (unlines piece)) := by
            have decoded := congrArg (List.map fun bytes => parseChunkWorker (decodeUtf8 bytes))
              chunks
            simpa only [List.map_map, Function.comp_def, decodeUtf8_utf8] using decoded
          have few : pieces.length ≤ numWorkers := by
            have lengths := congrArg List.length chunks
            rw [List.length_map, List.length_map] at lengths
            exact lengths ▸ length_fileChunks_le content positive
          rw [results]
          refine mergeResults_near divided (fun piece member line inPiece => ?_) few ?_
          · have inLines : line ∈ lines := flatten ▸ List.mem_flatten_of_mem member inPiece
            exact (plain line inLines).1
          · rw [flatten]
            exact parseFile_counts plain headers

-----------------------------------------------------------------------------------------
-- A large file
-----------------------------------------------------------------------------------------

/-- Two records of one page. -/
def twoRecords : List (SpeRecord × Option (Numeral 10)) :=
  [(documented, some (.dec 1664985821392)), (missed, some (.dec 1664985821400))]

/-- The two records over and over. -/
def repeated (count : Nat) : List (SpeRecord × Option (Numeral 10)) :=
  (List.replicate count twoRecords).flatten

/-- The lines of a dump that repeats the two records. -/
def repeatedDump (count : Nat) : List (List Char) := render (repeated count)

/-- A longer dump is a shorter one and the rest. -/
theorem repeatedDump_add (count more : Nat)
    : repeatedDump (count + more) = repeatedDump count ++ repeatedDump more := by
  rw [repeatedDump, repeated, List.replicate_add, List.flatten_append]
  exact List.flatMap_append

/-- Every line of the dump is one of the two records'. -/
theorem mem_repeatedDump {count : Nat} {line : List Char} (member : line ∈ repeatedDump count)
    : line ∈ render twoRecords := by
  obtain ⟨record, inRecords, inLines⟩ := List.mem_flatMap.mp member
  obtain ⟨block, inBlocks, inBlock⟩ := List.mem_flatten.mp inRecords
  rw [(List.mem_replicate.mp inBlocks).2] at inBlock
  exact List.mem_flatMap.mpr ⟨record, inBlock, inLines⟩

/-- The same of the bytes. -/
theorem utf8_repeatedDump_add (count more : Nat)
    : utf8 (unlines (repeatedDump (count + more)))
      = utf8 (unlines (repeatedDump count)) ++ utf8 (unlines (repeatedDump more)) := by
  rw [repeatedDump_add, unlines_append, utf8_append]

/-- One repetition has 270 bytes. -/
theorem length_repeatedDump (count : Nat)
    : (utf8 (unlines (repeatedDump count))).length = 270 * count := by
  have block : (utf8 (unlines (repeatedDump 1))).length = 270 := by decide +kernel
  induction count with
  | zero => rfl
  | succ count ih =>
      rw [utf8_repeatedDump_add, List.length_append, ih, block]
      omega

/-- The scan from the middle ends behind the first of the two records there. -/
theorem repeatedDump_firstTs (count : Nat)
    : ∃ before line after,
        before ≠ []
        ∧ isTsLine line.dropLast = true
        ∧ FirstTs (utf8 (unlines (repeatedDump (2 * (count + 1)))))
          (270 * (count + 1)) before line
            after := by
  have behind : (utf8 (unlines (repeatedDump (2 * (count + 1))))).drop (270 * (count + 1))
      = unlines ((repeatedDump 1 ++ repeatedDump count).map utf8) := by
    rw [Nat.two_mul, utf8_repeatedDump_add, List.drop_left' (length_repeatedDump (count + 1)),
      Nat.add_comm count 1, repeatedDump_add, utf8_unlines]
  have plain : ∀ line ∈ (repeatedDump 1 ++ repeatedDump count).map utf8, '\n' ∉ line := by
    intro line member
    obtain ⟨original, inLines, rfl⟩ := List.mem_map.mp member
    have known : original ∈ render twoRecords :=
      (List.mem_append.mp inLines).elim mem_repeatedDump mem_repeatedDump
    have all : ∀ line ∈ render twoRecords, '\n' ∉ line := by decide +kernel
    exact fun newline => all original known (mem_of_mem_utf8 (by decide) newline)
  have lines := readlines_unlines plain
  have first : ((repeatedDump 1).map utf8).map (fun line => line ++ ['\n'])
      = ((render twoRecords).take 7).map (fun line => line ++ ['\n'])
        ++ "TS 1664985821392\n".toList
          :: ((render twoRecords).drop 8).map (fun line => line ++ ['\n']) := by
    decide +kernel
  rw [← behind, List.map_append, List.map_append, first, List.append_assoc] at lines
  exact ⟨_, _, _, by decide +kernel, by decide +kernel, lines, by decide +kernel,
    by decide +kernel, by decide +kernel⟩

/-- Two workers share the dump behind a timestamp. -/
theorem repeatedDump_cuts (count : Nat)
    : ∀ position ∈ fileBoundaries (utf8 (unlines (repeatedDump (2 * (count + 1))))) 2,
        CutsNoRecord (utf8 (unlines (repeatedDump (2 * (count + 1))))) position := by
  have half : (utf8 (unlines (repeatedDump (2 * (count + 1))))).length / 2
      = 270 * (count + 1) := by
    rw [length_repeatedDump]
    omega
  intro position member
  rcases mem_fileBoundaries.mp member with rfl | ⟨i, low, high, rfl⟩ | rfl
  · exact fun nonzero => absurd rfl nonzero
  · obtain rfl : i = 1 := by omega
    obtain ⟨before, line, after, some, isTs, first⟩ := repeatedDump_firstTs count
    have place := scanLines_found first.lines first.early first.others first.starts
    rw [boundaryOf, half, Nat.one_mul, place, Option.getD_some]
    refine first.cutsNoRecord_iff.mpr (.inr ?_)
    rwa [if_neg some]
  · exact fun _ inside => absurd inside (Nat.lt_irrefl _)

/-- What `parse_stream` makes of the dump as a file. -/
theorem parseFile_repeatedDump (count : Nat)
    : SumsUp ((repeated count).map Prod.fst) (parseFile (unlines (repeatedDump count))) := by
  have plain : ∀ line ∈ repeatedDump count, '\n' ∉ line ∧ '\r' ∉ line := by
    intro line member
    have all : ∀ line ∈ render twoRecords, '\n' ∉ line ∧ '\r' ∉ line := by decide +kernel
    exact all line (mem_repeatedDump member)
  have noReturn : '\r' ∉ unlines (repeatedDump count) := by
    simpa [unlines] using fun line member => (plain line member).2
  rw [parseFile, universalNewlines_eq noReturn,
    readlines_unlines (fun line member => (plain line member).1)]
  exact (render_dump_newline (repeated count)).sumsUp

theorem length_repeated (count : Nat) : (repeated count).length = 2 * count := by
  rw [repeated, List.length_flatten, List.map_replicate, List.sum_replicate, Nat.mul_comm]
  rfl

/-- Every record of the dump lies on the one page. -/
theorem mem_repeated {count : Nat} {record : SpeRecord}
    (member : record ∈ (repeated count).map Prod.fst)
    : record.va.isSome = true ∧ record.page = some 0x40000fc59000 := by
  obtain ⟨entry, inEntries, rfl⟩ := List.mem_map.mp member
  obtain ⟨block, inBlocks, inBlock⟩ := List.mem_flatten.mp inEntries
  rw [(List.mem_replicate.mp inBlocks).2] at inBlock
  rcases List.mem_cons.mp inBlock with rfl | last
  · decide
  · rw [List.mem_singleton.mp last]
    decide

/-- All records of the dump are counted on their page. -/
theorem repeated_accesses (count : Nat)
    : ∃ stats,
        pageTotal ((((repeated (count + 1)).map Prod.fst).filter
          (fun record => record.page = some 0x40000fc59000)).map SpeRecord.contribution)
        = some stats
        ∧ stats .accessCount = 2 * (count + 1) := by
  have all : ((repeated (count + 1)).map Prod.fst).filter
      (fun record => record.page = some 0x40000fc59000) = (repeated (count + 1)).map Prod.fst :=
    List.filter_eq_self.mpr (fun record member => decide_eq_true (mem_repeated member).2)
  have accesses : (fun record : SpeRecord => record.contribution .accessCount) = fun _ => 1 := rfl
  have some : ((repeated (count + 1)).map Prod.fst).map SpeRecord.contribution ≠ [] := by
    simp [repeated, twoRecords]
  rw [all, pageTotal, if_neg some]
  refine ⟨_, rfl, ?_⟩
  rw [if_neg (by decide), List.map_map, Function.comp_def, accesses, List.map_const',
    List.sum_replicate, List.length_map, length_repeated]
  exact Nat.mul_one _

/-- A file of more than 10 MB that two workers parse, with all records on one page. -/
theorem repeatedDump_near
    : let text := unlines (repeatedDump 38838)
      10 * 1024 * 1024 ≤ (utf8 text).length
      ∧ (parseFileParallel text 2).recordsParsed = 77676
      ∧ ∃ parallel plain,
          (parseFileParallel text 2).pageStats.get? (hex 0x40000fc59000) = some parallel
          ∧ (parseFile text).pageStats.get? (hex 0x40000fc59000) = some plain
          ∧ plain .accessCount = 77676
          ∧ Near 2 parallel plain := by
  dsimp only
  have alike : ∀ line ∈ render twoRecords, ('\n' ∉ line ∧ '\r' ∉ line)
      ∧ isHeader (strip line) = false := by
    decide +kernel
  obtain ⟨counted, near⟩ := @parseFileParallel_near (repeatedDump 38838) 2 (by decide)
    (fun line member => (alike line (mem_repeatedDump member)).1)
    (fun line member header => by
      rw [(alike line (mem_repeatedDump member)).2] at header
      cases header)
    (repeatedDump_cuts 19418)
  have sums := parseFile_repeatedDump 38838
  have onPage := near (hex 0x40000fc59000)
  refine ⟨by rw [length_repeatedDump]; decide, ?_, ?_⟩
  · rw [counted, sums.recordsParsed,
      List.countP_eq_length.mpr (fun record member => (mem_repeated member).1), List.length_map,
      length_repeated]
  · obtain ⟨plain, total, accesses⟩ := repeated_accesses 38837
    rw [sums.pageStats, total] at onPage ⊢
    cases found : (parseFileParallel (unlines (repeatedDump 38838)) 2).pageStats.get?
        (hex 0x40000fc59000) with
    | none =>
        rw [found] at onPage
        cases onPage
    | some parallel =>
        rw [found] at onPage
        cases onPage with
        | some near => exact ⟨parallel, plain, rfl, rfl, accesses, near⟩

end Kumf.Spe
