import Kumf.Library.PyLines
import Kumf.Library.Slices
import Kumf.Library.Utf8Decode
import Kumf.Spe.Packets
import Mathlib.Data.List.Dedup
import Mathlib.Data.List.Sort

/-! The chunks of `parse_file_parallel`: positions that a scan for `TS` lines finds or makes up, and
the bytes between them. They cut the file into parts, but not always behind a record.
-/

namespace Kumf.Spe

open Kumf.Library PyText

/-- The loop that reads lines from a position on, at most so many. -/
def scanLines (content : List Char) : Nat → Nat → Option Nat
  | 0, _ => none
  | limit + 1, position =>
      let line := readline (content.drop position)
      if line = [] then none
      else if startsWith line "TS ".toList then some (position + line.length)
      else scanLines content limit (position + line.length)

/-- A turn of the loop over the workers. -/
def addBoundary (content : List Char) (chunkSize : Nat) (boundaries : List Nat) (i : Nat)
    : List Nat :=
  let offset := i * chunkSize
  let boundaries := boundaries ++ (scanLines content 10000 offset).toList
  if boundaries.length ≤ i then boundaries ++ [offset + chunkSize * i] else boundaries

/-- `boundaries`, sorted and without duplicates -/
def fileBoundaries (content : List Char) (numWorkers : Nat) : List Nat :=
  let chunkSize := content.length / numWorkers
  let boundaries :=
    (List.range' 1 (numWorkers - 1)).foldl (addBoundary content chunkSize) [0]
      ++ [content.length]
  boundaries.dedup.insertionSort (fun a b => a ≤ b)

/-- `chunks` -/
def fileChunks (content : List Char) (numWorkers : Nat) : List (Nat × Nat) :=
  (steps (fileBoundaries content numWorkers)).filter (fun (start, stop) => start < stop)

/-- What `_parse_chunk_worker` reads of the file: nothing behind its end. -/
def chunkBytes (content : List Char) (chunk : Nat × Nat) : List Char :=
  slice content chunk.1 chunk.2

-----------------------------------------------------------------------------------------
-- The boundaries
-----------------------------------------------------------------------------------------

/-- The boundary of a worker: where the scan stops, or twice its offset. -/
def boundaryOf (content : List Char) (chunkSize i : Nat) : Nat :=
  (scanLines content 10000 (i * chunkSize)).getD (2 * (i * chunkSize))

section
variable {content : List Char} {numWorkers chunkSize : Nat}

theorem addBoundary_eq {boundaries : List Nat} {i : Nat} (one : boundaries.length = i)
    : addBoundary content chunkSize boundaries i
      = boundaries ++ [boundaryOf content chunkSize i] := by
  unfold addBoundary boundaryOf
  dsimp only
  cases scanLines content 10000 (i * chunkSize) with
  | none =>
      rw [Option.toList_none, List.append_nil, if_pos (Nat.le_of_eq one), Option.getD_none,
        Nat.mul_comm chunkSize i, Nat.two_mul]
  | some stop =>
      rw [Option.toList_some, List.length_append, List.length_singleton, if_neg (by omega)]
      rfl

/-- Each worker behind the first one adds its boundary. -/
theorem foldl_addBoundary (content : List Char) (chunkSize : Nat) (count : Nat)
    (boundaries : List Nat)
    : (List.range' boundaries.length count).foldl (addBoundary content chunkSize) boundaries
      = boundaries
        ++ (List.range' boundaries.length count).map (boundaryOf content chunkSize) := by
  induction count generalizing boundaries with
  | zero => exact (List.append_nil boundaries).symm
  | succ count ih =>
      have rest := ih (boundaries ++ [boundaryOf content chunkSize boundaries.length])
      rw [List.length_append, List.length_singleton, List.append_assoc] at rest
      rw [List.range'_succ, List.foldl_cons, addBoundary_eq rfl, rest]
      rfl

theorem mem_fileBoundaries {position : Nat}
    : position ∈ fileBoundaries content numWorkers
      ↔ position = 0
        ∨ (∃ i, 0 < i ∧ i < numWorkers
          ∧ boundaryOf content (content.length / numWorkers) i = position)
        ∨ position = content.length := by
  have unsorted := foldl_addBoundary content (content.length / numWorkers) (numWorkers - 1) [0]
  rw [List.length_singleton] at unsorted
  rw [fileBoundaries, unsorted, List.mem_insertionSort, List.mem_dedup]
  simp only [List.mem_append, List.mem_singleton, List.mem_map, List.mem_range'_1]
  constructor
  · rintro ((zero | ⟨i, bounds, rfl⟩) | last)
    · exact .inl zero
    · exact .inr (.inl ⟨i, by omega, by omega, rfl⟩)
    · exact .inr (.inr last)
  · rintro (zero | ⟨i, low, high, rfl⟩ | last)
    · exact .inl (.inl zero)
    · exact .inl (.inr ⟨i, by omega, rfl⟩)
    · exact .inr last

theorem fileBoundaries_ascending (content : List Char) (numWorkers : Nat)
    : (fileBoundaries content numWorkers).Pairwise (fun a b => a < b) := by
  have sorted : (fileBoundaries content numWorkers).Pairwise (fun a b => a ≤ b) :=
    List.pairwise_insertionSort _ _
  have distinct : (fileBoundaries content numWorkers).Nodup :=
    (List.perm_insertionSort _ _).nodup_iff.mpr (List.nodup_dedup _)
  exact (sorted.and distinct).imp (fun both => Nat.lt_of_le_of_ne both.1 both.2)

/-- The boundaries start with 0. -/
theorem fileBoundaries_eq (content : List Char) (numWorkers : Nat)
    : ∃ rest, fileBoundaries content numWorkers = 0 :: rest := by
  have zero : 0 ∈ fileBoundaries content numWorkers := mem_fileBoundaries.mpr (.inl rfl)
  have ascending := fileBoundaries_ascending content numWorkers
  cases parts : fileBoundaries content numWorkers with
  | nil =>
      rw [parts] at zero
      cases zero
  | cons first rest =>
      rw [parts] at zero ascending
      rcases List.mem_cons.mp zero with rfl | later
      · exact ⟨rest, rfl⟩
      · exact absurd ((List.pairwise_cons.mp ascending).1 0 later) (Nat.not_lt_zero first)

/-- Every step between boundaries is a chunk. -/
theorem fileChunks_eq (content : List Char) (numWorkers : Nat)
    : fileChunks content numWorkers = steps (fileBoundaries content numWorkers) := by
  refine List.filter_eq_self.mpr (fun step member => decide_eq_true ?_)
  exact steps_forward (fileBoundaries_ascending content numWorkers) step member

-----------------------------------------------------------------------------------------
-- The chunks part the file
-----------------------------------------------------------------------------------------

/-- The workers read every byte of the file once: one behind the other their chunks are the file,
and a byte lies in exactly one of them. What lies behind the end is read as nothing.
-/
theorem fileChunks_cover (content : List Char) (numWorkers : Nat)
    : (fileChunks content numWorkers).flatMap (chunkBytes content) = content
      ∧ (∀ byte < content.length, (fileChunks content numWorkers).countP (inStep byte) = 1)
      ∧ ∀ chunk ∈ fileChunks content numWorkers,
          content.length ≤ chunk.1 → chunkBytes content chunk = [] := by
  have ascending := fileBoundaries_ascending content numWorkers
  have last : content.length ∈ fileBoundaries content numWorkers :=
    mem_fileBoundaries.mpr (.inr (.inr rfl))
  obtain ⟨rest, parts⟩ := fileBoundaries_eq content numWorkers
  rw [fileChunks_eq, parts]
  rw [parts] at ascending last
  refine ⟨flatMap_steps content ascending ⟨_, last, Nat.le_refl _⟩, fun byte inside => ?_,
    fun chunk _ beyond => slice_beyond content beyond _⟩
  refine countP_steps ascending (Nat.zero_le byte) ⟨content.length, ?_, inside⟩
  rcases List.mem_cons.mp last with empty | inRest
  · rw [empty] at inside
    exact absurd inside (Nat.not_lt_zero byte)
  · exact inRest

end

-----------------------------------------------------------------------------------------
-- Boundaries and TS lines
-----------------------------------------------------------------------------------------

/-- A line in which `_parse_chunk_worker` finds the end of a record. -/
def isTsLine (line : List Char) : Bool := (reTs.search (strip (decodeUtf8 line))).isSome

/-- A position lies directly behind a TS line. -/
def BehindTsLine (content : List Char) (position : Nat) : Prop :=
  ∃ text, content.take position = text ++ ['\n'] ∧ isTsLine (lastLine text) = true

/-- A boundary cuts no record: it lies behind a TS line, or at an end of the file. -/
def CutsNoRecord (content : List Char) (position : Nat) : Prop :=
  position ≠ 0 → position < content.length → BehindTsLine content position

/-- Of the lines read from an offset, the first one that starts like a timestamp is soon enough
for the scan.
-/
structure FirstTs (content : List Char) (offset : Nat) (before : List (List Char))
    (line : List Char) (after : List (List Char))
    : Prop where
  lines : readlines (content.drop offset) = before ++ line :: after
  early : before.length < 10000
  others : ∀ other ∈ before, startsWith other "TS ".toList = false
  starts : startsWith line "TS ".toList = true

/-- None of the lines that the scan reads from an offset starts like a timestamp. -/
def NoTs (content : List Char) (offset : Nat) : Prop :=
  ∀ line ∈ (readlines (content.drop offset)).take 10000, startsWith line "TS ".toList = false

/-- The first line from an offset that starts like a timestamp is a TS line, together with what
stands in front of the offset on the same line, or the last line. Without such a line, twice the
offset happens to be no place inside a record.
-/
structure SplitsWell (content : List Char) (offset : Nat) : Prop where
  found
    : ∀ before line after,
        FirstTs content offset before line after
        → after = []
          ∨ isTsLine
              ((if before = [] then lastLine (content.take offset) else []) ++ line.dropLast)
            = true
  missing : NoTs content offset → CutsNoRecord content (2 * offset)

section
variable {content : List Char}

/-- What one turn of the scan reads. -/
theorem readlines_drop {position : Nat} {line : List Char} {rest : List (List Char)}
    (parts : readlines (content.drop position) = line :: rest)
    : readline (content.drop position) = line ∧ line ≠ []
      ∧ readlines (content.drop (position + line.length)) = rest := by
  have some : content.drop position ≠ [] := by
    intro none
    rw [none] at parts
    cases parts
  rw [readlines_eq some] at parts
  obtain ⟨first, behind⟩ := List.cons.inj parts
  rw [List.drop_drop, first] at behind
  exact ⟨first, first ▸ readline_ne_nil some, behind⟩

/-- The scan goes past lines that do not start like a timestamp, by induction on them. -/
theorem scanLines_found {before : List (List Char)} {line : List Char}
    {after : List (List Char)} {limit position : Nat}
    (parts : readlines (content.drop position) = before ++ line :: after)
    (early : before.length < limit)
    (others : ∀ other ∈ before, startsWith other "TS ".toList = false)
    (starts : startsWith line "TS ".toList = true)
    : scanLines content limit position = some (position + (before.flatten ++ line).length) := by
  induction before generalizing limit position with
  | nil =>
      obtain ⟨left, rfl⟩ := Nat.exists_eq_add_of_lt early
      obtain ⟨first, some, _⟩ := readlines_drop parts
      rw [List.length_nil, Nat.zero_add, scanLines, first, if_neg some, if_pos starts]
      rfl
  | cons other before ih =>
      obtain ⟨first, some, rest⟩ := readlines_drop parts
      obtain ⟨limit, rfl⟩ := Nat.exists_eq_add_of_lt (Nat.lt_of_le_of_lt (Nat.zero_le _) early)
      have later : before.length < limit := by
        rw [List.length_cons] at early
        omega
      have next := ih rest later
        (fun another member => others another (List.mem_cons_of_mem other member))
      rw [Nat.zero_add, scanLines, first, if_neg some, others other List.mem_cons_self,
        if_neg (by decide), next, List.flatten_cons]
      simp only [List.length_append, Nat.add_assoc]

/-- A scan that meets no such line finds nothing. -/
theorem scanLines_none {limit position : Nat}
    (none : ∀ line ∈ (readlines (content.drop position)).take limit,
      startsWith line "TS ".toList = false)
    : scanLines content limit position = .none := by
  induction limit generalizing position with
  | zero => rfl
  | succ limit ih =>
      rw [scanLines]
      split
      · rfl
      next some =>
        have rest : content.drop position ≠ [] := by
          intro empty
          rw [empty] at some
          exact some rfl
        have parts := readlines_eq rest
        rw [List.drop_drop] at parts
        rw [parts, List.take_succ_cons] at none
        obtain ⟨first, later⟩ := List.forall_mem_cons.mp none
        rw [first, if_neg (by decide)]
        exact ih later

/-- There is such a line among those that the scan reads, or there is none. -/
theorem firstTs_or_noTs (content : List Char) (offset : Nat)
    : (∃ before line after, FirstTs content offset before line after)
      ∨ NoTs content offset := by
  cases found : ((readlines (content.drop offset)).take 10000).find?
      (fun line => startsWith line "TS ".toList) with
  | none =>
      refine .inr (fun line member => ?_)
      exact Bool.eq_false_of_not_eq_true (List.find?_eq_none.mp found line member)
  | some line =>
      obtain ⟨starts, before, after, parts, others⟩ := List.find?_eq_some_iff_append.mp found
      refine .inl ⟨before, line, after ++ (readlines (content.drop offset)).drop 10000, ?_, ?_,
        fun other member => by simpa using others other member, starts⟩
      · rw [← List.cons_append, ← List.append_assoc, ← parts, List.take_append_drop]
      · have few := List.length_take_le 10000 (readlines (content.drop offset))
        rw [parts, List.length_append, List.length_cons] at few
        omega

section
variable {offset : Nat} {before after : List (List Char)} {line : List Char}

theorem FirstTs.not_noTs (first : FirstTs content offset before line after)
    : ¬ NoTs content offset := by
  intro none
  have member : line ∈ (readlines (content.drop offset)).take 10000 := by
    obtain ⟨left, enough⟩ := Nat.exists_eq_add_of_lt first.early
    have room : 10000 - before.length = left + 1 := by omega
    rw [first.lines, List.take_append, room, List.take_succ_cons]
    exact List.mem_append_right _ List.mem_cons_self
  have starts := first.starts
  rw [none line member] at starts
  cases starts

/-- The file around the line. -/
theorem FirstTs.parts (first : FirstTs content offset before line after)
    : content = content.take offset ++ (before.flatten ++ line) ++ after.flatten := by
  have behind := flatten_readlines (content.drop offset)
  rw [first.lines, List.flatten_append, List.flatten_cons, ← List.append_assoc] at behind
  rw [List.append_assoc, behind, List.take_append_drop]

/-- Where the scan stops. -/
theorem FirstTs.stop_eq (first : FirstTs content offset before line after)
    : (content.take offset ++ (before.flatten ++ line)).length
      = offset + (before.flatten ++ line).length := by
  have inside : offset < content.length := by
    by_contra beyond
    have none := first.lines
    rw [List.drop_eq_nil_of_le (not_lt.mp beyond)] at none
    cases before with
    | nil => cases none
    | cons other before => cases none
  rw [List.length_append, List.length_take, Nat.min_eq_left (Nat.le_of_lt inside)]

/-- What stands in front of a line that is read, on its own line. -/
theorem FirstTs.lastLine_front (first : FirstTs content offset before line after)
    : lastLine (content.take offset ++ before.flatten)
      = if before = [] then lastLine (content.take offset) else [] := by
  rcases List.eq_nil_or_concat before with rfl | ⟨before, last, rfl⟩
  · rw [List.flatten_nil, List.append_nil, if_pos rfl]
  · rw [List.concat_eq_append] at first ⊢
    have lines := first.lines
    rw [List.append_assoc, List.singleton_append] at lines
    obtain ⟨body, rfl, _⟩ := readlines_line lines (List.cons_ne_nil line after)
    rw [if_neg (by simp), List.flatten_append, List.flatten_singleton, ← List.append_assoc,
      ← List.append_assoc, lastLine_newline]

/-- The place where the scan stops is well chosen if the line is a TS line, or the last one. -/
theorem FirstTs.cutsNoRecord_iff (first : FirstTs content offset before line after)
    : CutsNoRecord content (offset + (before.flatten ++ line).length)
      ↔ after = []
        ∨ isTsLine
            ((if before = [] then lastLine (content.take offset) else []) ++ line.dropLast)
          = true := by
  have whole := first.parts
  have stop := first.stop_eq
  have line_ne : line ≠ [] := readlines_ne_nil (by
    rw [first.lines]
    exact List.mem_append_right _ List.mem_cons_self)
  have length := congrArg List.length whole
  rw [List.length_append, stop] at length
  by_cases last : after = []
  · rw [last, List.flatten_nil, List.length_nil] at length
    refine iff_of_true (fun _ inside => absurd inside (by omega)) (.inl last)
  · obtain ⟨body, rfl, plain⟩ := readlines_line first.lines last
    have more : 0 < after.flatten.length := by
      obtain ⟨next, later, rfl⟩ := List.exists_cons_of_ne_nil last
      have some : next ≠ [] := readlines_ne_nil (by
        rw [first.lines]
        exact List.mem_append_right _ (List.mem_cons_of_mem _ List.mem_cons_self))
      rw [List.flatten_cons, List.length_append]
      have positive := List.length_pos_iff.mpr some
      omega
    have taken : content.take (offset + (before.flatten ++ (body ++ ['\n'])).length)
        = content.take offset ++ before.flatten ++ body ++ ['\n'] := by
      have front :=
        congrArg (List.take (offset + (before.flatten ++ (body ++ ['\n'])).length)) whole
      rw [List.take_left' stop] at front
      simpa only [List.append_assoc] using front
    have positive : 0 < (before.flatten ++ (body ++ ['\n'])).length := by simp
    rw [or_iff_right last, List.dropLast_concat, ← first.lastLine_front,
      ← lastLine_append plain]
    constructor
    · intro cuts
      obtain ⟨text, same, isTs⟩ := cuts (by omega) (by omega)
      rw [taken] at same
      rwa [List.append_cancel_right same]
    · intro isTs _ _
      exact ⟨_, taken, isTs⟩

end

/-- The place that a worker gets is well chosen exactly if the file splits well at its offset. -/
theorem cutsNoRecord_scan (content : List Char) (offset : Nat)
    : CutsNoRecord content ((scanLines content 10000 offset).getD (2 * offset))
      ↔ SplitsWell content offset := by
  rcases firstTs_or_noTs content offset with ⟨before, line, after, first⟩ | none
  · have found {b line a} (other : FirstTs content offset b line a) :=
      scanLines_found other.lines other.early other.others other.starts
    rw [found first, Option.getD_some]
    constructor
    · intro cuts
      constructor
      case found =>
        intro b l a other
        have same := Option.some.inj ((found first).symm.trans (found other))
        rw [same] at cuts
        exact other.cutsNoRecord_iff.mp cuts
      case missing => exact fun none => absurd none first.not_noTs
    · intro splits
      exact first.cutsNoRecord_iff.mpr (splits.found before line after first)
  · rw [scanLines_none none, Option.getD_none]
    constructor
    · intro cuts
      exact ⟨fun b l a first => absurd none first.not_noTs, fun _ => cuts⟩
    · exact fun splits => splits.missing none

/-- The boundaries cut no record exactly if the file splits well at the offset of each worker
behind the first one.
-/
theorem fileBoundaries_cutNoRecord_iff (content : List Char) (numWorkers : Nat)
    : (∀ position ∈ fileBoundaries content numWorkers, CutsNoRecord content position)
      ↔ ∀ i,
          0 < i
          → i < numWorkers
          → SplitsWell content (i * (content.length / numWorkers)) := by
  constructor
  · intro cuts i low high
    exact (cutsNoRecord_scan content _).mp
      (cuts _ (mem_fileBoundaries.mpr (.inr (.inl ⟨i, low, high, rfl⟩))))
  · intro splits position member
    rcases mem_fileBoundaries.mp member with rfl | ⟨i, low, high, rfl⟩ | rfl
    · exact fun nonzero => absurd rfl nonzero
    · exact (cutsNoRecord_scan content _).mpr (splits i low high)
    · exact fun _ inside => absurd inside (Nat.lt_irrefl _)

end

-----------------------------------------------------------------------------------------
-- Indented lines
-----------------------------------------------------------------------------------------

/-- A dump in which every line is an indented timestamp. -/
def indentedDump (count : Nat) : List Char :=
  (List.replicate count "    TS 1\n".toList).flatten

theorem indentedDump_succ (count : Nat)
    : indentedDump (count + 1) = "    TS 1".toList ++ '\n' :: indentedDump count := by
  rw [indentedDump, List.replicate_succ, List.flatten_cons]
  rfl

theorem indentedDump_add (count more : Nat)
    : indentedDump (count + more) = indentedDump count ++ indentedDump more := by
  rw [indentedDump, List.replicate_add, List.flatten_append]
  rfl

theorem length_indentedDump (count : Nat) : (indentedDump count).length = 9 * count := by
  induction count with
  | zero => rfl
  | succ count ih =>
      rw [indentedDump_succ, List.length_append, List.length_cons, ih]
      have line : "    TS 1".toList.length = 8 := rfl
      omega

theorem readlines_indentedDump (count : Nat)
    : readlines (indentedDump count) = List.replicate count "    TS 1\n".toList := by
  induction count with
  | zero => rfl
  | succ count ih =>
      rw [indentedDump_succ, readlines_line_append (by decide), ih]
      rfl

/-- The scan from inside an indentation finds nothing, and twice the offset lies in a line. -/
theorem indentedDump_not_splitsWell (count : Nat)
    : ¬ SplitsWell (indentedDump (3 * count + 1)) (9 * count + 3) := by
  intro splits
  have line : indentedDump 1 = "    TS 1\n".toList := rfl
  have front : indentedDump (3 * count + 1)
      = indentedDump count ++ (indentedDump 1 ++ indentedDump (2 * count)) := by
    rw [← indentedDump_add, ← indentedDump_add]
    congr 1
    omega
  have back : indentedDump (3 * count + 1)
      = indentedDump (2 * count) ++ (indentedDump 1 ++ indentedDump count) := by
    rw [← indentedDump_add, ← indentedDump_add]
    congr 1
    omega
  have noTs : NoTs (indentedDump (3 * count + 1)) (9 * count + 3) := by
    intro read member
    have behind : (indentedDump (3 * count + 1)).drop (9 * count + 3)
        = " TS 1".toList ++ '\n' :: indentedDump (2 * count) := by
      rw [front, ← length_indentedDump count, ← List.drop_drop, List.drop_left, line]
      rfl
    rw [behind, readlines_line_append (by decide), readlines_indentedDump] at member
    rcases List.mem_cons.mp (List.mem_of_mem_take member) with rfl | later
    · rfl
    · rw [(List.mem_replicate.mp later).2]
      rfl
  have taken : (indentedDump (3 * count + 1)).take (2 * (9 * count + 3))
      = indentedDump (2 * count) ++ "    T".toList ++ ['S'] := by
    have place : 2 * (9 * count + 3) = (indentedDump (2 * count)).length + 6 := by
      rw [length_indentedDump]
      omega
    rw [back, place, List.take_length_add_append, line, List.append_assoc]
    rfl
  obtain ⟨text, same, _⟩ := splits.missing noTs (by omega) (by
    rw [length_indentedDump]
    omega)
  rw [taken] at same
  have last := congrArg List.getLast? same
  rw [List.getLast?_concat, List.getLast?_concat] at last
  exact absurd (Option.some.inj last) (by decide)

/-- With three workers a dump of 10 MB is cut inside a line. -/
theorem indentedDump_cutInside
    : 10 * 1024 * 1024 ≤ (indentedDump 1165087).length
      ∧ ∃ position ∈ fileBoundaries (indentedDump 1165087) 3,
          ¬ CutsNoRecord (indentedDump 1165087) position := by
  have length : (indentedDump 1165087).length = 9 * 1165087 := length_indentedDump 1165087
  have third : (indentedDump 1165087).length / 3 = 9 * 388362 + 3 := by
    rw [length]
  refine ⟨by rw [length]; decide, _,
    mem_fileBoundaries.mpr (.inr (.inl ⟨1, by decide, by decide, rfl⟩)), ?_⟩
  rw [boundaryOf, cutsNoRecord_scan, third, Nat.one_mul]
  exact indentedDump_not_splitsWell 388362

end Kumf.Spe
