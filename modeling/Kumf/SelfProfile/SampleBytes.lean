import Kumf.SelfProfile.Buffers

/-! The bytes that `parse_spe_buffer` writes of a sample: only the start of a record is taken modulo
the size of the buffer, so a record across its end is read on behind it.
-/

namespace Kumf.SelfProfile

open Kumf.Library

/-- The places that a turn of the loop looks at. -/
def Walk.touches (walk : Walk) (base : Nat → UInt8) : List Nat :=
  let position := (walk.tail + walk.consumed) % 2 ^ 64
  if position < walk.head then
    let offset := position &&& (bufSize - 1)
    let size := readLittle base (offset + 6) 2
    List.range' (offset + 6) 2
      ++ (if size = 0 then
          []
        else
          List.range' offset 4
            ++ (if readLittle base offset 4 = perfRecordSample then
                List.range' offset (min size 128)
              else
                []))
  else
    []

/-- The loop of `parse_spe_buffer` on a buffer that stays as it is: the lines that it writes and
the places that it looks at.
-/
def Walk.loop (base : Nat → UInt8) : Nat → Walk → Option (List SampleLine × List Nat)
  | 0, _ => none
  | fuel + 1, walk =>
      match walk.turn base with
      | none => some ([], walk.touches base)
      | some (next, lines) =>
          (loop base fuel next).map
            (fun (later, touched) => (lines ++ later, walk.touches base ++ touched))

/-- `parse_spe_buffer` -/
def Page.parseSpeBuffer (fuel : Nat) (page : Page) (cpu : Nat)
    : Option (Page × List SampleLine × List Nat) :=
  match page.enter cpu with
  | none => some (page, [], [])
  | some walk =>
      (walk.loop page.base fuel).map
        (fun (lines, touched) => (page.acknowledge walk, lines, touched))

/-- Records stand in the ring between the tail and the head. -/
structure Page.Delimits (page : Page) (records : List Record) : Prop where
  counted : page.dataHead = page.dataTail + totalSize records
  below : page.dataHead < 2 ^ 64
  holds : Ring.Holds bufSize page.base page.dataTail (records.flatMap Record.bytes)

/-- The line that a sample is worth: its first 128 bytes, or all of them. -/
def Record.line (cpu : Nat) (record : Record) : SampleLine where
  cpu
  size := record.size
  data := record.bytes.take 128

/-- The lines of the samples among some records. -/
def sampleLines (cpu : Nat) (records : List Record) : List SampleLine :=
  (records.filter Record.isSample).map (Record.line cpu)

/-- A call writes the lines of the samples, and looks at the data area only. -/
def Page.WritesSamples (page : Page) (cpu : Nat) (records : List Record) : Prop :=
  ∃ fuel after lines touched,
    page.parseSpeBuffer fuel cpu = some (after, lines, touched)
    ∧ lines = sampleLines cpu records
    ∧ ∀ place ∈ touched, place < bufSize

/-- How many bytes of a record the loop looks at. -/
def Record.looked (record : Record) : Nat :=
  if record.isSample then min record.size 128 else 8

/-- No record from a position on has the end of the buffer among the bytes that are looked at. -/
def Uncut : Nat → List Record → Prop
  | _, [] => True
  | position, record :: records =>
      position % bufSize + record.looked ≤ bufSize ∧ Uncut (position + record.size) records

-----------------------------------------------------------------------------------------
-- Calls of the loop
-----------------------------------------------------------------------------------------

section
variable {base : Nat → UInt8} {walk next : Walk} {lines first : List SampleLine}
  {touched : List Nat}

/-- What the loop returns from a walk, with fuel enough. -/
def Walk.Returns (walk : Walk) (base : Nat → UInt8) (lines : List SampleLine)
    (touched : List Nat)
    : Prop :=
  ∃ fuel, walk.loop base fuel = some (lines, touched)

theorem Walk.returns_end (ends : walk.turn base = none)
    : walk.Returns base lines touched ↔ lines = [] ∧ touched = walk.touches base := by
  constructor
  · rintro ⟨fuel, returned⟩
    cases fuel with
    | zero => cases returned
    | succ fuel =>
        rw [loop, ends] at returned
        cases returned
        exact ⟨rfl, rfl⟩
  · rintro ⟨rfl, rfl⟩
    exact ⟨1, by rw [loop, ends]⟩

theorem Walk.returns_turn (turned : walk.turn base = some (next, first))
    : walk.Returns base lines touched
      ↔ ∃ later rest,
          next.Returns base later rest
          ∧ lines = first ++ later ∧ touched = walk.touches base ++ rest := by
  constructor
  · rintro ⟨fuel, returned⟩
    cases fuel with
    | zero => cases returned
    | succ fuel =>
        rw [loop, turned] at returned
        obtain ⟨⟨later, rest⟩, found, same⟩ := Option.map_eq_some_iff.mp returned
        cases same
        exact ⟨later, rest, ⟨fuel, found⟩, rfl, rfl⟩
  · rintro ⟨later, rest, ⟨fuel, found⟩, rfl, rfl⟩
    refine ⟨fuel + 1, ?_⟩
    rw [loop, turned]
    dsimp only
    rw [found]
    rfl

end

-----------------------------------------------------------------------------------------
-- A turn at a record
-----------------------------------------------------------------------------------------

/-- A walk has come to a position in front of some records. -/
structure Walk.At (walk : Walk) (base : Nat → UInt8) (position : Nat) (records : List Record)
    : Prop where
  here : walk.tail + walk.consumed = position
  head : walk.head = position + totalSize records
  below : walk.head < 2 ^ 64
  holds : Ring.Holds bufSize base position (records.flatMap Record.bytes)

section
variable {base : Nat → UInt8} {walk : Walk} {position : Nat} {record : Record}
  {records : List Record}

theorem Record.eight_le_size (record : Record) : 8 ≤ record.size := Nat.le_add_right 8 _

theorem Record.eight_le_looked (record : Record) : 8 ≤ record.looked := by
  have size := record.eight_le_size
  unfold looked
  split
  · omega
  · omega

theorem place_lt (position : Nat) : position % bufSize < bufSize :=
  Nat.mod_lt _ (by decide)

/-- With no records ahead the loop ends and looks at nothing more. -/
theorem Walk.At.turn_end (stands : walk.At base position [])
    : walk.turn base = none ∧ walk.touches base = [] := by
  have below := stands.below
  have head := stands.head
  rw [totalSize_nil, Nat.add_zero] at head
  have here : (walk.tail + walk.consumed) % 2 ^ 64 = walk.head := by
    rw [stands.here, head]
    exact Nat.mod_eq_of_lt (by omega)
  rw [turn, touches, here]
  exact ⟨if_neg (Nat.lt_irrefl _), if_neg (Nat.lt_irrefl _)⟩

/-- In front of a record the loop goes on. -/
theorem Walk.At.before (stands : walk.At base position (record :: records))
    : (walk.tail + walk.consumed) % 2 ^ 64 = position ∧ position < walk.head := by
  have below := stands.below
  have head := stands.head
  have size := record.eight_le_size
  rw [totalSize_cons] at head
  refine ⟨?_, by omega⟩
  rw [stands.here]
  exact Nat.mod_eq_of_lt (by omega)

/-- The size field is looked at in any case. -/
theorem Walk.At.touches_size (stands : walk.At base position (record :: records))
    : position % bufSize + 7 ∈ walk.touches base := by
  obtain ⟨here, inside⟩ := stands.before
  rw [touches, here, if_pos inside]
  simp only [and_mask]
  refine List.mem_append_left _ (List.mem_range'_1.mpr ?_)
  omega

/-- What a turn looks at of a record whose header lies in front of the end. -/
theorem Walk.At.touches_record (stands : walk.At base position (record :: records))
    (room : position % bufSize + 8 ≤ bufSize)
    : (∀ place ∈ walk.touches base, place < bufSize)
      ↔ position % bufSize + record.looked ≤ bufSize := by
  obtain ⟨here, inside⟩ := stands.before
  obtain ⟨type, size⟩ := readHeader room stands.holds
  have small := record.eight_le_size
  have start := place_lt position
  have field : (∀ place ∈ List.range' (position % bufSize + 6) 2, place < bufSize) := by
    intro place member
    have bounds := List.mem_range'_1.mp member
    omega
  have typeField : (∀ place ∈ List.range' (position % bufSize) 4, place < bufSize) := by
    intro place member
    have bounds := List.mem_range'_1.mp member
    omega
  rw [touches, here, if_pos inside]
  simp only [and_mask, size, type, if_neg (by omega : record.size ≠ 0), List.forall_mem_append]
  rw [and_iff_right field, and_iff_right typeField, Record.looked, Record.isSample]
  by_cases sample : record.type.val = perfRecordSample
  · rw [if_pos sample, decide_eq_true sample, if_pos rfl]
    constructor
    · intro all
      have last := all (position % bufSize + (min record.size 128 - 1))
        (List.mem_range'_1.mpr (by omega))
      omega
    · intro fits place member
      have bounds := List.mem_range'_1.mp member
      omega
  · rw [if_neg sample, decide_eq_false sample]
    exact iff_of_true (List.forall_mem_nil _) (by simpa using room)

/-- The line of a sample whose first bytes lie in one piece. -/
theorem sampleLine_eq {rest : List UInt8}
    (room : position % bufSize + min record.size 128 ≤ bufSize)
    (holds : Ring.Holds bufSize base position (record.bytes ++ rest)) (cpu : Nat)
    : sampleLine base cpu (position % bufSize) record.size = record.line cpu := by
  have data : (List.range (min record.size 128)).map (fun i => base (position % bufSize + i))
      = record.bytes.take 128 := by
    refine List.ext_getElem (by simp [Nat.min_comm]) (fun i inRange inTake => ?_)
    rw [List.length_map, List.length_range] at inRange
    have inBytes : i < record.bytes.length := by
      rw [Record.length_bytes]
      omega
    have byte := holds.front i record.bytes[i] (List.getElem?_eq_getElem inBytes)
    rw [List.getElem_map, List.getElem_range, List.getElem_take, ← byte,
      place_of_room room inRange]
  rw [sampleLine, Record.line, data]

/-- A turn takes a record whose header lies in one piece. -/
theorem Walk.At.turn_record (stands : walk.At base position (record :: records))
    (room : position % bufSize + 8 ≤ bufSize)
    : ∃ next : Walk,
        walk.turn base
          = some (next,
              if record.isSample then
                [sampleLine base walk.cpu (position % bufSize) record.size]
              else
                [])
        ∧ next.cpu = walk.cpu
        ∧ next.At base (position + record.size) records := by
  obtain ⟨here, inside⟩ := stands.before
  obtain ⟨type, size⟩ := readHeader room stands.holds
  have small := record.eight_le_size
  have below := stands.below
  have head := stands.head
  have consumed := stands.here
  rw [totalSize_cons] at head
  have advanced : (walk.consumed + record.size) % 2 ^ 64 = walk.consumed + record.size :=
    Nat.mod_eq_of_lt (by omega)
  refine ⟨{ walk with consumed := walk.consumed + record.size }, ?_, rfl, ?_, ?_, below, ?_⟩
  · rw [turn, here, if_pos inside]
    simp only [and_mask, size, type, if_neg (by omega : record.size ≠ 0), advanced,
      Record.isSample, decide_eq_true_eq]
  · dsimp only
    omega
  · dsimp only
    omega
  · rw [← Record.length_bytes]
    exact stands.holds.back

theorem sampleLines_cons (cpu : Nat) (record : Record) (records : List Record)
    : sampleLines cpu (record :: records)
      = (if record.isSample then [record.line cpu] else []) ++ sampleLines cpu records := by
  rw [sampleLines, List.filter_cons]
  split
  · rfl
  · rfl

/-- The loop writes the lines of the samples ahead and stays inside exactly if none of the records
is cut, by induction on the records.
-/
theorem Walk.At.returns_iff (stands : walk.At base position records)
    : (∃ lines touched,
        walk.Returns base lines touched
        ∧ lines = sampleLines walk.cpu records
        ∧ ∀ place ∈ touched, place < bufSize)
      ↔ Uncut position records := by
  induction records generalizing walk position with
  | nil =>
      obtain ⟨ends, nothing⟩ := stands.turn_end
      refine iff_of_true ⟨[], [], ?_, rfl, nofun⟩ trivial
      rw [returns_end ends]
      exact ⟨rfl, nothing.symm⟩
  | cons record records ih =>
      by_cases room : position % bufSize + 8 ≤ bufSize
      · obtain ⟨next, turned, cpu, nextStands⟩ := stands.turn_record room
        have inside := stands.touches_record room
        have rest := ih nextStands
        rw [cpu] at rest
        rw [Uncut, ← inside, ← rest]
        constructor
        · rintro ⟨lines, touched, returns, written, fits⟩
          obtain ⟨later, others, nextReturns, rfl, rfl⟩ := (returns_turn turned).mp returns
          obtain ⟨own, ofOthers⟩ := List.forall_mem_append.mp fits
          refine ⟨own, later, others, nextReturns, ?_, ofOthers⟩
          rw [sampleLines_cons] at written
          split at written
          · exact (List.cons.inj written).2
          · exact written
        · rintro ⟨own, later, others, nextReturns, rfl, ofOthers⟩
          refine ⟨_, _, (returns_turn turned).mpr ⟨_, _, nextReturns, rfl, rfl⟩, ?_,
            List.forall_mem_append.mpr ⟨own, ofOthers⟩⟩
          rw [sampleLines_cons]
          by_cases sample : record.isSample = true
          · have looked := inside.mp own
            rw [Record.looked, if_pos sample] at looked
            rw [if_pos sample, if_pos sample, sampleLine_eq looked stands.holds]
          · rw [if_neg sample, if_neg sample]
      · -- The size field itself is read behind the data area.
        refine iff_of_false ?_ (fun uncut => ?_)
        · rintro ⟨lines, touched, ⟨fuel, returned⟩, _, fits⟩
          have outside := stands.touches_size
          have met : position % bufSize + 7 ∈ touched := by
            cases fuel with
            | zero => cases returned
            | succ fuel =>
                rw [loop] at returned
                split at returned
                · cases returned
                  exact outside
                · obtain ⟨⟨later, others⟩, _, same⟩ := Option.map_eq_some_iff.mp returned
                  cases same
                  exact List.mem_append_left _ outside
          have bound := fits _ met
          omega
        · have own := uncut.1
          have header := record.eight_le_looked
          omega

end

-----------------------------------------------------------------------------------------
-- Calls of `parse_spe_buffer`
-----------------------------------------------------------------------------------------

section
variable {page : Page} {records : List Record}

/-- A call that finds something unread goes into the loop. -/
theorem Page.writesSamples_loop {walk : Walk} {cpu : Nat} (enters : page.enter cpu = some walk)
    : page.WritesSamples cpu records
      ↔ ∃ lines touched,
          walk.Returns page.base lines touched
          ∧ lines = sampleLines walk.cpu records
          ∧ ∀ place ∈ touched, place < bufSize := by
  rw [WritesSamples, Page.cpu_of_enter enters]
  constructor
  · rintro ⟨fuel, after, lines, touched, returned, written, fits⟩
    rw [parseSpeBuffer, enters] at returned
    obtain ⟨⟨lines', touched'⟩, found, same⟩ := Option.map_eq_some_iff.mp returned
    cases same
    exact ⟨lines, touched, ⟨fuel, found⟩, written, fits⟩
  · rintro ⟨lines, touched, ⟨fuel, found⟩, written, fits⟩
    refine ⟨fuel, page.acknowledge walk, lines, touched, ?_, written, fits⟩
    rw [parseSpeBuffer, enters]
    dsimp only
    rw [found]
    rfl

/-- The loop starts in front of the first record. -/
theorem Page.Delimits.enter (delimits : page.Delimits records)
    (unread : page.dataHead ≠ page.dataTail) (cpu : Nat)
    : ∃ walk, page.enter cpu = some walk ∧ walk.At page.base page.dataTail records :=
  ⟨_, if_neg unread, rfl, delimits.counted, delimits.below, delimits.holds⟩

/-- `parse_spe_buffer` writes the first bytes of every sample and stays in the data area exactly if
no record has the end of the buffer among the bytes that are looked at.
-/
theorem writesSamples_iff_uncut (delimits : page.Delimits records) (cpu : Nat)
    : page.WritesSamples cpu records ↔ Uncut page.dataTail records := by
  by_cases same : page.dataHead = page.dataTail
  · have counted := delimits.counted
    have long : 8 * records.length ≤ totalSize records := length_le_totalSize
    have none : records = [] := List.length_eq_zero_iff.mp (by omega)
    subst none
    refine iff_of_true ⟨0, page, [], [], ?_, rfl, nofun⟩ trivial
    rw [Page.parseSpeBuffer, Page.enter, if_pos same]
  · obtain ⟨walk, enters, stands⟩ := delimits.enter same cpu
    rw [Page.writesSamples_loop enters, stands.returns_iff]

end

/-- A sample with as many bytes as the profiler asks for. -/
def sampleRecord : Record where
  type := ⟨9, by decide⟩
  misc := ⟨2, by decide⟩
  body := List.replicate 48 1
  small := by decide
  aligned := by decide

/-- The loss of a sample, of which only the header is looked at. -/
def lostRecord : Record where
  type := ⟨2, by decide⟩
  misc := ⟨0, by decide⟩
  body := List.replicate 16 7
  small := by decide
  aligned := by decide

/-- A sample with a call chain, longer than what is written of it. -/
def longRecord : Record where
  type := ⟨9, by decide⟩
  misc := ⟨2, by decide⟩
  body := List.replicate 160 3
  small := by decide +kernel
  aligned := by decide +kernel

/-- Records alone in a buffer, from a position on. -/
def pageFrom (position : Nat) (records : List Record) : Page where
  dataHead := position + totalSize records
  dataTail := position
  base := Ring.store bufSize (fun _ => 0) position (records.flatMap Record.bytes)

theorem pageFrom_delimits {position : Nat} {records : List Record}
    (below : position + totalSize records < 2 ^ 64)
    (room : (records.flatMap Record.bytes).length ≤ bufSize)
    : (pageFrom position records).Delimits records where
  counted := rfl
  below := below
  holds := Ring.holds_store room

/-- The loss lies around the end of the buffer, and the samples on both sides of it. -/
def aroundEnd : List Record := [sampleRecord, lostRecord, longRecord, sampleRecord]

theorem writesSamples_aroundEnd
    : (pageFrom 262080 aroundEnd).WritesSamples 3 aroundEnd
      ∧ (sampleLines 3 aroundEnd).length = 3 := by
  have delimits : (pageFrom 262080 aroundEnd).Delimits aroundEnd :=
    pageFrom_delimits (by decide +kernel) (by decide +kernel)
  have uncut : Uncut (pageFrom 262080 aroundEnd).dataTail aroundEnd :=
    ⟨by decide +kernel, by decide +kernel, by decide +kernel, by decide +kernel, trivial⟩
  exact ⟨(writesSamples_iff_uncut delimits 3).mpr uncut, by decide +kernel⟩

/-- After 4681 samples the next one starts eight bytes in front of the end. -/
theorem sampleAtEnd_readBehind
    : (pageFrom (4681 * sampleRecord.size) [sampleRecord]).Delimits [sampleRecord]
      ∧ ¬ (pageFrom (4681 * sampleRecord.size) [sampleRecord]).WritesSamples 0
        [sampleRecord] := by
  have delimits : (pageFrom (4681 * sampleRecord.size) [sampleRecord]).Delimits [sampleRecord] :=
    pageFrom_delimits (by decide +kernel) (by decide +kernel)
  obtain ⟨walk, enters, stands⟩ := delimits.enter (by decide +kernel) 0
  refine ⟨delimits, ?_⟩
  rw [Page.writesSamples_loop enters, stands.returns_iff]
  rintro ⟨cut, _⟩
  exact absurd cut (by decide +kernel)

end Kumf.SelfProfile
