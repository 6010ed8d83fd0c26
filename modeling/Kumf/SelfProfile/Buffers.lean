import Kumf.Library.RingBuffer
import Mathlib.Data.Nat.Bitwise

/-! The ring buffers of the self-profiler: records that perf appends, and `parse_spe_buffer`, which
walks over them from the tail to the head.
-/

namespace Kumf.SelfProfile

open Kumf.Library

/-- `BUF_SIZE` -/
def bufSize : Nat := 256 * 1024

/-- `PERF_RECORD_SAMPLE` -/
def perfRecordSample : Nat := 9

/-- A perf record: `struct perf_event_header` and what follows it. -/
structure Record where
  type : Fin (2 ^ 32)
  misc : Fin (2 ^ 16)
  body : List UInt8
  small : 8 + body.length < 2 ^ 16
  aligned : 8 ∣ 8 + body.length

namespace Record

/-- The `size` field. -/
def size (record : Record) : Nat := 8 + record.body.length

def isSample (record : Record) : Bool := record.type.val = perfRecordSample

/-- The record as it stands in the buffer. -/
def bytes (record : Record) : List UInt8 :=
  littleEndian 4 record.type ++ (littleEndian 2 record.misc
    ++ (littleEndian 2 record.size ++ record.body))

/-- A record has the bytes its header says. -/
@[simp] theorem length_bytes (record : Record) : record.bytes.length = record.size := by
  simp only [bytes, List.length_append, length_littleEndian, size]
  omega

end Record

/-- `struct perf_event_mmap_page` and the data behind it. An offset beyond the buffer is memory
behind the mapping.
-/
structure Page where
  dataHead : Nat
  dataTail : Nat
  base : Nat → UInt8

/-- A line of the output: the two fields, and the bytes that follow in hexadecimal. -/
structure SampleLine where
  cpu : Nat
  size : Nat
  data : List UInt8
  deriving DecidableEq, Repr

/-- `%02x` -/
def hexByte (byte : UInt8) : List Char :=
  [(byte.toNat / 16).digitChar, (byte.toNat % 16).digitChar]

def SampleLine.text (line : SampleLine) : List Char :=
  "SPE_SAMPLE cpu=".toList ++ Nat.toDigits 10 line.cpu ++ " size=".toList
    ++ Nat.toDigits 10 line.size ++ " ".toList ++ line.data.flatMap hexByte ++ "\n".toList

/-- What a reader of the output takes from a line. -/
def SampleLine.fields (line : SampleLine) : Nat × Nat :=
  (line.cpu, line.size)

/-- The line of a sample; its bytes are read behind each other, also at the end of the buffer. -/
def sampleLine (base : Nat → UInt8) (cpu offset size : Nat) : SampleLine where
  cpu
  size
  data := (List.range (min size 128)).map (fun i => base (offset + i))

/-- The variables of `parse_spe_buffer` in its loop. -/
structure Walk where
  cpu : Nat
  head : Nat
  tail : Nat
  consumed : Nat

/-- `parse_spe_buffer` up to its loop; it may return at once. -/
def Page.enter (page : Page) (cpu : Nat) : Option Walk :=
  if page.dataHead = page.dataTail then
    none
  else
    some { cpu, head := page.dataHead, tail := page.dataTail, consumed := 0 }

/-- A turn of the loop, on the buffer as it is then: the lines that it writes, or the end. -/
def Walk.turn (walk : Walk) (base : Nat → UInt8) : Option (Walk × List SampleLine) :=
  let position := (walk.tail + walk.consumed) % 2 ^ 64
  if position < walk.head then
    let offset := position &&& (bufSize - 1)
    let size := readLittle base (offset + 6) 2
    if size = 0 then
      none
    else
      let lines :=
        if readLittle base offset 4 = perfRecordSample then
          [sampleLine base walk.cpu offset size]
        else
          []
      some ({ walk with consumed := (walk.consumed + size) % 2 ^ 64 }, lines)
  else
    none

/-- A walk is that of its CPU. -/
theorem Page.cpu_of_enter {page : Page} {cpu : Nat} {walk : Walk}
    (enters : page.enter cpu = some walk)
    : walk.cpu = cpu := by
  unfold Page.enter at enters
  split at enters
  case isTrue => cases enters
  case isFalse => rw [← Option.some.inj enters]

/-- `parse_spe_buffer` behind its loop. -/
def Page.acknowledge (page : Page) (walk : Walk) : Page :=
  { page with dataTail := walk.head }

/-- perf appends a record. -/
def Page.append (page : Page) (record : Record) : Page where
  dataHead := (page.dataHead + record.size) % 2 ^ 64
  dataTail := page.dataTail
  base := Ring.store bufSize page.base page.dataHead record.bytes

/-- The bytes of some records together. -/
def totalSize (records : List Record) : Nat := (records.map Record.size).sum

/-- The fields of the lines that some records are worth. -/
def samples (cpu : Nat) (records : List Record) : List (Nat × Nat) :=
  (records.filter Record.isSample).map (fun record => (cpu, record.size))

section
variable {records : List Record}

/-- Records are as long as the sum of their sizes. -/
theorem length_bytes_flatMap : (records.flatMap Record.bytes).length = totalSize records := by
  simp [List.length_flatMap, totalSize]

@[simp] theorem totalSize_nil : totalSize [] = 0 := rfl

/-- Sizes add up. -/
@[simp] theorem totalSize_append {later : List Record}
    : totalSize (records ++ later) = totalSize records + totalSize later := by
  simp [totalSize]

@[simp] theorem totalSize_cons {record : Record}
    : totalSize (record :: records) = record.size + totalSize records := by
  simp [totalSize]

/-- Every size is a multiple of eight. -/
theorem aligned_totalSize : 8 ∣ totalSize records := by
  induction records with
  | nil => exact Nat.dvd_zero 8
  | cons record records ih =>
      rw [totalSize_cons]
      exact Nat.dvd_add record.aligned ih

/-- No record is smaller than its header. -/
theorem length_le_totalSize : 8 * records.length ≤ totalSize records := by
  induction records with
  | nil => exact Nat.le_refl 0
  | cons record records ih =>
      have header : 8 ≤ record.size := Nat.le_add_right 8 _
      rw [totalSize_cons, List.length_cons]
      omega

/-- The samples of a buffer, front then back. -/
@[simp] theorem samples_append {cpu : Nat} {later : List Record}
    : samples cpu (records ++ later) = samples cpu records ++ samples cpu later := by
  simp [samples]

end

-----------------------------------------------------------------------------------------
-- The walk over the records
-----------------------------------------------------------------------------------------

/-- In front of the end of the buffer, places follow each other. -/
theorem place_of_room {position count i : Nat} (room : position % bufSize + count ≤ bufSize)
    (inside : i < count)
    : (position + i) % bufSize = position % bufSize + i := by
  unfold bufSize at room ⊢
  omega

/-- The header of a record at an aligned position lies in one piece. -/
theorem room_of_aligned {position : Nat} (aligned : 8 ∣ position)
    : position % bufSize + 8 ≤ bufSize := by
  obtain ⟨k, rfl⟩ := aligned
  unfold bufSize
  omega

/-- The mask takes the remainder by the buffer's size. -/
theorem and_mask (position : Nat) : position &&& (bufSize - 1) = position % bufSize :=
  Nat.and_two_pow_sub_one_eq_mod position 18

/-- The fields of the header of a record in the buffer. -/
theorem readHeader {base : Nat → UInt8} {position : Nat} {record : Record} {rest : List UInt8}
    (room : position % bufSize + 8 ≤ bufSize)
    (holds : Ring.Holds bufSize base position (record.bytes ++ rest))
    : readLittle base (position % bufSize) 4 = record.type
      ∧ readLittle base (position % bufSize + 6) 2 = record.size := by
  have header (i : Nat) (byte : UInt8) (inside : i < 8) (found : record.bytes[i]? = some byte)
      : base (position % bufSize + i) = byte := by
    rw [← place_of_room room inside]
    exact holds.front i byte found
  constructor
  · refine readLittle_littleEndian record.type.isLt (fun i byte found => ?_)
    have inside := (List.getElem?_eq_some_iff.mp found).1
    rw [length_littleEndian] at inside
    refine header i byte (by omega) ?_
    rw [Record.bytes, List.getElem?_append_left (by simpa using inside)]
    exact found
  · refine readLittle_littleEndian record.small (fun i byte found => ?_)
    have inside := (List.getElem?_eq_some_iff.mp found).1
    rw [length_littleEndian] at inside
    rw [Nat.add_assoc]
    refine header (6 + i) byte (by omega) ?_
    have behind : record.bytes[6 + i]?
        = (littleEndian 2 record.size ++ record.body)[i]? := by
      rw [Record.bytes, List.getElem?_append_right (by simp; omega),
        List.getElem?_append_right (by simp; omega)]
      congr 1
      simp only [length_littleEndian]
      omega
    rw [behind, List.getElem?_append_left (by simpa using inside)]
    exact found

-----------------------------------------------------------------------------------------
-- Unread records
-----------------------------------------------------------------------------------------

/-- What perf has appended and nobody acknowledged. -/
structure Page.Unread (page : Page) (records : List Record) : Prop where
  counted : page.dataHead = page.dataTail + totalSize records
  below : page.dataHead < 2 ^ 64
  aligned : 8 ∣ page.dataTail
  fits : totalSize records ≤ bufSize
  holds : Ring.Holds bufSize page.base page.dataTail (records.flatMap Record.bytes)

/-- The variables of the loop between the records that it has walked over and those before it. -/
structure Walk.Stands (walk : Walk) (page : Page) (walked ahead : List Record) : Prop where
  tail : walk.tail = page.dataTail
  consumed : walk.consumed = totalSize walked
  head : walk.head = page.dataTail + totalSize (walked ++ ahead)

variable {page : Page} {walk : Walk} {records walked ahead fresh : List Record} {record : Record}

/-- There is room for a record and the counter does not wrap. -/
def Page.Takes (page : Page) (record : Record) : Prop :=
  page.dataHead - page.dataTail + record.size ≤ bufSize ∧ page.dataHead + record.size < 2 ^ 64

instance (page : Page) (record : Record) : Decidable (page.Takes record) :=
  inferInstanceAs (Decidable (_ ∧ _))

namespace Page.Unread

/-- A record that fits is unread behind the others. -/
theorem append (unread : page.Unread records) (takes : page.Takes record)
    : (page.append record).Unread (records ++ [record]) := by
  obtain ⟨room, below⟩ := takes
  have counted := unread.counted
  have stored : Ring.Holds bufSize
      (Ring.store bufSize page.base (page.dataTail + (records.flatMap Record.bytes).length)
        record.bytes)
      page.dataTail (records.flatMap Record.bytes ++ record.bytes) := by
    refine unread.holds.store ?_
    rw [length_bytes_flatMap, Record.length_bytes]
    omega
  rw [length_bytes_flatMap, ← counted] at stored
  constructor
  case counted =>
      simp only [Page.append, totalSize_append, totalSize_cons, totalSize_nil]
      rw [Nat.mod_eq_of_lt below]
      omega
  case below => exact Nat.mod_lt _ (by decide)
  case aligned => exact unread.aligned
  case fits =>
      simp only [totalSize_append, totalSize_cons, totalSize_nil]
      omega
  case holds =>
      rw [List.flatMap_append, List.flatMap_singleton]
      exact stored

/-- The records up to the head that a walk read are taken away. -/
theorem acknowledge (unread : page.Unread (walked ++ fresh)) (stands : walk.Stands page walked [])
    : (page.acknowledge walk).Unread fresh := by
  have moved : walk.head = page.dataTail + totalSize walked := by
    rw [stands.head, List.append_nil]
  have counted := unread.counted
  have fits := unread.fits
  have holds := unread.holds
  rw [totalSize_append] at counted fits
  rw [List.flatMap_append] at holds
  constructor
  case counted =>
      simp only [Page.acknowledge]
      omega
  case below => exact unread.below
  case aligned =>
      simp only [Page.acknowledge, moved]
      exact Nat.dvd_add unread.aligned aligned_totalSize
  case fits => omega
  case holds =>
      simp only [Page.acknowledge, moved]
      rw [← length_bytes_flatMap]
      exact holds.back

/-- A page whose counters agree has nothing unread. -/
theorem eq_nil (unread : page.Unread records) (same : page.dataHead = page.dataTail)
    : records = [] := by
  have counted := unread.counted
  have long : 8 * records.length ≤ totalSize records := length_le_totalSize
  refine List.length_eq_zero_iff.mp ?_
  omega

/-- A walk stands at the first unread record, if there is one. -/
theorem enter (unread : page.Unread records) (cpu : Nat)
    : (page.enter cpu = none ∧ records = [])
      ∨ ∃ walk, page.enter cpu = some walk ∧ walk.cpu = cpu
        ∧ walk.Stands page [] records := by
  by_cases same : page.dataHead = page.dataTail
  · exact .inl ⟨if_pos same, unread.eq_nil same⟩
  · exact .inr ⟨_, if_neg same, rfl, ⟨rfl, rfl, unread.counted⟩⟩

end Page.Unread

-----------------------------------------------------------------------------------------
-- Turns of the loop
-----------------------------------------------------------------------------------------

/-- A walk stays with its CPU and keeps the head that it read. -/
theorem Walk.kept_of_turn {base : Nat → UInt8} {next : Walk} {lines : List SampleLine}
    (turned : walk.turn base = some (next, lines))
    : next.cpu = walk.cpu ∧ next.head = walk.head
      ∧ ∀ line ∈ lines, line.cpu = walk.cpu := by
  unfold Walk.turn at turned
  dsimp only at turned
  split at turned
  case isFalse => cases turned
  case isTrue =>
      split at turned
      case isTrue => cases turned
      case isFalse =>
          obtain ⟨rfl, rfl⟩ := Prod.mk.inj (Option.some.inj turned)
          refine ⟨rfl, rfl, fun line written => ?_⟩
          split at written
          case isTrue => rw [List.mem_singleton.mp written, sampleLine]
          case isFalse => cases written

/-- With records ahead, a turn takes the next one. -/
theorem Walk.Stands.turn_record (stands : walk.Stands page walked (record :: ahead))
    (unread : page.Unread (walked ++ record :: ahead ++ fresh))
    : ∃ next lines, walk.turn page.base = some (next, lines)
      ∧ next.Stands page (walked ++ [record]) ahead
      ∧ lines.map SampleLine.fields = samples walk.cpu [record] := by
  have size : 8 ≤ record.size := Nat.le_add_right 8 _
  have counted := unread.counted
  have below := unread.below
  have head := stands.head
  simp only [totalSize_append, totalSize_cons] at counted head
  -- the counters stay below `2 ^ 64`
  have position : (walk.tail + walk.consumed) % 2 ^ 64
      = page.dataTail + totalSize walked := by
    rw [stands.tail, stands.consumed]
    exact Nat.mod_eq_of_lt (by omega)
  have advanced : (walk.consumed + record.size) % 2 ^ 64 = totalSize walked + record.size := by
    rw [stands.consumed]
    exact Nat.mod_eq_of_lt (by omega)
  have holds : Ring.Holds bufSize page.base (page.dataTail + totalSize walked)
      (record.bytes ++ (ahead ++ fresh).flatMap Record.bytes) := by
    have all := unread.holds
    rw [List.append_assoc, List.flatMap_append] at all
    rw [← length_bytes_flatMap]
    exact all.back
  obtain ⟨typeRead, sizeRead⟩ :=
    readHeader (room_of_aligned (Nat.dvd_add unread.aligned aligned_totalSize)) holds
  have turned : walk.turn page.base
      = some ({ walk with consumed := totalSize walked + record.size },
          if record.type.val = perfRecordSample then
            [sampleLine page.base walk.cpu ((page.dataTail + totalSize walked) % bufSize)
              record.size]
          else
            []) := by
    rw [Walk.turn, position, if_pos (by omega)]
    simp only [and_mask, typeRead, sizeRead, advanced]
    rw [if_neg (by omega)]
  refine ⟨_, _, turned, ⟨stands.tail, ?_, ?_⟩, ?_⟩
  · simp
  · rw [List.append_assoc]
    exact stands.head
  · by_cases sample : record.type.val = perfRecordSample
    · simp [samples, Record.isSample, sample, SampleLine.fields, sampleLine]
    · simp [samples, Record.isSample, sample]

/-- With none ahead, the loop ends. -/
theorem Walk.Stands.turn_end (stands : walk.Stands page walked [])
    (unread : page.Unread (walked ++ fresh))
    : walk.turn page.base = none := by
  have counted := unread.counted
  have below := unread.below
  have head := stands.head
  rw [totalSize_append] at counted
  rw [List.append_nil] at head
  have position : (walk.tail + walk.consumed) % 2 ^ 64 = walk.head := by
    rw [stands.tail, stands.consumed, head]
    exact Nat.mod_eq_of_lt (by omega)
  rw [Walk.turn, position]
  exact if_neg (Nat.lt_irrefl _)

/-- What perf appends is not seen by a walk. -/
theorem Walk.Stands.append (stands : walk.Stands page walked ahead) (record : Record)
    : walk.Stands (page.append record) walked ahead :=
  ⟨stands.tail, stands.consumed, stands.head⟩

end Kumf.SelfProfile
