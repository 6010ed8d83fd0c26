import Kumf.Spe.Readings
import Kumf.Spe.Merging

/-! Dumps of SPE records: the lines of a record in the documented packet order, with padding
anywhere and headers between records, and what `parse_stream` makes of every such dump.
-/

namespace Kumf.Spe

open Kumf.Library Pattern PyText

/-- A sample of the profiling unit, with an address outside the kernel's half if it has one.
-/
structure SpeRecord where
  pc : Numeral 16
  latIssue : Option (Numeral 10)
  latTot : Option (Numeral 10)
  events : List EventName
  op : Option (OpType × OpReg)
  va : Option (Numeral 16)
  latXlat : Option (Numeral 10)
  lat9e : Option (Numeral 10)
  user : ∀ address ∈ va, address.digits.take 4 ∉ ["ffff".toList, "FFFF".toList]

def latSayings (label : Option LatLabel) : Option (Numeral 10) → List Saying
  | none => []
  | some cycles => [.lat cycles label]

def evSayings : List EventName → List Saying
  | [] => []
  | first :: more => [.ev first more]

def opSayings : Option (OpType × OpReg) → List Saying
  | none => []
  | some (type, reg) => [.op type reg]

def vaSayings : Option (Numeral 16) → List Saying
  | none => []
  | some address => [.va address]

namespace SpeRecord

/-- The lines of a record behind its PC line, in the documented order. -/
def body (record : SpeRecord) : List Saying :=
  latSayings (some .issue) record.latIssue ++ latSayings (some .tot) record.latTot
    ++ evSayings record.events ++ opSayings record.op ++ vaSayings record.va
    ++ latSayings (some .xlat) record.latXlat ++ latSayings none record.lat9e

/-- All lines of a record, with the TS line that closes it, if any. -/
def sayings (record : SpeRecord) (close : Option (Numeral 10)) : List Saying :=
  .pc record.pc :: (record.body ++ (close.map Saying.ts).toList)

/-- The page of the virtual address: the address rounded down to 4096. -/
def page (record : SpeRecord) : Option Nat :=
  record.va.map (fun address => address.value / 4096 * 4096)

/-- What a record counts on its page. -/
def contribution (record : SpeRecord) : PageStats
  | .accessCount => 1
  | .latTotSum => (record.latTot.map Numeral.value).getD 0
  | .latTotMax => (record.latTot.map Numeral.value).getD 0
  | .latIssueSum => (record.latIssue.map Numeral.value).getD 0
  | .latXlatSum => (record.latXlat.map Numeral.value).getD 0
  | .lat9eSum => (record.lat9e.map Numeral.value).getD 0
  | .lat9eCount => if record.lat9e.isSome then 1 else 0
  | .llcRefillCount => if .llcRefill ∈ record.events then 1 else 0
  | .llcAccessCount => if .llcAccess ∈ record.events then 1 else 0
  | .tlbRefillCount => if .tlbRefill ∈ record.events then 1 else 0
  | .ldCount => if record.op.map Prod.fst = some .ld then 1 else 0
  | .stCount => if record.op.map Prod.fst = some .st then 1 else 0
  | .sveCount => if record.op.any (fun op => op.2 ≠ .gpReg) then 1 else 0

end SpeRecord

/-- Lines that hold no packet in any section. -/
inductive Padding : List Char → Prop where
  | blank {line : List Char} (blank : ∀ c ∈ line, isSpace c = true) : Padding line
  | pad {line : List Char} (framed : Framed ["PAD".toList] line) : Padding line
  | context {line : List Char} (framed : Framed ["CONTEXT".toList] line) : Padding line

/-- Record headers of the dump; those that `parse_stream` does not test for by a search may
also stand behind other text, as long as that text is not taken for a packet.
-/
inductive Header : List Char → Prop where
  | auxtrace {line : List Char}
      (inside : contains (strip line) "PERF_RECORD_AUXTRACE".toList = true) : Header line
  | mmap {line : List Char}
      (inside : contains (strip line) "PERF_RECORD_MMAP".toList = true) : Header line
  | switch {line : List Char}
      (front : startsWith (strip line) "PERF_RECORD_SWITCH".toList = true) : Header line
  | itrace {line : List Char}
      (front : startsWith (strip line) "PERF_RECORD_ITRACE".toList = true) : Header line
  | behind {line : List Char}
      (inside : contains (strip line) "PERF_RECORD_SWITCH".toList = true
        ∨ contains (strip line) "PERF_RECORD_ITRACE".toList = true)
      (noPacket : isSpePacket (strip line) = false) : Header line

/-- Lines that spell something in order, with padding anywhere. -/
inductive Woven : List Saying → List (List Char) → Prop where
  | done : Woven [] []
  | padding {line : List Char} {sayings : List Saying} {lines : List (List Char)}
      (padding : Padding line) (rest : Woven sayings lines) : Woven sayings (line :: lines)
  | line {saying : Saying} {line : List Char} {sayings : List Saying}
      {lines : List (List Char)} (spelled : saying.Line line) (rest : Woven sayings lines)
      : Woven (saying :: sayings) (line :: lines)

/-- A dump of records: each is closed by a TS line, by the PC line of the next one or by the
end.
-/
inductive Dump : List SpeRecord → List (List Char) → Prop where
  | done : Dump [] []
  | padding {line : List Char} {records : List SpeRecord} {lines : List (List Char)}
      (padding : Padding line) (rest : Dump records lines) : Dump records (line :: lines)
  | header {line : List Char} {records : List SpeRecord} {lines : List (List Char)}
      (header : Header line) (rest : Dump records lines) : Dump records (line :: lines)
  | record (record : SpeRecord) (close : Option (Numeral 10)) {records : List SpeRecord}
      {front back : List (List Char)} (lines : Woven (record.sayings close) front)
      (rest : Dump records back) : Dump (record :: records) (front ++ back)

/-- Dumps put behind each other are a dump, like the daemon's dumps of single processors. -/
theorem Dump.append {left right : List SpeRecord} {front back : List (List Char)}
    (first : Dump left front) (second : Dump right back)
    : Dump (left ++ right) (front ++ back) := by
  induction first with
  | done => exact second
  | padding padding _ ih => exact .padding padding ih
  | header header _ ih => exact .header header ih
  | record record close lines _ ih =>
      rw [List.cons_append, List.append_assoc]
      exact .record record close lines ih

/-- The plain line for something, with single spaces and nothing around. -/
def Saying.render (saying : Saying) : List Char := [' '].intercalate saying.words

/-- The plain dump of records with the TS lines that close them. -/
def render (records : List (SpeRecord × Option (Numeral 10))) : List (List Char) :=
  records.flatMap (fun (record, close) => (record.sayings close).map Saying.render)

theorem Saying.render_line (saying : Saying) : saying.Line saying.render := by
  have nonempty : saying.words ≠ [] := by
    cases saying <;> exact List.cons_ne_nil _ _
  exact ⟨Frame.none, saying.render,
    Spaced.intercalate nonempty, by simp [Frame.wrap, Frame.none]⟩

/-- The same line as it is read from a file. -/
theorem Saying.render_newline (saying : Saying) : saying.Line (saying.render ++ ['\n']) := by
  have nonempty : saying.words ≠ [] := by
    cases saying <;> exact List.cons_ne_nil _ _
  have plain : Plain ['\n'] := List.forall_mem_singleton.mpr rfl
  have apart : ∀ c ∈ ['\n'].head?, isSpace c = true := by
    intro c first
    cases first
    rfl
  exact ⟨⟨[], ['\n'], by simp [Plain], plain, apart⟩, saying.render,
    Spaced.intercalate nonempty, rfl⟩

section
variable {spell : Saying → List Char} (spells : ∀ saying : Saying, saying.Line (spell saying))

include spells in
theorem woven_map (sayings : List Saying) : Woven sayings (sayings.map spell) := by
  induction sayings with
  | nil => exact .done
  | cons saying sayings ih => exact .line (spells saying) ih

include spells in
theorem dump_flatMap (records : List (SpeRecord × Option (Numeral 10)))
    : Dump (records.map Prod.fst)
        (records.flatMap (fun (record, close) => (record.sayings close).map spell)) := by
  induction records with
  | nil => exact .done
  | cons first records ih => exact .record first.1 first.2 (woven_map spells _) ih

end

/-- Any records have a dump. -/
theorem render_dump (records : List (SpeRecord × Option (Numeral 10)))
    : Dump (records.map Prod.fst) (render records) :=
  dump_flatMap Saying.render_line records

theorem render_dump_newline (records : List (SpeRecord × Option (Numeral 10)))
    : Dump (records.map Prod.fst) ((render records).map (fun line => line ++ ['\n'])) := by
  have lines := dump_flatMap Saying.render_newline records
  rw [render, List.map_flatMap]
  simpa only [List.map_map, Function.comp_def] using lines

end Kumf.Spe
