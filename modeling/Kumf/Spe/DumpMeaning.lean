import Kumf.Spe.Dumps

/-! What the lines of a dump mean to `parse_stream`: the lines of a record fill in one sample,
and padding and headers say nothing.
-/

namespace Kumf.Spe

open Kumf.Library Pattern PyText

/-- The sample that `parse_stream` should have read when a record ends. -/
def SpeRecord.sample (record : SpeRecord) : Sample where
  va := record.va.map literal
  latTot := record.latTot.map Numeral.value
  latIssue := record.latIssue.map Numeral.value
  latXlat := record.latXlat.map Numeral.value
  lat9e := record.lat9e.map Numeral.value
  llcRefill := decide (.llcRefill ∈ record.events)
  llcAccess := decide (.llcAccess ∈ record.events)
  tlbRefill := decide (.tlbRefill ∈ record.events)
  isLoad := decide (record.op.map Prod.fst = some .ld)
  isStore := decide (record.op.map Prod.fst = some .st)
  isSve := record.op.any (fun op => op.2 ≠ .gpReg)

theorem foldl_latSayings {sample : Sample} {label : Option LatLabel}
    (unset : sample.setLat label none = sample) (cycles : Option (Numeral 10))
    : (latSayings label cycles).foldl Saying.absorb sample
      = sample.setLat label (cycles.map Numeral.value) := by
  cases cycles with
  | none => exact unset.symm
  | some cycles => rfl

theorem foldl_evSayings (sample : Sample) (events : List EventName)
    : (evSayings events).foldl Saying.absorb sample
      = { sample with
          llcRefill := decide (.llcRefill ∈ events) || sample.llcRefill
          llcAccess := decide (.llcAccess ∈ events) || sample.llcAccess
          tlbRefill := decide (.tlbRefill ∈ events) || sample.tlbRefill } := by
  cases events with
  | nil => rfl
  | cons first more => rfl

theorem foldl_opSayings (sample : Sample) (op : Option (OpType × OpReg))
    : (opSayings op).foldl Saying.absorb sample
      = { sample with
          isLoad := decide (op.map Prod.fst = some .ld) || sample.isLoad
          isStore := decide (op.map Prod.fst = some .st) || sample.isStore
          isSve := op.any (fun op => op.2 ≠ .gpReg) || sample.isSve } := by
  cases op with
  | none => rfl
  | some op =>
      obtain ⟨type, reg⟩ := op
      cases type <;> rfl

theorem foldl_vaSayings {sample : Sample} (unset : sample.va = none) (va : Option (Numeral 16))
    : (vaSayings va).foldl Saying.absorb sample = { sample with va := va.map literal } := by
  cases va with
  | none => rw [Option.map_none, ← unset]; rfl
  | some address => rfl

/-- The lines of a record set each field of the sample once. -/
theorem SpeRecord.absorb_body (record : SpeRecord)
    : record.body.foldl Saying.absorb {} = record.sample := by
  -- Each field is still unset when its own line comes.
  let issued : Sample := { latIssue := record.latIssue.map Numeral.value }
  let timed : Sample := { issued with latTot := record.latTot.map Numeral.value }
  let marked : Sample := { timed with
    llcRefill := decide (.llcRefill ∈ record.events) || false
    llcAccess := decide (.llcAccess ∈ record.events) || false
    tlbRefill := decide (.tlbRefill ∈ record.events) || false }
  let typed : Sample := { marked with
    isLoad := decide (record.op.map Prod.fst = some .ld) || false
    isStore := decide (record.op.map Prod.fst = some .st) || false
    isSve := record.op.any (fun op => op.2 ≠ .gpReg) || false }
  let placed : Sample := { typed with va := record.va.map literal }
  let walked : Sample := { placed with latXlat := record.latXlat.map Numeral.value }
  have issue : (latSayings (some .issue) record.latIssue).foldl Saying.absorb {} = issued :=
    foldl_latSayings rfl _
  have tot : (latSayings (some .tot) record.latTot).foldl Saying.absorb issued = timed :=
    foldl_latSayings rfl _
  have events : (evSayings record.events).foldl Saying.absorb timed = marked :=
    foldl_evSayings timed _
  have op : (opSayings record.op).foldl Saying.absorb marked = typed := foldl_opSayings marked _
  have va : (vaSayings record.va).foldl Saying.absorb typed = placed := foldl_vaSayings rfl _
  have xlat : (latSayings (some .xlat) record.latXlat).foldl Saying.absorb placed = walked :=
    foldl_latSayings rfl _
  have lat9e : (latSayings none record.lat9e).foldl Saying.absorb walked
      = { walked with lat9e := record.lat9e.map Numeral.value } :=
    foldl_latSayings rfl _
  rw [body, List.foldl_append, List.foldl_append, List.foldl_append, List.foldl_append,
    List.foldl_append, List.foldl_append, issue, tot, events, op, va, xlat, lat9e]
  simp [sample, walked, placed, typed, marked, timed, issued]

/-- Packets do to the counted part of a sample what the lines say, line by line. -/
theorem absorbs_run {sayings : List Saying} {sequence : List Packet}
    (means : List.Forall₂ Saying.Means sayings sequence) (sample : Sample)
    : (sequence.foldl streamAbsorb sample).counted
      = sayings.foldl Saying.absorb sample.counted := by
  induction means generalizing sample with
  | nil => rfl
  | cons first _ ih =>
      rw [List.foldl_cons, List.foldl_cons, ih, first.absorbs]

/-- No pattern that starts with a mark matches in padding. -/
theorem Framed.noPacket {word line : List Char} (framed : Framed [word] line)
    (clear : Clear marks word)
    : packet? line = none := by
  have none {α : Type} {pattern : Pattern α} {pairs : List (Char × Char)}
      (starts : pattern.StartsWith pairs) (known : pairs ⊆ marks)
      : pattern.search line = none := by
    refine framed.search_none starts (fun pair member => marks_capitals pair (known member)) ?_
    intro other member
    rw [List.mem_singleton.mp member]
    exact clear.mono known
  have ts := none reTs_starts (by decide)
  have pc := none rePc_starts (by decide)
  have va := none reVa_starts (by decide)
  have lat := none reLat_starts (by decide)
  have ev := none reEv_starts (by decide)
  have op := none reOp_starts (by decide)
  simp only [packet?, ts, pc, va, lat, ev, op]

theorem Padding.meaning {line : List Char} (padding : Padding line)
    : streamMeaning line = none := by
  have packet : packet? (strip line) = none := by
    cases padding with
    | blank blank =>
        have empty : strip line = [] := by
          rw [strip, List.dropWhile_eq_nil_iff.mpr blank]
          rfl
        rw [empty, packet?_nil]
    | pad framed =>
        have solid : Solid "PAD".toList := .of_check rfl
        exact Framed.noPacket (framed.strip (List.forall_mem_singleton.mpr solid)) (by decide)
    | context framed =>
        have solid : Solid "CONTEXT".toList := .of_check rfl
        exact Framed.noPacket (framed.strip (List.forall_mem_singleton.mpr solid)) (by decide)
  rw [streamMeaning, packet]
  split <;> rfl

theorem Header.meaning {line : List Char} (header : Header line)
    : streamMeaning line = none := by
  unfold streamMeaning
  cases header with
  | auxtrace inside =>
      have found : isHeader (strip line) = true := by
        rw [isHeader, reAuxtrace, ← contains, inside, Bool.true_or]
      rw [if_pos found]
  | mmap inside =>
      have found : isHeader (strip line) = true := by
        rw [isHeader, endsSection, reMmap, ← contains, inside, Bool.true_or, Bool.true_or,
          Bool.or_true]
      rw [if_pos found]
  | switch front =>
      have found : isHeader (strip line) = true := by
        rw [isHeader, endsSection, front, Bool.or_true, Bool.true_or, Bool.or_true]
      rw [if_pos found]
  | itrace front =>
      have found : isHeader (strip line) = true := by
        rw [isHeader, endsSection, front, Bool.or_true, Bool.or_true]
      rw [if_pos found]
  | behind _ noPacket =>
      rw [isSpePacket_eq, Option.isSome_eq_false_iff, Option.isNone_iff_eq_none] at noPacket
      rw [noPacket]
      split <;> rfl

/-- The packets of woven lines are those of the sayings, in order. -/
theorem Woven.meaning {sayings : List Saying} {lines : List (List Char)}
    (woven : Woven sayings lines)
    : List.Forall₂ Saying.Means sayings (lines.filterMap streamMeaning) := by
  induction woven with
  | done => exact .nil
  | padding padding _ ih => rwa [List.filterMap_cons_none padding.meaning]
  | line spelled _ ih =>
      obtain ⟨packet, found, means⟩ := Saying.streamMeaning spelled
      rw [List.filterMap_cons_some found]
      exact .cons means ih

end Kumf.Spe
