import Kumf.Spe.Rendering

/-! The patterns of the parsers on spelled lines: each line is read as the one packet that it
spells.
-/

namespace Kumf.Spe

open Kumf.Library Pattern PyText

/-- An address is read up to the blank behind it. -/
theorem reAddress_head (letters : List Char) (gap : Blanks) (address : Numeral 16)
    {tail : List Char} (apart : ∀ c ∈ tail.head?, isSpace c = true)
    : (reAddress letters (letters ++ (gap.text ++ literal address) ++ tail)).head?
      = some (literal address, tail) := by
  rw [List.append_assoc, List.append_assoc, literal, List.append_assoc]
  refine head_word_bind (head_many1_bind gap.nonempty gap.blank ?_ (head_word_bind ?_))
  · intro c first
    obtain rfl := Option.some.inj first
    rfl
  · refine head_many1_bind address.nonempty address.valid ?_ rfl
    intro c first
    exact isHex_of_isSpace (apart c first)

/-- The optional label of `RE_LAT`. -/
def reTag : Pattern (Option (List Char)) :=
  optional ((word "ISSUE".toList).either ((word "TOT".toList).either (word "XLAT".toList)))

/-- A label that stands there is read. -/
theorem reTag_label (label : LatLabel) (tail : List Char)
    : ∃ others, reTag (label.text ++ tail) = (some label.text, tail) :: others := by
  rw [reTag, optional_apply, either_apply, either_apply]
  cases label with
  | issue =>
      have here : word "ISSUE".toList (LatLabel.issue.text ++ tail) = [("ISSUE".toList, tail)] :=
        word_append _ tail
      rw [here]
      exact ⟨_, rfl⟩
  | tot =>
      have issue : word "ISSUE".toList (LatLabel.tot.text ++ tail) = [] :=
        word_nil_of_isPrefixOf rfl
      have here : word "TOT".toList (LatLabel.tot.text ++ tail) = [("TOT".toList, tail)] :=
        word_append _ tail
      rw [issue, here]
      exact ⟨_, rfl⟩
  | xlat =>
      have issue : word "ISSUE".toList (LatLabel.xlat.text ++ tail) = [] :=
        word_nil_of_isPrefixOf rfl
      have tot : word "TOT".toList (LatLabel.xlat.text ++ tail) = [] :=
        word_nil_of_isPrefixOf rfl
      have here : word "XLAT".toList (LatLabel.xlat.text ++ tail) = [("XLAT".toList, tail)] :=
        word_append _ tail
      rw [issue, tot, here]
      exact ⟨_, rfl⟩

/-- Where plain text follows, no label is read. -/
theorem reTag_plain {tail : List Char} (plain : Plain tail) : reTag tail = [(none, tail)] := by
  have absent {a : Char} {letters : List Char} (capital : isCapital a = true)
      : word (a :: letters) tail = [] := by
    refine word_nil_of_not_front (fun front => ?_)
    have small := plain a (front.subset List.mem_cons_self)
    rw [capital] at small
    cases small
  have issue : word "ISSUE".toList tail = [] := absent rfl
  have tot : word "TOT".toList tail = [] := absent rfl
  have xlat : word "XLAT".toList tail = [] := absent rfl
  rw [reTag, optional_apply, either_apply, either_apply, issue, tot, xlat]
  rfl

/-- `RE_LAT` up to its label. -/
theorem reLat_head (gap : Blanks) (cycles : Numeral 10) {blanks rest : List Char}
    {label : Option (List Char)} {tail : List Char}
    {others : List (Option (List Char) × List Char)}
    (blank : ∀ c ∈ blanks, isSpace c = true)
    (apart : ∀ c ∈ (blanks ++ rest).head?, isSpace c = true)
    (stops : ∀ c ∈ rest.head?, isSpace c = false) (tag : reTag rest = (label, tail) :: others)
    : (reLat ("LAT".toList ++ (gap.text ++ (cycles.digits ++ (blanks ++ rest))))).head?
      = some ((cycles.digits, label), tail) := by
  have digits : ∀ c ∈ cycles.digits, isDecimal c = true :=
    fun c member => isDecimal_digit (cycles.valid c member)
  refine head_word_bind (head_many1_bind gap.nonempty gap.blank
    ((Numeral.solid cycles (by omega)).head _)
    (head_many1_bind cycles.nonempty digits ?_ (head_many_bind blank stops ?_)))
  · intro c first
    exact isDecimal_of_isSpace (apart c first)
  · change ((reTag >>= fun tag => pure (cycles.digits, tag)) rest).head? = _
    rw [bind_apply, tag]
    rfl

/-- The events are read up to the end of the line. -/
theorem reEv_head (gap : Blanks) {text : List Char} (tail : List Char) (nonempty : text ≠ [])
    (starts : ∀ c ∈ text.head?, isSpace c = false) (oneLine : '\n' ∉ text)
    : (reEv ("EV".toList ++ (gap.text ++ (text ++ tail)))).head?
      = some (text ++ tail.takeWhile (fun c => c ≠ '\n'),
          tail.dropWhile (fun c => c ≠ '\n')) := by
  refine head_word_bind (head_many1_bind gap.nonempty gap.blank ?_ ?_)
  · rw [List.head?_append_of_ne_nil _ nonempty]
    exact starts
  · have inLine
        : ∀ c ∈ text ++ tail.takeWhile (fun c => c ≠ '\n'), decide (c ≠ '\n') = true := by
      intro c member
      rcases List.mem_append.mp member with inText | inTail
      · refine decide_eq_true (fun same => ?_)
        rw [same] at inText
        exact oneLine inText
      · exact List.mem_takeWhile_imp (p := fun c => decide (c ≠ '\n')) inTail
    have stops
        : ∀ c ∈ (tail.dropWhile (fun c => c ≠ '\n')).head?, decide (c ≠ '\n') = false := by
      intro c first
      have refused := List.head?_dropWhile_not (fun c => decide (c ≠ '\n')) tail
      rw [Option.mem_def.mp first] at refused
      exact refused
    have found := head_many1 (by simp [nonempty]) inLine stops
    rwa [List.append_assoc, List.takeWhile_append_dropWhile] at found

/-- `RE_OP` on the two words of an operation. -/
theorem reOp_head (type : OpType) (gap : Blanks) (reg : OpReg) (tail : List Char)
    : (reOp (type.text ++ (gap.text ++ (reg.text ++ tail)))).head?
      = some ((type.text, reg.text), tail) := by
  have solid : Solid reg.text := reg.text_solid
  have onReg (kind : List Char)
      : ((many1 isSpace >>= fun _ =>
          (word "GP-REG".toList).either
            ((word "SIMD-FP".toList).either ((word "SVE".toList).either (word "NEON".toList)))
          >>= fun reg => pure (kind, reg)) (gap.text ++ (reg.text ++ tail))).head?
        = some ((kind, reg.text), tail) := by
    refine head_many1_bind gap.nonempty gap.blank (solid.head tail) ?_
    cases reg with
    | gpReg => exact head_either_left (head_word_bind rfl)
    | simdFp =>
        refine head_either_right ?_ (head_either_left (head_word_bind rfl))
        exact word_nil_of_isPrefixOf rfl
    | sve =>
        refine head_either_right ?_ (head_either_right ?_ (head_either_left (head_word_bind rfl)))
        · exact word_nil_of_isPrefixOf rfl
        · exact word_nil_of_isPrefixOf rfl
    | neon =>
        refine head_either_right ?_ (head_either_right ?_ (head_either_right ?_
          (head_word_bind rfl)))
        · exact word_nil_of_isPrefixOf rfl
        · exact word_nil_of_isPrefixOf rfl
        · exact word_nil_of_isPrefixOf rfl
  cases type with
  | ld => exact head_either_left (head_word_bind (onReg "LD".toList))
  | st =>
      refine head_either_right ?_ (head_word_bind (onReg "ST".toList))
      exact word_nil_of_isPrefixOf rfl

/-- A timestamp is read up to the blank behind it. -/
theorem reTs_head (gap : Blanks) (time : Numeral 10) {tail : List Char}
    (apart : ∀ c ∈ tail.head?, isSpace c = true)
    : (reTs ("TS".toList ++ (gap.text ++ (time.digits ++ tail)))).head?
      = some (time.digits, tail) := by
  have digits : ∀ c ∈ time.digits, isDecimal c = true :=
    fun c member => isDecimal_digit (time.valid c member)
  refine head_word_bind (head_many1_bind gap.nonempty gap.blank
    ((Numeral.solid time (by omega)).head tail)
    (head_many1 time.nonempty digits ?_))
  intro c first
  exact isDecimal_of_isSpace (apart c first)

-----------------------------------------------------------------------------------------
-- Patterns searched in a whole line
-----------------------------------------------------------------------------------------

/-- The three events that are counted are no part of another event's name. -/
theorem EventName.contains_text {flag : EventName}
    (counted : flag ∈ [EventName.llcRefill, .llcAccess, .tlbRefill]) (name : EventName)
    : contains name.text flag.text = decide (name = flag) := by
  rcases List.mem_cons.mp counted with rfl | counted
  · cases name <;> rfl
  · rcases List.mem_cons.mp counted with rfl | counted
    · cases name <;> rfl
    · rw [List.mem_singleton.mp counted]
      cases name <;> rfl

/-- The parsers find an event in the text of an EV packet when its name is listed. -/
theorem contains_event {names : List EventName} {text tail : List Char}
    (spaced : Spaced (names.map EventName.text) text) (plain : Plain tail)
    (apart : ∀ c ∈ tail.head?, isSpace c = true) {flag : EventName}
    (counted : flag ∈ [EventName.llcRefill, .llcAccess, .tlbRefill])
    : contains (text ++ tail) flag.text = decide (flag ∈ names) := by
  have capital : flag.text.any isCapital = true := by
    cases flag <;> rfl
  rw [Bool.eq_iff_iff, decide_eq_true_iff,
    spaced.contains_iff flag.text_solid plain apart (List.any_eq_true.mp capital)]
  constructor
  · intro found
    obtain ⟨word, inMap, inside⟩ := found
    obtain ⟨name, member, rfl⟩ := List.mem_map.mp inMap
    have same := EventName.contains_text counted name
    rw [contains_iff.mpr inside] at same
    rwa [← of_decide_eq_true same.symm]
  · intro member
    exact ⟨flag.text, List.mem_map_of_mem member, List.infix_rfl⟩

/-- `RE_LAT` on a line without a label: what follows the number is no label either. -/
theorem reLat_search_unlabelled {cycles : Numeral 10} {line : List Char}
    (framed : (Saying.lat cycles none).Line line)
    : reLat.search line = some (cycles.digits, none) := by
  obtain ⟨frame, gap, rfl⟩ := Framed.two framed
  have whole : frame.tail.takeWhile isSpace ++ frame.tail.dropWhile isSpace = frame.tail :=
    List.takeWhile_append_dropWhile
  have blank : ∀ c ∈ frame.tail.takeWhile isSpace, isSpace c = true :=
    fun c member => List.mem_takeWhile_imp member
  have stops : ∀ c ∈ (frame.tail.dropWhile isSpace).head?, isSpace c = false := by
    intro c first
    have refused := List.head?_dropWhile_not isSpace frame.tail
    rw [Option.mem_def.mp first] at refused
    exact refused
  have plain : Plain (frame.tail.dropWhile isSpace) :=
    fun c member => frame.tailPlain c (List.dropWhile_subset _ member)
  have head := reLat_head gap cycles blank (by rw [whole]; exact frame.apart) stops
    (reTag_plain plain)
  rw [whole] at head
  exact search_wrap reLat_starts (by decide) frame (by simpa using head)

/-- `RE_LAT` on a line with a label. -/
theorem reLat_search_labelled {cycles : Numeral 10} {label : LatLabel} {line : List Char}
    (framed : (Saying.lat cycles (some label)).Line line)
    : reLat.search line = some (cycles.digits, some label.text) := by
  obtain ⟨frame, text, spaced, rfl⟩ := framed
  obtain ⟨gap, rest, behind, rfl⟩ := spaced.split
  obtain ⟨more, last, final, rfl⟩ := behind.split
  rw [final.eq_of_one]
  have solid : Solid label.text := label.text_solid
  obtain ⟨others, tag⟩ := reTag_label label frame.tail
  have head := reLat_head gap cycles more.blank (more.head _) (solid.head _) tag
  exact search_wrap reLat_starts (by decide) frame (by simpa using head)

/-- The latency a line says is found. -/
theorem reLat_search {cycles : Numeral 10} {label : Option LatLabel} {line : List Char}
    (framed : (Saying.lat cycles label).Line line)
    : reLat.search line = some (cycles.digits, label.map LatLabel.text) := by
  cases label with
  | none => exact reLat_search_unlabelled framed
  | some label => exact reLat_search_labelled framed

/-- `RE_EV` captures the names, with other text behind them that names no event. -/
theorem reEv_search {first : EventName} {more : List EventName} {line : List Char}
    (framed : (Saying.ev first more).Line line)
    : ∃ events, reEv.search line = some events
        ∧ ∀ flag ∈ [EventName.llcRefill, .llcAccess, .tlbRefill],
            contains events flag.text = decide (flag ∈ first :: more) := by
  obtain ⟨frame, text, spaced, rfl⟩ := framed
  obtain ⟨gap, names, behind, rfl⟩ := spaced.split
  have solid : ∀ word ∈ (first :: more).map EventName.text, Solid word := by
    intro word member
    obtain ⟨name, _, rfl⟩ := List.mem_map.mp member
    exact name.text_solid
  have head := reEv_head gap frame.tail (behind.ne_nil solid) (behind.head solid)
    (behind.oneLine solid)
  have front : frame.tail.takeWhile (fun c => c ≠ '\n') <+: frame.tail :=
    List.takeWhile_prefix _
  have spelled : Spaced ((first :: more).map EventName.text) names := behind
  have plain : Plain (frame.tail.takeWhile (fun c => c ≠ '\n')) :=
    fun c member => frame.tailPlain c (front.subset member)
  have apart : ∀ c ∈ (frame.tail.takeWhile (fun c => c ≠ '\n')).head?, isSpace c = true := by
    intro c first
    obtain ⟨rest, split⟩ := front
    refine frame.apart c ?_
    rw [← split, List.head?_append, first]
    rfl
  refine ⟨names ++ frame.tail.takeWhile (fun c => c ≠ '\n'), ?_,
    fun flag counted => contains_event spelled plain apart counted⟩
  exact search_wrap reEv_starts (by decide) frame (by simpa using head)

/-- The operation a line says is found. -/
theorem reOp_search {type : OpType} {reg : OpReg} {line : List Char}
    (framed : (Saying.op type reg).Line line)
    : reOp.search line = some (type.text, reg.text) := by
  obtain ⟨frame, gap, rfl⟩ := Framed.two framed
  have head := reOp_head type gap reg frame.tail
  exact search_wrap reOp_starts (by decide) frame (by simpa using head)

/-- The timestamp a line says is found. -/
theorem reTs_search {time : Numeral 10} {line : List Char}
    (framed : (Saying.ts time).Line line)
    : reTs.search line = some time.digits := by
  obtain ⟨frame, gap, rfl⟩ := Framed.two framed
  have head := reTs_head gap time frame.apart
  exact search_wrap reTs_starts (by decide) frame (by simpa using head)

/-- The program counter a line says is found. -/
theorem rePc_search {address : Numeral 16} {line : List Char}
    (framed : (Saying.pc address).Line line)
    : rePc.search line = some (literal address) := by
  obtain ⟨frame, gap, rfl⟩ := Framed.two framed
  exact search_wrap rePc_starts (by decide) frame
    (reAddress_head "PC".toList gap address frame.apart)

/-- The data address a line says is found. -/
theorem reVa_search {address : Numeral 16} {line : List Char}
    (framed : (Saying.va address).Line line)
    : reVa.search line = some (literal address) := by
  obtain ⟨frame, gap, rfl⟩ := Framed.two framed
  exact search_wrap reVa_starts (by decide) frame
    (reAddress_head "VA".toList gap address frame.apart)

/-- An event line sets the flags of the events it lists. -/
theorem streamEv_counted {first : EventName} {more : List EventName} {events : List Char}
    (listed : ∀ flag ∈ [EventName.llcRefill, .llcAccess, .tlbRefill],
      contains events flag.text = decide (flag ∈ first :: more))
    (sample : Sample)
    : (streamEv sample events).counted = (Saying.ev first more).absorb sample.counted := by
  have llcRefill : contains events "LLC-REFILL".toList = _ := listed .llcRefill (by simp)
  have llcAccess : contains events "LLC-ACCESS".toList = _ := listed .llcAccess (by simp)
  have tlbRefill : contains events "TLB-REFILL".toList = _ := listed .tlbRefill (by simp)
  rw [streamEv, setEvents, llcRefill, llcAccess, tlbRefill]
  rfl

/-- The one packet that a spelled line is read as: the patterns that the parsers try before
its own do not match.
-/
theorem Saying.reads {saying : Saying} {line : List Char} (framed : saying.Line line)
    : ∃ packet, packet? line = some packet ∧ saying.Means packet := by
  cases saying with
  | pc address =>
      have ts := passes framed reTs_starts (by simp [foreign, marks])
      refine ⟨.pc (literal address), ?_, rfl, fun _ => rfl⟩
      simp only [packet?, ts, rePc_search framed]
  | va address =>
      have ts := passes framed reTs_starts (by simp [foreign, marks])
      have pc := passes framed rePc_starts (by simp [foreign, marks])
      refine ⟨.va (literal address), ?_, rfl, fun _ => rfl⟩
      simp only [packet?, ts, pc, reVa_search framed]
  | lat cycles label =>
      have ts := passes framed reTs_starts (by simp [foreign, marks])
      have pc := passes framed rePc_starts (by simp [foreign, marks])
      have va := passes framed reVa_starts (by simp [foreign, marks])
      refine ⟨.lat (int cycles.digits) (label.map LatLabel.text), ?_, rfl, fun sample => ?_⟩
      · simp only [packet?, ts, pc, va, reLat_search framed]
      · rw [int_numeral]
        cases label with
        | none => rfl
        | some label => cases label <;> rfl
  | ev first more =>
      have ts := passes framed reTs_starts (by simp [foreign, marks])
      have pc := passes framed rePc_starts (by simp [foreign, marks])
      have va := passes framed reVa_starts (by simp [foreign, marks])
      have lat := passes framed reLat_starts (by simp [foreign, marks])
      obtain ⟨events, ev, listed⟩ := reEv_search framed
      refine ⟨.ev events, ?_, rfl, fun sample => streamEv_counted listed sample⟩
      simp only [packet?, ts, pc, va, lat, ev]
  | op type reg =>
      have ts := passes framed reTs_starts (by simp [foreign, marks])
      have pc := passes framed rePc_starts (by simp [foreign, marks])
      have va := passes framed reVa_starts (by simp [foreign, marks])
      have lat := passes framed reLat_starts (by simp [foreign, marks])
      have ev := passes framed reEv_starts (by simp [foreign, marks])
      refine ⟨.op type.text reg.text, ?_, rfl, fun sample => ?_⟩
      · simp only [packet?, ts, pc, va, lat, ev, reOp_search framed]
      · cases type <;> cases reg <;> rfl
  | ts time =>
      refine ⟨.ts, ?_, rfl, fun _ => rfl⟩
      simp only [packet?, reTs_search framed]

/-- `parse_stream` sees a spelled line as its packet. -/
theorem Saying.streamMeaning {saying : Saying} {line : List Char} (framed : saying.Line line)
    : ∃ packet, streamMeaning line = some packet ∧ saying.Means packet := by
  obtain ⟨packet, found, means⟩ := reads framed.strip
  refine ⟨packet, ?_, means⟩
  rw [Spe.streamMeaning, noHeader framed.strip]
  exact found

end Kumf.Spe
