import Kumf.Library.PyStr

/-! File names as Python strings: undecodable bytes become lone surrogates, so that exactly the
names in UTF-8 can be encoded again.
-/

namespace Kumf.Library

open PyStr

/-- A byte that could not be decoded. -/
def surrogate (byte : Nat) : Fin 0x110000 := Fin.ofNat 0x110000 (0xdc00 + byte)

def Piece.escaped : Piece → PyStr
  | .char c => [ofChar c]
  | .broken bytes => bytes.map surrogate

/-- `os.fsdecode`, which is UTF-8 with `errors='surrogateescape'` -/
def fsdecode (bytes : List Char) : PyStr := (pieces bytes).flatMap Piece.escaped

/-- A byte string that is the encoding of a text. -/
def IsUtf8 (bytes : List Char) : Prop := ∃ text, utf8 text = bytes

-----------------------------------------------------------------------------------------
-- Pieces that are all characters encode to the bytes that were read
-----------------------------------------------------------------------------------------

theorem toNat_ofNat {n : Nat} (valid : n.isValidChar) : (Char.ofNat n).toNat = n := by
  rw [Char.ofNat, dif_pos valid]
  rfl

/-- The bytes of a number that is a character. -/
theorem utf8Char_two {v : Nat} (low : 0x80 ≤ v) (high : v < 0x800)
    : (utf8Char (Char.ofNat v)).map Char.toNat = [v / 64 + 0xc0, v % 64 + 0x80] := by
  have number := toNat_ofNat (n := v) (.inl (by omega))
  rcases utf8Char_bytes (Char.ofNat v)
    with ⟨_, bytes⟩ | ⟨_, _, bytes⟩ | ⟨_, _, bytes⟩ | ⟨_, bytes⟩
    <;> rw [number] at *
  · omega
  · exact bytes
  · omega
  · omega

theorem utf8Char_three {v : Nat} (low : 0x800 ≤ v) (high : v < 0x10000) (valid : v.isValidChar)
    : (utf8Char (Char.ofNat v)).map Char.toNat
      = [v / 4096 + 0xe0, v / 64 % 64 + 0x80, v % 64 + 0x80] := by
  have number := toNat_ofNat valid
  rcases utf8Char_bytes (Char.ofNat v)
    with ⟨_, bytes⟩ | ⟨_, _, bytes⟩ | ⟨_, _, bytes⟩ | ⟨_, bytes⟩
    <;> rw [number] at *
  · omega
  · omega
  · exact bytes
  · omega

theorem utf8Char_four {v : Nat} (low : 0x10000 ≤ v) (valid : v.isValidChar)
    : (utf8Char (Char.ofNat v)).map Char.toNat
      = [v / 262144 + 0xf0, v / 4096 % 64 + 0x80, v / 64 % 64 + 0x80, v % 64 + 0x80] := by
  have number := toNat_ofNat valid
  rcases utf8Char_bytes (Char.ofNat v)
    with ⟨_, bytes⟩ | ⟨_, _, bytes⟩ | ⟨_, _, bytes⟩ | ⟨_, bytes⟩
    <;> rw [number] at *
  · omega
  · omega
  · omega
  · exact bytes

/-- Whatever continues an unfinished character up to its end gives its bytes. -/
def Opens : Nat → List Nat → Pending → Prop
  | 0, _, _ => False
  | 1, seen, pending => ∀ byte,
      pending.admits byte = true
      → (utf8Char (Char.ofNat (pending.extend byte))).map Char.toNat = seen ++ [byte]
  | owed + 2, seen, pending => ∀ byte,
      pending.admits byte = true
      → Opens (owed + 1) (seen ++ [byte]) (pending.next byte)

theorem Pending.admits_iff {pending : Pending} {byte : Nat}
    : pending.admits byte = true ↔ pending.low ≤ byte ∧ byte ≤ pending.high := by
  rw [Pending.admits, Bool.and_eq_true, decide_eq_true_iff, decide_eq_true_iff]

theorem opens_two {byte : Nat} (low : 0xc2 ≤ byte) (high : byte ≤ 0xdf)
    : Opens 1 [byte] ⟨byte - 0xc0, 1, 0x80, 0xbf⟩ := by
  intro second admitted
  obtain ⟨above, below⟩ := Pending.admits_iff.mp admitted
  dsimp only at above below
  change (utf8Char (Char.ofNat ((byte - 0xc0) * 64 + (second - 0x80)))).map Char.toNat
    = [byte, second]
  rw [utf8Char_two (by omega) (by omega)]
  congr 1
  · omega
  · congr 1
    omega

/-- The first continuation byte of three keeps out short forms and surrogates. -/
theorem opens_three {byte first last : Nat} (low : 0xe0 ≤ byte) (high : byte ≤ 0xef)
    (from_ : 0x80 ≤ first) (upto : last ≤ 0xbf) (long : byte = 0xe0 → 0xa0 ≤ first)
    (scalar : byte = 0xed → last ≤ 0x9f)
    : Opens 2 [byte] ⟨byte - 0xe0, 2, first, last⟩ := by
  intro second admitted third alsoAdmitted
  obtain ⟨above, below⟩ := Pending.admits_iff.mp admitted
  obtain ⟨thirdAbove, thirdBelow⟩ := Pending.admits_iff.mp alsoAdmitted
  dsimp only [Pending.next] at above below thirdAbove thirdBelow
  change (utf8Char (Char.ofNat (((byte - 0xe0) * 64 + (second - 0x80)) * 64
    + (third - 0x80)))).map Char.toNat = [byte, second, third]
  rw [utf8Char_three (by omega) (by omega) (by unfold Nat.isValidChar; omega)]
  congr 1
  · omega
  · congr 1
    · omega
    · congr 1
      omega

theorem opens_four {byte first last : Nat} (low : 0xf0 ≤ byte) (high : byte ≤ 0xf4)
    (from_ : 0x80 ≤ first) (upto : last ≤ 0xbf) (long : byte = 0xf0 → 0x90 ≤ first)
    (range : byte = 0xf4 → last ≤ 0x8f)
    : Opens 3 [byte] ⟨byte - 0xf0, 3, first, last⟩ := by
  intro second admitted third alsoAdmitted fourth lastAdmitted
  obtain ⟨above, below⟩ := Pending.admits_iff.mp admitted
  obtain ⟨thirdAbove, thirdBelow⟩ := Pending.admits_iff.mp alsoAdmitted
  obtain ⟨fourthAbove, fourthBelow⟩ := Pending.admits_iff.mp lastAdmitted
  dsimp only [Pending.next] at above below thirdAbove thirdBelow fourthAbove fourthBelow
  change (utf8Char (Char.ofNat ((((byte - 0xf0) * 64 + (second - 0x80)) * 64
    + (third - 0x80)) * 64 + (fourth - 0x80)))).map Char.toNat = [byte, second, third, fourth]
  rw [utf8Char_four (by omega) (by unfold Nat.isValidChar; omega)]
  congr 1
  · omega
  · congr 1
    · omega
    · congr 1
      · omega
      · congr 1
        omega

/-- A lead byte opens a character. -/
theorem opens_lead {byte : Nat} {pending : Pending} (lead : leadByte byte = some pending)
    : Opens pending.owed [byte] pending := by
  unfold leadByte at lead
  split_ifs at lead with two e0 three ed f0 four f4 <;> rw [← Option.some.inj lead]
  · exact opens_two two.1 two.2
  · subst e0
    exact opens_three (by omega) (by omega) (by omega) (by omega) (by omega) (by omega)
  · exact opens_three (by omega) three.2 (by omega) (by omega) (by omega) (by omega)
  · exact opens_three (by omega) three.2 (by omega) (by omega) (by omega) (by omega)
  · subst f0
    exact opens_four (by omega) (by omega) (by omega) (by omega) (by omega) (by omega)
  · exact opens_four (by omega) four.2 (by omega) (by omega) (by omega) (by omega)
  · exact opens_four (by omega) four.2 (by omega) (by omega) (by omega) (by omega)

/-- The bytes that an unfinished character has already. -/
def seenBytes : Unfinished → List Nat
  | none => []
  | some (seen, _) => seen

/-- The invariant between two bytes. -/
def Opened : Unfinished → Prop
  | none => True
  | some (seen, pending) => (∃ byte ∈ seen, byte < 256) ∧ Opens pending.owed seen pending

/-- What the next byte can do: finish a character, go on with one, or break something off. -/
theorem nextByte_cases {state : Unfinished} {byte : Nat} (opened : Opened state)
    (small : byte < 256)
    : (∃ c,
        nextByte state byte = ([.char c], none)
        ∧ (utf8Char c).map Char.toNat = seenBytes state ++ [byte])
      ∨ (∃ next,
        nextByte state byte = ([], next)
        ∧ Opened next
        ∧ seenBytes next = seenBytes state ++ [byte])
      ∨ ∃ bytes,
        .broken bytes ∈ (nextByte state byte).1
        ∧ ∃ lost ∈ bytes, lost < 256 := by
  cases state with
  | none =>
      rw [nextByte, startByte]
      split
      case isTrue ascii =>
          have number := toNat_ofNat (n := byte) (.inl (by omega))
          refine .inl ⟨Char.ofNat byte, rfl, ?_⟩
          rw [utf8Char_ascii (by omega), List.map_singleton, number]
          rfl
      case isFalse =>
          cases lead : leadByte byte with
          | some pending =>
              refine .inr
                (.inl ⟨_, rfl, ⟨⟨byte, by simp, small⟩, opens_lead lead⟩, rfl⟩)
          | none => exact .inr (.inr ⟨[byte], by simp, byte, by simp, small⟩)
  | some unfinished =>
      obtain ⟨seen, pending⟩ := unfinished
      obtain ⟨⟨first, inSeen, firstSmall⟩, opens⟩ := opened
      rw [nextByte]
      by_cases admitted : pending.admits byte = true
      · rw [if_pos admitted]
        obtain ⟨code, owed, low, high⟩ := pending
        rcases owed with _ | _ | owed
        · exact False.elim opens
        · exact .inl ⟨_, rfl, opens byte admitted⟩
        · have more : ¬ owed + 1 + 1 ≤ 1 := by omega
          rw [if_neg more]
          refine .inr (.inl ⟨_, rfl, ⟨⟨first, by simp [inSeen], firstSmall⟩, ?_⟩, rfl⟩)
          exact opens byte admitted
      · rw [if_neg admitted]
        exact .inr (.inr ⟨seen, by simp, first, inSeen, firstSmall⟩)

/-- A byte string encodes its pieces, or something breaks off, by induction on the bytes. -/
theorem piecesFrom_cases {state : Unfinished} {bytes : List Nat} (opened : Opened state)
    (small : ∀ byte ∈ bytes, byte < 256)
    : (∃ text,
        piecesFrom state bytes = text.map .char
        ∧ (utf8 text).map Char.toNat = seenBytes state ++ bytes)
      ∨ ∃ broken,
        .broken broken ∈ piecesFrom state bytes
        ∧ ∃ lost ∈ broken, lost < 256 := by
  induction bytes generalizing state with
  | nil =>
      cases state with
      | none => exact .inl ⟨[], rfl, rfl⟩
      | some unfinished => exact .inr ⟨unfinished.1, by simp [piecesFrom], opened.1⟩
  | cons byte rest ih =>
      have restSmall : ∀ other ∈ rest, other < 256 :=
        fun other member => small other (List.mem_cons_of_mem byte member)
      rw [piecesFrom]
      rcases nextByte_cases opened (small byte List.mem_cons_self) with
        ⟨c, next, encoded⟩ | ⟨after, next, stays, seen⟩ | ⟨broken, member, lost⟩
      · rw [next]
        rcases @ih none trivial restSmall with ⟨text, whole, same⟩ | ⟨broken, member, lost⟩
        · refine .inl ⟨c :: text, by rw [whole]; rfl, ?_⟩
          have front : (utf8 (c :: text)).map Char.toNat
              = (utf8Char c).map Char.toNat ++ (utf8 text).map Char.toNat := by
            simp [utf8]
          rw [front, encoded, same, List.append_assoc]
          rfl
        · exact .inr ⟨broken, List.mem_append_right _ member, lost⟩
      · rw [next]
        rcases ih stays restSmall with ⟨text, whole, same⟩ | ⟨broken, member, lost⟩
        · refine .inl ⟨text, by rw [whole]; rfl, ?_⟩
          rw [same, seen, List.append_assoc]
          rfl
        · exact .inr ⟨broken, List.mem_append_right _ member, lost⟩
      · exact .inr ⟨broken, List.mem_append_left _ member, lost⟩

-----------------------------------------------------------------------------------------
-- Which names can be encoded again
-----------------------------------------------------------------------------------------

theorem isScalar_ofChar (c : Char) : isScalar (ofChar c) = true := by
  rw [isScalar, Bool.or_eq_true]
  exact (char_range c).1.imp decide_eq_true decide_eq_true

theorem encode_ofText (text : List Char) : encode (ofText text) = some (utf8 text) := by
  have scalar : (ofText text).all isScalar = true := by
    refine List.all_eq_true.mpr (fun c member => ?_)
    obtain ⟨d, -, rfl⟩ := List.mem_map.mp member
    exact isScalar_ofChar d
  have same : (ofText text).map (fun c => Char.ofNat c.val) = text := by
    rw [ofText, List.map_map]
    exact (List.map_congr_left (fun c _ => Char.ofNat_toNat c)).trans (List.map_id text)
  rw [encode, chars?, if_pos scalar, same]
  rfl

theorem encode_fsdecode_utf8 {bytes : List Char} (valid : IsUtf8 bytes)
    : encode (fsdecode bytes) = some bytes := by
  obtain ⟨text, rfl⟩ := valid
  have same : fsdecode (utf8 text) = ofText text := by
    rw [fsdecode, pieces_utf8, List.flatMap_map, ofText, List.map_eq_flatMap]
    rfl
  rw [same, encode_ofText]

/-- Other names hold a surrogate. -/
theorem encode_fsdecode_other {bytes : List Char} (small : ∀ c ∈ bytes, c.toNat < 256)
    (invalid : ¬ IsUtf8 bytes)
    : encode (fsdecode bytes) = none := by
  have numbers : ∀ byte ∈ bytes.map Char.toNat, byte < 256 := by
    simpa using small
  rcases @piecesFrom_cases none _ trivial numbers with
    ⟨text, -, same⟩ | ⟨broken, member, lost, inBroken, below⟩
  · have inj : Function.Injective Char.toNat := fun _ _ => Char.toNat_inj.mp
    exact absurd ⟨text, List.map_injective_iff.mpr inj same⟩ invalid
  · have inName : surrogate lost ∈ fsdecode bytes :=
      List.mem_flatMap.mpr ⟨.broken broken, member, List.mem_map_of_mem inBroken⟩
    have value : (surrogate lost).val = 0xdc00 + lost := Nat.mod_eq_of_lt (by omega)
    have lone : isScalar (surrogate lost) = false := by
      simp only [isScalar, value, Bool.or_eq_false_iff, decide_eq_false_iff_not]
      omega
    have notAll : ¬ (fsdecode bytes).all isScalar = true := by
      intro all
      rw [List.all_eq_true.mp all _ inName] at lone
      cases lone
    rw [encode, chars?, if_neg notAll]
    rfl

end Kumf.Library
