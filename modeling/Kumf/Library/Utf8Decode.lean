import Kumf.Library.Utf8

/-! Python's UTF-8 decoder: bytes fall into characters and pieces that break off. With
`errors='replace'` every piece becomes one replacement character.
-/

namespace Kumf.Library

/-- A character, or the longest piece of one that breaks off. -/
inductive Piece where
  | char (c : Char)
  | broken (bytes : List Nat)

/-- What a lead byte leaves open: the code so far, the continuation bytes owed, and the range
of the next one.
-/
structure Pending where
  code : Nat
  owed : Nat
  low : Nat
  high : Nat

def leadByte (byte : Nat) : Option Pending :=
  if 0xc2 ≤ byte ∧ byte ≤ 0xdf then some ⟨byte - 0xc0, 1, 0x80, 0xbf⟩
  else if byte = 0xe0 then some ⟨0, 2, 0xa0, 0xbf⟩
  else if 0xe1 ≤ byte ∧ byte ≤ 0xef then
    some ⟨byte - 0xe0, 2, 0x80, if byte = 0xed then 0x9f else 0xbf⟩
  else if byte = 0xf0 then some ⟨0, 3, 0x90, 0xbf⟩
  else if 0xf1 ≤ byte ∧ byte ≤ 0xf4 then
    some ⟨byte - 0xf0, 3, 0x80, if byte = 0xf4 then 0x8f else 0xbf⟩
  else none

/-- Whether a byte may continue a character. -/
def Pending.admits (pending : Pending) (byte : Nat) : Bool :=
  pending.low ≤ byte && byte ≤ pending.high

/-- The code with one more continuation byte. -/
def Pending.extend (pending : Pending) (byte : Nat) : Nat := pending.code * 64 + (byte - 0x80)

def Pending.next (pending : Pending) (byte : Nat) : Pending :=
  ⟨pending.extend byte, pending.owed - 1, 0x80, 0xbf⟩

/-- The decoder between two bytes: the bytes of an unfinished character with what they leave
open.
-/
abbrev Unfinished := Option (List Nat × Pending)

/-- A byte that does not continue a character. -/
def startByte (byte : Nat) : List Piece × Unfinished :=
  if byte < 0x80 then
    ([.char (Char.ofNat byte)], none)
  else
    match leadByte byte with
    | some pending => ([], some ([byte], pending))
    | none => ([.broken [byte]], none)

def nextByte (state : Unfinished) (byte : Nat) : List Piece × Unfinished :=
  match state with
  | none => startByte byte
  | some (seen, pending) =>
      if pending.admits byte then
        if pending.owed ≤ 1 then
          ([.char (Char.ofNat (pending.extend byte))], none)
        else
          ([], some (seen ++ [byte], pending.next byte))
      else
        (.broken seen :: (startByte byte).1, (startByte byte).2)

def piecesFrom (state : Unfinished) : List Nat → List Piece
  | [] =>
      match state with
      | none => []
      | some (seen, _) => [.broken seen]
  | byte :: rest => (nextByte state byte).1 ++ piecesFrom (nextByte state byte).2 rest

/-- The pieces of a byte string. -/
def pieces (bytes : List Char) : List Piece := piecesFrom none (bytes.map Char.toNat)

/-- U+FFFD -/
def replacement : Char := Char.ofNat 0xfffd

def Piece.replaced : Piece → Char
  | .char c => c
  | .broken _ => replacement

/-- `decode('utf-8', errors='replace')` -/
def decodeUtf8 (bytes : List Char) : List Char := (pieces bytes).map Piece.replaced

-----------------------------------------------------------------------------------------
-- The bytes of one character
-----------------------------------------------------------------------------------------

theorem char_range (c : Char)
    : (c.toNat < 0xd800 ∨ 0xdfff < c.toNat) ∧ c.toNat < 0x110000 := by
  rcases c.valid with low | high
  · exact ⟨.inl low, Nat.lt_trans low (by omega)⟩
  · exact ⟨.inr high.1, high.2⟩

/-- The four forms of an encoded character, as numbers. -/
theorem utf8Char_bytes (c : Char)
    : (c.toNat < 0x80 ∧ (utf8Char c).map Char.toNat = [c.toNat])
      ∨ (0x80 ≤ c.toNat ∧ c.toNat < 0x800
        ∧ (utf8Char c).map Char.toNat = [c.toNat / 64 + 0xc0, c.toNat % 64 + 0x80])
      ∨ (0x800 ≤ c.toNat ∧ c.toNat < 0x10000
        ∧ (utf8Char c).map Char.toNat
          = [c.toNat / 4096 + 0xe0, c.toNat / 64 % 64 + 0x80, c.toNat % 64 + 0x80])
      ∨ (0x10000 ≤ c.toNat
        ∧ (utf8Char c).map Char.toNat
          = [c.toNat / 262144 + 0xf0, c.toNat / 4096 % 64 + 0x80, c.toNat / 64 % 64 + 0x80,
            c.toNat % 64 + 0x80]) := by
  have range := (char_range c).2
  have value : c.val.toNat = c.toNat := rfl
  have byte {n : Nat} (small : n < 256) : (ofByte (UInt8.ofNat n)).toNat = n :=
    ofByte_toNat small
  unfold utf8Char String.utf8EncodeChar
  rw [value]
  dsimp only
  split_ifs with one two three
  · refine .inl ⟨by omega, ?_⟩
    simp only [List.map_cons, List.map_nil]
    rw [byte (by omega)]
  · refine .inr (.inl ⟨by omega, by omega, ?_⟩)
    simp only [List.map_cons, List.map_nil]
    rw [byte (by omega), byte (by omega)]
    congr 1
    omega
  · refine .inr (.inr (.inl ⟨by omega, by omega, ?_⟩))
    simp only [List.map_cons, List.map_nil]
    rw [byte (by omega), byte (by omega), byte (by omega)]
    congr 1
    omega
  · refine .inr (.inr (.inr ⟨by omega, ?_⟩))
    simp only [List.map_cons, List.map_nil]
    rw [byte (by omega), byte (by omega), byte (by omega), byte (by omega)]
    congr 1
    omega

theorem leadByte_two {v : Nat} (low : 0x80 ≤ v) (high : v < 0x800)
    : leadByte (v / 64 + 0xc0) = some ⟨v / 64, 1, 0x80, 0xbf⟩ := by
  rw [leadByte, if_pos (by omega), Nat.add_sub_cancel]

/-- The lead byte of three admits the second one, which excludes the surrogates. -/
theorem leadByte_three {v : Nat} (low : 0x800 ≤ v) (high : v < 0x10000)
    (scalar : v < 0xd800 ∨ 0xdfff < v)
    : ∃ first last,
        leadByte (v / 4096 + 0xe0) = some ⟨v / 4096, 2, first, last⟩
        ∧ first ≤ v / 64 % 64 + 0x80
        ∧ v / 64 % 64 + 0x80 ≤ last := by
  rw [leadByte, if_neg (by omega)]
  split_ifs with e0 more ed
  · exact ⟨0xa0, 0xbf, by rw [show v / 4096 = 0 by omega], by omega, by omega⟩
  · exact ⟨0x80, 0x9f, by rw [Nat.add_sub_cancel], by omega, by omega⟩
  · exact ⟨0x80, 0xbf, by rw [Nat.add_sub_cancel], by omega, by omega⟩
  all_goals omega

theorem leadByte_four {v : Nat} (low : 0x10000 ≤ v) (high : v < 0x110000)
    : ∃ first last,
        leadByte (v / 262144 + 0xf0) = some ⟨v / 262144, 3, first, last⟩
        ∧ first ≤ v / 4096 % 64 + 0x80
        ∧ v / 4096 % 64 + 0x80 ≤ last := by
  rw [leadByte, if_neg (by omega), if_neg (by omega), if_neg (by omega)]
  split_ifs with f0 more f4
  · exact ⟨0x90, 0xbf, by rw [show v / 262144 = 0 by omega], by omega, by omega⟩
  · exact ⟨0x80, 0x8f, by rw [Nat.add_sub_cancel], by omega, by omega⟩
  · exact ⟨0x80, 0xbf, by rw [Nat.add_sub_cancel], by omega, by omega⟩
  all_goals omega

/-- A lead byte leaves the rest of its character open. -/
theorem piecesFrom_lead {byte : Nat} {pending : Pending} (high : 0x80 ≤ byte)
    (lead : leadByte byte = some pending) (rest : List Nat)
    : piecesFrom none (byte :: rest) = piecesFrom (some ([byte], pending)) rest := by
  have notAscii : ¬ byte < 0x80 := by omega
  simp [piecesFrom, nextByte, startByte, notAscii, lead]

theorem Pending.admits_between {pending : Pending} {byte : Nat} (above : pending.low ≤ byte)
    (below : byte ≤ pending.high)
    : pending.admits byte = true := by
  rw [Pending.admits, decide_eq_true above, decide_eq_true below]
  rfl

theorem Pending.extend_bits (pending : Pending) (bits : Nat)
    : pending.extend (bits + 0x80) = pending.code * 64 + bits :=
  congrArg (pending.code * 64 + ·) (Nat.add_sub_cancel bits 0x80)

/-- A continuation byte inside the range takes the code on. -/
theorem piecesFrom_more {code owed first last bits : Nat} (above : first ≤ bits + 0x80)
    (below : bits + 0x80 ≤ last) (seen rest : List Nat)
    : piecesFrom (some (seen, ⟨code, owed + 2, first, last⟩)) ((bits + 0x80) :: rest)
      = piecesFrom (some (seen ++ [bits + 0x80], ⟨code * 64 + bits, owed + 1, 0x80, 0xbf⟩))
          rest := by
  have admitted : Pending.admits ⟨code, owed + 2, first, last⟩ (bits + 0x80) = true :=
    Pending.admits_between above below
  have more : ¬ owed + 2 ≤ 1 := by omega
  rw [piecesFrom, nextByte]
  dsimp only
  rw [if_pos admitted, if_neg more, Pending.next, Pending.extend_bits]
  rfl

theorem piecesFrom_last {code first last bits : Nat} (above : first ≤ bits + 0x80)
    (below : bits + 0x80 ≤ last) (seen rest : List Nat)
    : piecesFrom (some (seen, ⟨code, 1, first, last⟩)) ((bits + 0x80) :: rest)
      = .char (Char.ofNat (code * 64 + bits)) :: piecesFrom none rest := by
  have admitted : Pending.admits ⟨code, 1, first, last⟩ (bits + 0x80) = true :=
    Pending.admits_between above below
  rw [piecesFrom, nextByte]
  dsimp only
  rw [if_pos admitted, if_pos (Nat.le_refl 1), Pending.extend_bits]
  rfl

/-- The bytes of a character are read as the character. -/
theorem piecesFrom_char (c : Char) (rest : List Nat)
    : piecesFrom none ((utf8Char c).map Char.toNat ++ rest) = .char c :: piecesFrom none rest := by
  have same : Char.ofNat c.toNat = c := Char.ofNat_toNat c
  obtain ⟨scalar, range⟩ := char_range c
  rcases utf8Char_bytes c with ⟨one, bytes⟩ | ⟨low, high, bytes⟩ | ⟨low, high, bytes⟩
    | ⟨low, bytes⟩ <;> rw [bytes]
  · simp [piecesFrom, nextByte, startByte, one, same]
  · refine ((piecesFrom_lead (by omega) (leadByte_two low high) _).trans
      (piecesFrom_last (by omega) (by omega) _ rest)).trans ?_
    rw [show c.toNat / 64 * 64 + c.toNat % 64 = c.toNat by omega, same]
  · obtain ⟨first, last, lead, above, below⟩ := leadByte_three low high scalar
    refine ((piecesFrom_lead (by omega) lead _).trans ((piecesFrom_more above below _ _).trans
      (piecesFrom_last (by omega) (by omega) _ rest))).trans ?_
    rw [show (c.toNat / 4096 * 64 + c.toNat / 64 % 64) * 64 + c.toNat % 64 = c.toNat by omega, same]
  · obtain ⟨first, last, lead, above, below⟩ := leadByte_four low range
    refine ((piecesFrom_lead (by omega) lead _).trans ((piecesFrom_more above below _ _).trans
      ((piecesFrom_more (by omega) (by omega) _ _).trans
        (piecesFrom_last (by omega) (by omega) _ rest)))).trans ?_
    rw [show ((c.toNat / 262144 * 64 + c.toNat / 4096 % 64) * 64 + c.toNat / 64 % 64) * 64
      + c.toNat % 64 = c.toNat by omega, same]

/-- A character that breaks off is one broken piece. -/
theorem pieces_cut (c : Char) {count : Nat} (some_ : 0 < count)
    (notAll : count < (utf8Char c).length)
    : ∃ bytes, pieces ((utf8Char c).take count) = [.broken bytes] := by
  obtain ⟨scalar, range⟩ := char_range c
  have length : (utf8Char c).length = ((utf8Char c).map Char.toNat).length := by simp
  rw [length] at notAll
  rw [pieces, List.map_take]
  rcases utf8Char_bytes c with ⟨one, bytes⟩ | ⟨low, high, bytes⟩ | ⟨low, high, bytes⟩
    | ⟨low, bytes⟩ <;> rw [bytes] at notAll ⊢ <;>
    simp only [List.length_cons, List.length_nil] at notAll
  · omega
  · obtain rfl : count = 1 := by omega
    exact ⟨_, piecesFrom_lead (by omega) (leadByte_two low high) []⟩
  · obtain ⟨first, last, lead, above, below⟩ := leadByte_three low high scalar
    obtain rfl | rfl : count = 1 ∨ count = 2 := by omega
    · exact ⟨_, piecesFrom_lead (by omega) lead []⟩
    · exact ⟨_, (piecesFrom_lead (by omega) lead _).trans (piecesFrom_more above below _ [])⟩
  · obtain ⟨first, last, lead, above, below⟩ := leadByte_four low range
    obtain rfl | rfl | rfl : count = 1 ∨ count = 2 ∨ count = 3 := by omega
    · exact ⟨_, piecesFrom_lead (by omega) lead []⟩
    · exact ⟨_, (piecesFrom_lead (by omega) lead _).trans (piecesFrom_more above below _ [])⟩
    · exact ⟨_, (piecesFrom_lead (by omega) lead _).trans
        ((piecesFrom_more above below _ _).trans (piecesFrom_more (by omega) (by omega) _ []))⟩

-----------------------------------------------------------------------------------------
-- Whole texts, and texts that are cut
-----------------------------------------------------------------------------------------

/-- Decoding undoes encoding, up to where the text ends. -/
theorem pieces_append (text bytes : List Char)
    : pieces (utf8 text ++ bytes) = text.map .char ++ pieces bytes := by
  unfold pieces
  induction text with
  | nil => rfl
  | cons c text ih =>
      have split : (utf8 (c :: text) ++ bytes).map Char.toNat
          = (utf8Char c).map Char.toNat ++ (utf8 text ++ bytes).map Char.toNat := by
        simp [utf8]
      rw [split, piecesFrom_char, ih, List.map_cons, List.cons_append]

theorem pieces_utf8 (text : List Char) : pieces (utf8 text) = text.map .char := by
  simpa [pieces, piecesFrom] using pieces_append text []

theorem decodeUtf8_append (text bytes : List Char)
    : decodeUtf8 (utf8 text ++ bytes) = text ++ decodeUtf8 bytes := by
  have same : (text.map Piece.char).map Piece.replaced = text := by
    rw [List.map_map]
    exact List.map_id text
  rw [decodeUtf8, pieces_append, List.map_append, same, ← decodeUtf8]

@[simp] theorem decodeUtf8_utf8 (text : List Char) : decodeUtf8 (utf8 text) = text := by
  simpa [decodeUtf8, pieces, piecesFrom] using decodeUtf8_append text []

theorem utf8_injective : Function.Injective utf8 := by
  intro left right same
  rw [← decodeUtf8_utf8 left, same, decodeUtf8_utf8]

/-- A cut inside the bytes of a text falls into one character, or in front of it. -/
theorem take_utf8 {text : List Char} {count : Nat} (inside : count < (utf8 text).length)
    : ∃ front c back part,
        text = front ++ c :: back
        ∧ part < (utf8Char c).length
        ∧ count = (utf8 front).length + part
        ∧ (utf8 text).take count = utf8 front ++ (utf8Char c).take part := by
  induction text generalizing count with
  | nil => simp [utf8] at inside
  | cons c text ih =>
      have split : utf8 (c :: text) = utf8Char c ++ utf8 text := rfl
      rcases Nat.lt_or_ge count (utf8Char c).length with within | beyond
      · refine ⟨[], c, text, count, rfl, within, by simp [utf8], ?_⟩
        rw [split, List.take_append_of_le_length (by omega)]
        rfl
      · rw [split, List.length_append] at inside
        obtain ⟨front, d, back, part, same, bound, position, taken⟩ :=
          @ih (count - (utf8Char c).length) (by omega)
        refine ⟨c :: front, d, back, part, by rw [same]; rfl, bound, ?_, ?_⟩
        · rw [show utf8 (c :: front) = utf8Char c ++ utf8 front from rfl, List.length_append]
          omega
        · rw [split, List.take_append, List.take_of_length_le beyond, taken, ← List.append_assoc]
          rfl

/-- What is read of a text whose bytes are cut off: it comes back whole when nothing is cut, or
when the cut falls inside a replacement character at its end.
-/
theorem decodeUtf8_take_eq_iff (text : List Char) (count : Nat)
    : decodeUtf8 ((utf8 text).take count) = text
      ↔ (utf8 text).length ≤ count
        ∨ ∃ front,
            text = front ++ [replacement]
            ∧ (utf8 front).length < count
            ∧ count < (utf8 text).length := by
  rcases Nat.lt_or_ge count (utf8 text).length with inside | whole
  · obtain ⟨front, c, back, part, rfl, bound, position, taken⟩ := take_utf8 inside
    rw [taken, decodeUtf8_append]
    constructor
    · intro same
      have rest : decodeUtf8 ((utf8Char c).take part) = c :: back := List.append_cancel_left same
      rcases Nat.eq_zero_or_pos part with rfl | positive
      · simp [decodeUtf8, pieces, piecesFrom] at rest
      · obtain ⟨bytes, cut⟩ := pieces_cut c positive bound
        rw [decodeUtf8, cut] at rest
        obtain ⟨rfl, rfl⟩ := List.cons.inj rest
        exact .inr ⟨front, rfl, by omega, inside⟩
    · rintro (whole | ⟨others, same, after, -⟩)
      · omega
      · rcases List.eq_nil_or_concat back with rfl | ⟨middle, last, rfl⟩
        · obtain ⟨rfl, alone⟩ := List.append_inj' same rfl
          obtain rfl := List.singleton_inj.mp alone
          obtain ⟨bytes, cut⟩ := pieces_cut replacement (by omega) bound
          rw [decodeUtf8, cut]
          rfl
        · have others_eq : others = front ++ c :: middle := by
            have parts : front ++ c :: middle ++ [last] = others ++ [replacement] := by
              simpa using same
            exact (List.append_inj' parts rfl).1.symm
          have long : (utf8 others).length
              = (utf8 front).length + ((utf8Char c).length + (utf8 middle).length) := by
            rw [others_eq, utf8_append, List.length_append]
            simp [utf8]
          omega
  · simp [List.take_of_length_le whole, whole]

end Kumf.Library
