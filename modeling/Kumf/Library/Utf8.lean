import Kumf.Library.PyText

/-! The bytes of a text in UTF-8, written as characters again so that C strings can hold
them: ASCII stays as it is, and no other character has a byte that looks like ASCII.
-/

namespace Kumf.Library

open PyText

/-- A byte as a character. -/
def ofByte (byte : UInt8) : Char := Char.ofNat byte.toNat

/-- The bytes of one character. -/
def utf8Char (c : Char) : List Char := (String.utf8EncodeChar c).map ofByte

/-- The bytes of a text. -/
def utf8 (text : List Char) : List Char := text.flatMap utf8Char

/-- A text of ASCII characters. -/
def Ascii (text : List Char) : Prop := ∀ c ∈ text, c.toNat ≤ 127

theorem Ascii.append {front back : List Char} (left : Ascii front) (right : Ascii back)
    : Ascii (front ++ back) :=
  List.forall_mem_append.mpr ⟨left, right⟩

theorem ascii_toDigits (n : Nat) : Ascii (Nat.toDigits 10 n) := by
  intro c member
  have digit := isDigitOf_ten_iff.mp (isDigitOf_toDigits (by omega) (by omega) n c member)
  omega

theorem ofByte_toNat {n : Nat} (byte : n < 256) : (ofByte (UInt8.ofNat n)).toNat = n := by
  have same : (UInt8.ofNat n).toNat = n := UInt8.toNat_ofNat_of_lt' byte
  have valid : n.isValidChar := Or.inl (by omega)
  rw [ofByte, same, Char.ofNat, dif_pos valid]
  rfl

theorem utf8Char_ascii {c : Char} (ascii : c.toNat ≤ 127) : utf8Char c = [c] := by
  have small : c.val.toNat ≤ 127 := ascii
  have same : ofByte (UInt8.ofNat c.val.toNat) = c :=
    Char.toNat_inj.mp (ofByte_toNat (Nat.lt_of_le_of_lt small (by omega)))
  rw [utf8Char, String.utf8EncodeChar, if_pos small, List.map_singleton, same]

/-- The bytes of a character outside ASCII are outside ASCII. -/
theorem utf8Char_other {c : Char} (other : 127 < c.toNat)
    : ∀ byte ∈ utf8Char c, 127 < byte.toNat := by
  have large : ¬ c.val.toNat ≤ 127 := Nat.not_le.mpr other
  have high {n : Nat} (low : 127 < n) (byte : n < 256)
      : 127 < (ofByte (UInt8.ofNat n)).toNat := by
    rwa [ofByte_toNat byte]
  have tail (n : Nat) : 127 < (ofByte (UInt8.ofNat (n % 0x40 + 0x80))).toNat :=
    high (by omega) (by omega)
  rw [utf8Char, String.utf8EncodeChar, if_neg large]
  split_ifs
  · refine List.forall_mem_cons.mpr ⟨?_, List.forall_mem_singleton.mpr (tail _)⟩
    exact high (by omega) (by omega)
  · refine List.forall_mem_cons.mpr ⟨?_, List.forall_mem_cons.mpr
      ⟨tail _, List.forall_mem_singleton.mpr (tail _)⟩⟩
    exact high (by omega) (by omega)
  · refine List.forall_mem_cons.mpr ⟨?_, List.forall_mem_cons.mpr
      ⟨tail _, List.forall_mem_cons.mpr ⟨tail _, List.forall_mem_singleton.mpr (tail _)⟩⟩⟩
    exact high (by omega) (by omega)

theorem utf8_append (front back : List Char) : utf8 (front ++ back) = utf8 front ++ utf8 back :=
  List.flatMap_append

theorem utf8_ascii {text : List Char} (ascii : Ascii text) : utf8 text = text := by
  induction text with
  | nil => rfl
  | cons c text ih =>
      have rest := ih (fun d member => ascii d (List.mem_cons_of_mem c member))
      have first := utf8Char_ascii (ascii c List.mem_cons_self)
      rw [utf8, List.flatMap_cons, first, ← utf8, rest]
      rfl

/-- An ASCII character among the bytes stands in the text. -/
theorem mem_of_mem_utf8 {text : List Char} {c : Char} (ascii : c.toNat ≤ 127)
    (member : c ∈ utf8 text)
    : c ∈ text := by
  obtain ⟨d, inText, inBytes⟩ := List.mem_flatMap.mp member
  by_cases other : 127 < d.toNat
  · have high := utf8Char_other other c inBytes
    omega
  · rw [utf8Char_ascii (Nat.le_of_not_lt other), List.mem_singleton] at inBytes
    rwa [inBytes]

/-- Lines are encoded one by one. -/
theorem utf8_unlines (lines : List (List Char))
    : utf8 (unlines lines) = unlines (lines.map utf8) := by
  induction lines with
  | nil => rfl
  | cons line lines ih =>
      have newline : utf8 ['\n'] = ['\n'] := utf8_ascii (by simp [Ascii])
      rw [unlines, List.flatMap_cons, ← unlines, utf8_append, utf8_append, newline, ih]
      rfl

end Kumf.Library
