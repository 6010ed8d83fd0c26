import Kumf.Library.CText
import Kumf.Library.PyFloat
import Kumf.Library.Utf8Decode

/-! Python strings of arbitrary code points, which include the lone surrogates of undecodable
file names: `json.dumps` of a list of strings, and strict encoding. Also `str.split` at a
separator with a limit.
-/

namespace Kumf.Library

/-- A Python string. -/
abbrev PyStr := List (Fin 0x110000)

namespace PyText

/-- `text.split(sep, limit)` -/
def splitLimit (sep : Char) : Nat → List Char → List (List Char)
  | 0, text => [text]
  | limit + 1, text =>
      let front := text.takeWhile (· ≠ sep)
      match text.drop front.length with
      | [] => [front]
      | _ :: back => front :: splitLimit sep limit back

/-- The part in front of the first separator is the first one. -/
theorem splitLimit_cons {sep : Char} {front : List Char} (absent : sep ∉ front) (limit : Nat)
    (back : List Char)
    : splitLimit sep (limit + 1) (front ++ sep :: back) = front :: splitLimit sep limit back := by
  have taken : (front ++ sep :: back).takeWhile (· ≠ sep) = front :=
    takeWhile_token (by simpa using fun c member (same : c = sep) => absent (same ▸ member))
      (by simp)
  rw [splitLimit, taken, List.drop_left]

theorem splitLimit_one {sep : Char} {text : List Char} (absent : sep ∉ text) (limit : Nat)
    : splitLimit sep limit text = [text] := by
  cases limit with
  | zero => rfl
  | succ limit =>
      have taken : text.takeWhile (· ≠ sep) = text :=
        List.takeWhile_eq_self_iff.mpr
          (by simpa using fun c member (same : c = sep) => absent (same ▸ member))
      rw [splitLimit, taken, List.drop_length]

/-- Whatever follows, the first part is what stands in front of a separator. -/
theorem splitLimit_head (sep : Char) (limit : Nat) (text : List Char)
    : (splitLimit sep (limit + 1) text).head? = some (text.takeWhile (· ≠ sep)) := by
  rw [splitLimit]
  split <;> rfl

end PyText

namespace PyStr

/-- A code point that is a character, no surrogate. -/
def isScalar (c : Fin 0x110000) : Bool := c.val < 0xd800 || 0xdfff < c.val

/-- The characters of a string without surrogates. -/
def chars? (text : PyStr) : Option (List Char) :=
  if text.all isScalar then some (text.map (fun c => Char.ofNat c.val)) else none

/-- `text.encode()`; `none` is a `UnicodeEncodeError`. -/
def encode (text : PyStr) : Option (List Char) := (chars? text).map utf8

/-- A character as a code point. -/
def ofChar (c : Char) : Fin 0x110000 :=
  ⟨c.toNat, by
    rcases c.valid with low | high
    · exact Nat.lt_trans low (by omega)
    · exact high.2⟩

/-- A text as a Python string. -/
def ofText (text : List Char) : PyStr := text.map ofChar

theorem ofChar_ofNat {c : Fin 0x110000} (scalar : isScalar c = true)
    : ofChar (Char.ofNat c.val) = c := by
  have valid : c.val.isValidChar := by
    simp only [isScalar, Bool.or_eq_true, decide_eq_true_eq] at scalar
    exact scalar.imp id (fun high => ⟨high, c.isLt⟩)
  apply Fin.ext
  rw [ofChar, Char.ofNat, dif_pos valid]
  rfl

/-- The characters of a string determine it. -/
theorem eq_ofText {text : PyStr} {chars : List Char} (found : chars? text = some chars)
    : text = ofText chars := by
  unfold chars? at found
  split at found
  case isFalse => cases found
  case isTrue scalar =>
      cases found
      rw [ofText, List.map_map]
      refine (List.map_id text).symm.trans (List.map_congr_left (fun c member => ?_))
      exact (ofChar_ofNat (List.all_eq_true.mp scalar c member)).symm

theorem encode_eq_some {text : PyStr} {bytes : List Char}
    : encode text = some bytes ↔ ∃ chars, chars? text = some chars ∧ utf8 chars = bytes := by
  simp [encode]

theorem encode_injective {left right : PyStr} {bytes : List Char}
    (first : encode left = some bytes) (second : encode right = some bytes)
    : left = right := by
  obtain ⟨chars, found, rfl⟩ := encode_eq_some.mp first
  obtain ⟨others, alsoFound, same⟩ := encode_eq_some.mp second
  rw [eq_ofText found, eq_ofText alsoFound, utf8_injective same]

/-- `\uXXXX` -/
def unicodeEscape (n : Nat) : List Char :=
  "\\u".toList ++ List.replicate (4 - (Nat.toDigits 16 n).length) '0' ++ Nat.toDigits 16 n

/-- A character inside a JSON string; all but printable ASCII is escaped, above the basic
plane as a pair of surrogates.
-/
def jsonEscape (c : Fin 0x110000) : List Char :=
  if c.val = 0x22 then "\\\"".toList
  else if c.val = 0x5c then "\\\\".toList
  else if c.val = 0x0a then "\\n".toList
  else if c.val = 0x0d then "\\r".toList
  else if c.val = 0x09 then "\\t".toList
  else if c.val = 0x0c then "\\f".toList
  else if c.val = 0x08 then "\\b".toList
  else if 0x20 ≤ c.val ∧ c.val ≤ 0x7e then [Char.ofNat c.val]
  else if c.val < 0x10000 then unicodeEscape c.val
  else
    unicodeEscape (0xd800 + (c.val - 0x10000) / 0x400)
      ++ unicodeEscape (0xdc00 + (c.val - 0x10000) % 0x400)

/-- `json.dumps` of a string -/
def jsonString (text : PyStr) : List Char := '"' :: text.flatMap jsonEscape ++ ['"']

/-- `json.dumps` of a list of strings -/
def jsonList (items : List PyStr) : List Char :=
  '[' :: ", ".toList.intercalate (items.map jsonString) ++ [']']

-----------------------------------------------------------------------------------------
-- A colon in the JSON text is a colon in a string
-----------------------------------------------------------------------------------------

theorem colon_unicodeEscape (n : Nat) : ':' ∉ unicodeEscape n := by
  have digits : ':' ∉ Nat.toDigits 16 n := by
    intro member
    exact absurd (isDigitOf_toDigits (by omega) (by omega) n ':' member) (by decide)
  simp [unicodeEscape, digits]

theorem colon_jsonEscape {c : Fin 0x110000} : ':' ∈ jsonEscape c ↔ c.val = 0x3a := by
  unfold jsonEscape
  -- The escapes of two characters come first.
  iterate 7
    split
    case isTrue escaped => exact iff_of_false (by simp) (by omega)
  split
  case isTrue printable =>
    rw [List.mem_singleton]
    constructor
    · intro same
      have value : 0x3a = (Char.ofNat c.val).toNat := congrArg Char.toNat same
      have valid : c.val.isValidChar := Or.inl (by omega)
      rw [Char.ofNat, dif_pos valid] at value
      exact value.symm
    · intro same
      rw [same]
  split
  case isTrue basic => exact iff_of_false (colon_unicodeEscape _) (by omega)
  case isFalse => exact iff_of_false (by simp [colon_unicodeEscape]) (by omega)

/-- `json.dumps` adds no colon to a list of strings. -/
theorem colon_jsonList {items : List PyStr}
    : ':' ∈ jsonList items ↔ ∃ item ∈ items, ∃ c ∈ item, c.val = 0x3a := by
  have inString (item : PyStr) : ':' ∈ jsonString item ↔ ∃ c ∈ item, c.val = 0x3a := by
    simp [jsonString, colon_jsonEscape]
  have inList : ':' ∈ ", ".toList.intercalate (items.map jsonString)
      ↔ ∃ item ∈ items, ':' ∈ jsonString item := by
    rw [PyText.mem_intercalate (by decide)]
    simp
  simp only [jsonList, List.cons_append, List.mem_cons, List.mem_append, inList, inString]
  simp

end PyStr

end Kumf.Library
