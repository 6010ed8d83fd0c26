import Kumf.Library.PyText

/-! The lines of a `perf report -D` dump: the patterns that recognise SPE packets and the
headers around them, and the packet that a line is taken for.
-/

namespace Kumf.Spe

open Kumf.Library Pattern PyText

def isHex (c : Char) : Bool := isDigitOf 16 c

/-- `WORD\s+(0x[0-9a-fA-F]+)` -/
def reAddress (letters : List Char) : Pattern (List Char) := do
  let _ ← word letters
  let _ ← many1 isSpace
  let base ← word "0x".toList
  let digits ← many1 isHex
  pure (base ++ digits)

/-- `RE_PC` -/
def rePc : Pattern (List Char) := reAddress "PC".toList

/-- `RE_VA` -/
def reVa : Pattern (List Char) := reAddress "VA".toList

/-- `RE_LAT`: `LAT\s+(\d+)\s*(ISSUE|TOT|XLAT)?` -/
def reLat : Pattern (List Char × Option (List Char)) := do
  let _ ← word "LAT".toList
  let _ ← many1 isSpace
  let digits ← many1 isDecimal
  let _ ← many isSpace
  let tag ← optional
    ((word "ISSUE".toList).either ((word "TOT".toList).either (word "XLAT".toList)))
  pure (digits, tag)

/-- `RE_EV`: `EV\s+(.+)` -/
def reEv : Pattern (List Char) := do
  let _ ← word "EV".toList
  let _ ← many1 isSpace
  many1 (fun c => c ≠ '\n')

/-- `RE_OP`: `(LD|ST)\s+(GP-REG|SIMD-FP|SVE|NEON)` -/
def reOp : Pattern (List Char × List Char) := do
  let type ← (word "LD".toList).either (word "ST".toList)
  let _ ← many1 isSpace
  let reg ← (word "GP-REG".toList).either
    ((word "SIMD-FP".toList).either ((word "SVE".toList).either (word "NEON".toList)))
  pure (type, reg)

/-- `RE_TS`: `TS\s+(\d+)` -/
def reTs : Pattern (List Char) := do
  let _ ← word "TS".toList
  let _ ← many1 isSpace
  many1 isDecimal

/-- `RE_AUXTRACE` -/
def reAuxtrace : Pattern (List Char) := word "PERF_RECORD_AUXTRACE".toList

/-- `RE_MMAP` -/
def reMmap : Pattern (List Char) := word "PERF_RECORD_MMAP".toList

/-- `_is_spe_packet` -/
def isSpePacket (line : List Char) : Bool :=
  (rePc.search line).isSome || (reVa.search line).isSome || (reLat.search line).isSome
    || (reEv.search line).isSome || (reOp.search line).isSome || (reTs.search line).isSome

/-- The test that ends a section in `parse_stream`. -/
def endsSection (line : List Char) : Bool :=
  (reMmap.search line).isSome || startsWith line "PERF_RECORD_SWITCH".toList
    || startsWith line "PERF_RECORD_ITRACE".toList

/-- A line that `parse_stream` takes for a header. -/
def isHeader (line : List Char) : Bool := (reAuxtrace.search line).isSome || endsSection line

/-- What a packet line says. -/
inductive Packet where
  | ts
  | pc (value : List Char)
  | va (value : List Char)
  | lat (value : Nat) (tag : Option (List Char))
  | ev (events : List Char)
  | op (type reg : List Char)
  deriving DecidableEq, Repr

/-- The packet of a line: both parsers try the patterns in this order. -/
def packet? (line : List Char) : Option Packet :=
  match reTs.search line, rePc.search line, reVa.search line, reLat.search line,
    reEv.search line, reOp.search line with
  | some _, _, _, _, _, _ => some .ts
  | none, some value, _, _, _, _ => some (.pc value)
  | none, none, some value, _, _, _ => some (.va value)
  | none, none, none, some (digits, tag), _, _ => some (.lat (int digits) tag)
  | none, none, none, none, some events, _ => some (.ev events)
  | none, none, none, none, none, some (type, reg) => some (.op type reg)
  | none, none, none, none, none, none => none

theorem isSpePacket_eq (line : List Char) : isSpePacket line = (packet? line).isSome := by
  unfold isSpePacket packet?
  cases reTs.search line <;> cases rePc.search line <;> cases reVa.search line
    <;> cases reLat.search line <;> cases reEv.search line <;> cases reOp.search line <;> rfl

end Kumf.Spe
