import Kumf.Library.PyLines
import Kumf.Prof.Log

/-! `load_prof_log`, and what it reads of a log that `prof_cleanup` wrote: every entry comes back
with its printed fields.
-/

namespace Kumf.PacToInterc

open Kumf.Library PyText
open Kumf.Prof

/-- An allocation that `load_prof_log` returns. -/
structure ProfRecord where
  callerSym : List Char
  callerAddr : Int
  timestamp : Int
  size : Int
  addr : Int
  entryType : Int
  deriving DecidableEq, Repr

/-- The caller address of a column `[0xADDR]`, and 0 of any other; `none` is a `ValueError`. -/
def loadCallerAddr (callerSym : List Char) : Option Int :=
  if startsWith callerSym "[0x".toList && endsWith callerSym "]".toList then
    parseInt 16 (callerSym.drop 1).dropLast
  else
    some 0

/-- The loop body of `load_prof_log`: the record of a line, unless it is skipped. -/
def loadProfLine (line : List Char) : Option ProfRecord :=
  let line := strip line
  if line = [] ∨ startsWith line "#".toList = true then
    none
  else
    match splitBlanks line with
    | callerSym :: time :: bytes :: address :: kind :: _ => do
        let timestamp ← parseInt 10 time
        let size ← parseInt 10 bytes
        let addr ← (parseInt 16 address).or (parseInt 10 address)
        let entryType ← parseInt 10 kind
        let callerAddr ← loadCallerAddr callerSym
        return { callerSym, callerAddr, timestamp, size, addr, entryType }
    | _ => none

/-- `load_prof_log`, on the text of the file. -/
def loadProfLog (text : List Char) : List ProfRecord :=
  ((universalNewlines text).splitOn '\n').filterMap loadProfLine

/-- The record of a log entry. -/
def profRecord (dladdr : Dladdr) (entry : LogEntry) : ProfRecord where
  callerSym := callerSym dladdr entry.callerAddr
  callerAddr := if printsRaw dladdr entry.callerAddr then entry.callerAddr.val else 0
  timestamp := entry.rdt.val
  size := entry.size.val
  addr := entry.addr.val
  entryType := toInt32 entry.entryType

-----------------------------------------------------------------------------------------
-- A line of the log
-----------------------------------------------------------------------------------------

section
variable {dladdr : Dladdr}

theorem loadCallerAddr_callerSym {callerAddr : Word} (named : Named dladdr callerAddr)
    : loadCallerAddr (callerSym dladdr callerAddr)
      = some (if printsRaw dladdr callerAddr then (callerAddr.val : Int) else 0) := by
  cases raw : printsRaw dladdr callerAddr with
  | true =>
      rw [callerSym_raw raw, loadCallerAddr]
      have starts : startsWith ('[' :: hex callerAddr.val ++ [']']) "[0x".toList = true := rfl
      have ends : endsWith ('[' :: hex callerAddr.val ++ [']']) "]".toList = true :=
        List.isSuffixOf_iff_suffix.mpr (List.suffix_append _ _)
      have inner : (('[' :: hex callerAddr.val ++ [']']).drop 1).dropLast = hex callerAddr.val :=
        List.dropLast_concat
      rw [starts, ends, inner, parseInt_hex]
      rfl
  | false =>
      rcases callerSym_other named raw with init | ⟨c, rest, symbol, -, notBracket, -⟩
      · rw [init]
        rfl
      · have starts : startsWith (c :: rest) "[0x".toList = false :=
          startsWith_other (Ne.symm notBracket) rest _
        rw [symbol, loadCallerAddr, starts]
        rfl

theorem visible_str (n : Int) : Visible (str n) := by
  intro c member
  rcases mem_str member with digit | rfl
  · have range := isDigitOf_ten_iff.mp digit
    omega
  · decide

variable {entry : LogEntry} (named : Named dladdr entry.callerAddr)

include named

theorem splitBlanks_dumpLine
    : splitBlanks (dumpLine dladdr entry)
      = [callerSym dladdr entry.callerAddr, Nat.toDigits 10 entry.rdt.val,
        Nat.toDigits 10 entry.size.val, Nat.toDigits 16 entry.addr.val,
        str (toInt32 entry.entryType)] := by
  obtain ⟨nonempty, visible⟩ := callerSym_word named
  have decimal (n : Nat) := (visible_toDigits (.inl rfl) n).solid
  have hexadecimal (n : Nat) := (visible_toDigits (.inr rfl) n).solid
  rw [dumpLine, splitBlanks_cons nonempty visible.solid,
    splitBlanks_cons Nat.toDigits_ne_nil (decimal _),
    splitBlanks_cons Nat.toDigits_ne_nil (decimal _),
    splitBlanks_cons Nat.toDigits_ne_nil (hexadecimal _),
    splitBlanks_word (str_ne_nil _) (visible_str _).solid]

/-- A line has no other blanks than those between its columns. -/
theorem mem_dumpLine {c : Char} (member : c ∈ dumpLine dladdr entry)
    : c = ' ' ∨ 0x21 ≤ c.toNat ∧ c.toNat ≤ 0x7e := by
  have visible := (callerSym_word named).2
  simp only [dumpLine, List.mem_append, List.mem_cons] at member
  rcases member with inCaller | blank | inTime | blank | inSize | blank | inAddr | blank | inKind
  · exact .inr (visible c inCaller)
  · exact .inl blank
  · exact .inr (visible_toDigits (.inl rfl) _ c inTime)
  · exact .inl blank
  · exact .inr (visible_toDigits (.inl rfl) _ c inSize)
  · exact .inl blank
  · exact .inr (visible_toDigits (.inr rfl) _ c inAddr)
  · exact .inl blank
  · exact .inr (visible_str _ c inKind)

/-- A line starts and ends with a visible character, and is no comment. -/
theorem strip_dumpLine
    : strip (dumpLine dladdr entry) = dumpLine dladdr entry := by
  obtain ⟨nonempty, visible⟩ := callerSym_word named
  have kind := visible_str (toInt32 entry.entryType)
  refine strip_eq (fun c first => ?_) (fun c last => ?_)
  · obtain ⟨d, rest, column⟩ := List.exists_cons_of_ne_nil nonempty
    rw [dumpLine, column] at first
    obtain rfl := Option.some.inj first
    exact visible.solid _ (by simp [column])
  · obtain ⟨front, end_, digits⟩ :=
      (List.eq_nil_or_concat (str (toInt32 entry.entryType))).resolve_left (str_ne_nil _)
    have split : dumpLine dladdr entry
        = (callerSym dladdr entry.callerAddr ++ ' ' :: (Nat.toDigits 10 entry.rdt.val
          ++ ' ' :: (Nat.toDigits 10 entry.size.val ++ ' ' :: (Nat.toDigits 16 entry.addr.val
          ++ ' ' :: front)))) ++ [end_] := by
      simp [dumpLine, digits]
    have ends : (dumpLine dladdr entry).getLast? = some end_ := by
      rw [split, List.getLast?_concat]
    obtain rfl := Option.some.inj (ends.symm.trans last)
    exact kind.solid _ (by simp [digits])

theorem dumpLine_noComment
    : dumpLine dladdr entry ≠ [] ∧ startsWith (dumpLine dladdr entry) "#".toList = false := by
  cases raw : printsRaw dladdr entry.callerAddr with
  | true =>
      rw [dumpLine, callerSym_raw raw]
      exact ⟨by simp, rfl⟩
  | false =>
      rcases callerSym_other named raw with init | ⟨c, rest, symbol, notComment, -, -⟩
      · rw [dumpLine, init]
        exact ⟨by simp, rfl⟩
      · rw [dumpLine, symbol]
        exact ⟨by simp, startsWith_other (Ne.symm notComment) _ _⟩

theorem loadProfLine_dumpLine
    : loadProfLine (dumpLine dladdr entry) = some (profRecord dladdr entry) := by
  obtain ⟨nonempty, noComment⟩ := dumpLine_noComment named
  have reads : ¬ (dumpLine dladdr entry = []
      ∨ startsWith (dumpLine dladdr entry) "#".toList = true) := by
    rw [noComment]
    exact fun stops => stops.elim nonempty Bool.false_ne_true
  unfold loadProfLine
  rw [strip_dumpLine named]
  dsimp only
  rw [if_neg reads, splitBlanks_dumpLine named]
  dsimp only
  rw [parseInt_toDigits, parseInt_toDigits, parseInt_hexDigits, parseInt_str,
    loadCallerAddr_callerSym named]
  rfl

omit named

/-- Every entry of the logs comes back, in order. -/
theorem loadProfLog_dumps {logs : List (List LogEntry)}
    (named : ∀ entry ∈ logs.flatten, Named dladdr entry.callerAddr)
    : loadProfLog (logs.flatMap (dumpLog dladdr)) = logs.flatten.map (profRecord dladdr) := by
  have text : logs.flatMap (dumpLog dladdr) = unlines (logs.flatten.map (dumpLine dladdr)) := by
    clear named
    induction logs with
    | nil => rfl
    | cons log logs ih =>
        rw [List.flatMap_cons, ih, List.flatten_cons, List.map_append, unlines_append, dumpLog]
  have plain : ∀ line ∈ logs.flatten.map (dumpLine dladdr), '\n' ∉ line := by
    intro line inLines member
    obtain ⟨entry, inLogs, rfl⟩ := List.mem_map.mp inLines
    exact absurd (mem_dumpLine (named entry inLogs) member) (by decide)
  have noReturn : '\r' ∉ unlines (logs.flatten.map (dumpLine dladdr)) := by
    intro member
    obtain ⟨line, inLines, inLine⟩ := List.mem_flatMap.mp member
    obtain ⟨entry, inLogs, rfl⟩ := List.mem_map.mp inLines
    rcases List.mem_append.mp inLine with inColumns | newline
    · exact absurd (mem_dumpLine (named entry inLogs) inColumns) (by decide)
    · exact absurd (List.mem_singleton.mp newline) (by decide)
  have each : (logs.flatten.map (dumpLine dladdr)).filterMap loadProfLine
      = logs.flatten.map (profRecord dladdr) := by
    rw [List.filterMap_map]
    refine (List.filterMap_congr
      (fun entry inLogs => loadProfLine_dumpLine (named entry inLogs))).trans ?_
    exact congrFun List.filterMap_eq_map _
  have empty : [[]].filterMap loadProfLine = [] := rfl
  rw [loadProfLog, text, universalNewlines_eq noReturn, splitOn_unlines plain,
    List.filterMap_append, each, empty, List.append_nil]

end

/-- Whatever the order of the logs, every entry comes back with its printed fields. Its caller
address is the raw one exactly when that is printed or `NULL`, and 0 when it is not printed.
-/
theorem loadProfLog_order (dladdr : Dladdr) (logs order : List (List LogEntry))
    (named : ∀ log ∈ logs, ∀ entry ∈ log, Named dladdr entry.callerAddr)
    (reordered : order.Perm logs)
    : loadProfLog (order.flatMap (dumpLog dladdr)) = order.flatten.map (profRecord dladdr)
      ∧ ∀ entry : LogEntry,
        ((profRecord dladdr entry).callerAddr = entry.callerAddr.val
            ↔ printsRaw dladdr entry.callerAddr = true ∨ entry.callerAddr = 0)
        ∧ (printsRaw dladdr entry.callerAddr = false
            → (profRecord dladdr entry).callerAddr = 0)
        ∧ (-2 ^ 31 ≤ entry.entryType
            → entry.entryType < 2 ^ 31
            → (profRecord dladdr entry).entryType = entry.entryType) := by
  constructor
  · refine loadProfLog_dumps (fun entry member => ?_)
    obtain ⟨log, inOrder, inLog⟩ := List.mem_flatten.mp member
    exact named log (reordered.mem_iff.mp inOrder) entry inLog
  · intro entry
    refine ⟨?_, fun notRaw => by simp [profRecord, notRaw], toInt32_eq⟩
    rw [profRecord]
    cases raw : printsRaw dladdr entry.callerAddr with
    | true => simp
    | false =>
        have zero : entry.callerAddr = 0 ↔ (0 : Int) = entry.callerAddr.val := by
          rw [Fin.ext_iff]
          change entry.callerAddr.val = 0 ↔ _
          omega
        simpa using zero.symm

/-- A program whose only symbol is `main`. -/
def mainOnly : Dladdr := fun callerAddr =>
  if callerAddr = 0x400ab0 then some ("main".toList, 0x400a7c) else none

/-- A block from `main`, and one from code without symbols. -/
def fromMain : LogEntry := ⟨12345678, 0x400003ab9000, 209715200, 1, 0x400ab0⟩

def fromStripped : LogEntry := ⟨12345680, 0x40000fc60000, 52428800, 134, 0x400003ab9ad0⟩

/-- A `free` in a log buffer that was zero. -/
def freed : LogEntry := ⟨12345690, 0x400003ab9000, 0, 2, 0⟩

theorem named_mainOnly (callerAddr : Word) : Named mainOnly callerAddr := by
  intro symbol found
  unfold mainOnly at found
  split at found
  case isTrue =>
      rw [← Option.some.inj found]
      exact ⟨by simp, by simp, by simp⟩
  case isFalse => cases found

theorem loadProfLog_order_twoThreads
    : loadProfLog (([[fromStripped, freed], [fromMain]]).flatMap (dumpLog mainOnly))
      = ([[fromStripped, freed], [fromMain]]).flatten.map (profRecord mainOnly) :=
  (loadProfLog_order mainOnly [[fromMain], [fromStripped, freed]] _
    (fun _ _ entry _ => named_mainOnly entry.callerAddr) (List.Perm.swap _ _ _)).1

/-- An entry without a caller is printed as `[init]`, and still reads as its raw address. -/
theorem nullCaller_readsAsRaw
    : loadProfLog (dumpLog mainOnly [freed]) = [profRecord mainOnly freed]
      ∧ (profRecord mainOnly freed).callerSym = "[init]".toList
      ∧ printsRaw mainOnly freed.callerAddr = false
      ∧ (profRecord mainOnly freed).callerAddr = freed.callerAddr.val := by
  decide +kernel

end Kumf.PacToInterc
