import Kumf.Library.PyLines

/-! The allocation log of the prof library, and the text that `prof_cleanup` writes for it. -/

namespace Kumf.Prof

open Kumf.Library PyText

/-- A 64-bit word: a pointer, a `size_t` or a timestamp. -/
abbrev Word := Fin (2 ^ 64)

instance wordNonzero : NeZero (2 ^ 64) := ⟨by decide⟩

/-- The fields of `struct log` that are printed. -/
structure LogEntry where
  rdt : Word
  addr : Word
  size : Word
  entryType : Int
  callerAddr : Word
  deriving DecidableEq, Repr

/-- `dladdr`: the name and the start of the symbol that an address belongs to. -/
abbrev Dladdr := Word → Option (List Char × Word)

section
variable (dladdr : Dladdr)

/-- The test for a caller address that was set, in front of `dladdr`. -/
def hasCaller (callerAddr : Word) : Bool := callerAddr ≠ 0 && callerAddr ≠ -1

/-- Whether the caller is printed as a raw address. -/
def printsRaw (callerAddr : Word) : Bool := hasCaller callerAddr && (dladdr callerAddr).isNone

/-- `caller_sym` -/
def callerSym (callerAddr : Word) : List Char :=
  if hasCaller callerAddr then
    match dladdr callerAddr with
    | some (name, start) =>
        snprintf 128 (name ++ "+0x".toList ++ Nat.toDigits 16 (callerAddr - start).val)
    | none => snprintf 128 ('[' :: hex callerAddr.val ++ [']'])
  else
    snprintf 128 "[init]".toList

/-- The line of an entry, without its newline. -/
def dumpLine (entry : LogEntry) : List Char :=
  callerSym dladdr entry.callerAddr ++ ' ' :: (Nat.toDigits 10 entry.rdt.val
    ++ ' ' :: (Nat.toDigits 10 entry.size.val ++ ' ' :: (Nat.toDigits 16 entry.addr.val
    ++ ' ' :: str (toInt32 entry.entryType))))

/-- What `prof_cleanup` writes for the log of a thread. -/
def dumpLog (entries : List LogEntry) : List Char := unlines (entries.map (dumpLine dladdr))

end

/-- A symbol name that keeps the columns of the log apart: printable ASCII without blanks that
does not look like a comment or an address.
-/
structure SymbolName (name : List Char) : Prop where
  nonempty : name ≠ []
  printable : ∀ c ∈ name, 0x21 ≤ c.toNat ∧ c.toNat ≤ 0x7e
  first : ∀ c ∈ name.head?, c ≠ '#' ∧ c ≠ '['

/-- If an address belongs to a symbol, the symbol has such a name. -/
def Named (dladdr : Dladdr) (callerAddr : Word) : Prop :=
  ∀ symbol, dladdr callerAddr = some symbol → SymbolName symbol.1

-----------------------------------------------------------------------------------------
-- The first column
-----------------------------------------------------------------------------------------

/-- A text of visible ASCII characters. -/
def Visible (text : List Char) : Prop := ∀ c ∈ text, 0x21 ≤ c.toNat ∧ c.toNat ≤ 0x7e

theorem Visible.append {front back : List Char} (left : Visible front) (right : Visible back)
    : Visible (front ++ back) :=
  List.forall_mem_append.mpr ⟨left, right⟩

theorem Visible.solid {text : List Char} (visible : Visible text)
    : ∀ c ∈ text, isSpace c = false := by
  intro c member
  have range := visible c member
  simp only [isSpace, Bool.or_eq_false_iff, Bool.and_eq_false_iff, decide_eq_false_iff_not]
  omega

theorem visible_toDigits {base : Nat} (bound : base = 10 ∨ base = 16) (n : Nat)
    : Visible (Nat.toDigits base n) := by
  intro c member
  have digit : isDigitOf 16 c = true := by
    rcases bound with rfl | rfl
    · exact isDigitOf_hex_of_ten (isDigitOf_toDigits (by omega) (by omega) n c member)
    · exact isDigitOf_toDigits (by omega) (by omega) n c member
  have range := isDigitOf_hex digit
  omega

theorem visible_hex (n : Nat) : Visible (hex n) := by
  have front : Visible "0x".toList := by simp [Visible]
  exact front.append (visible_toDigits (.inr rfl) n)

/-- A raw address fits the buffer of the column. -/
theorem callerSym_raw {dladdr : Dladdr} {callerAddr : Word}
    (raw : printsRaw dladdr callerAddr = true)
    : callerSym dladdr callerAddr = '[' :: hex callerAddr.val ++ [']'] := by
  obtain ⟨present, unresolved⟩ := Bool.and_eq_true_iff.mp raw
  have digits : (Nat.toDigits 16 callerAddr.val).length ≤ 16 :=
    (Nat.length_toDigits_le_iff (by omega) (by omega)).mpr callerAddr.isLt
  have fits : ('[' :: hex callerAddr.val ++ [']']).length < 128 := by
    rw [List.length_append, List.length_cons, hex, List.length_append]
    change 2 + _ + 1 + 1 < 128
    omega
  rw [callerSym, if_pos present, Option.isNone_iff_eq_none.mp unresolved]
  exact snprintf_eq fits

/-- Every other column starts with a letter of a symbol, or is the mark of a missing caller. -/
theorem callerSym_other {dladdr : Dladdr} {callerAddr : Word} (named : Named dladdr callerAddr)
    (notRaw : printsRaw dladdr callerAddr = false)
    : callerSym dladdr callerAddr = "[init]".toList
      ∨ ∃ c rest,
        callerSym dladdr callerAddr = c :: rest
        ∧ c ≠ '#'
        ∧ c ≠ '['
        ∧ Visible (c :: rest) := by
  rw [callerSym]
  split
  case isFalse => exact .inl rfl
  case isTrue present =>
      cases found : dladdr callerAddr with
      | none => simp [printsRaw, present, found] at notRaw
      | some symbol =>
          obtain ⟨name, start⟩ := symbol
          have symbolName : SymbolName name := named _ found
          obtain ⟨c, rest, rfl⟩ := List.exists_cons_of_ne_nil symbolName.nonempty
          obtain ⟨notComment, notBracket⟩ := symbolName.first c rfl
          have sign : Visible "+0x".toList := by simp [Visible]
          have visible : Visible (c :: rest ++ "+0x".toList
              ++ Nat.toDigits 16 (callerAddr - start).val) :=
            (Visible.append symbolName.printable sign).append (visible_toDigits (.inr rfl) _)
          refine .inr ⟨c, _, rfl, notComment, notBracket, ?_⟩
          exact fun d member => visible d (List.mem_of_mem_take (i := 127) member)

/-- The column is one visible word. -/
theorem callerSym_word {dladdr : Dladdr} {callerAddr : Word} (named : Named dladdr callerAddr)
    : callerSym dladdr callerAddr ≠ [] ∧ Visible (callerSym dladdr callerAddr) := by
  cases raw : printsRaw dladdr callerAddr with
  | true =>
      rw [callerSym_raw raw]
      have front : Visible ['['] := by simp [Visible]
      have back : Visible [']'] := by simp [Visible]
      exact ⟨by simp, (front.append (visible_hex _)).append back⟩
  | false =>
      rcases callerSym_other named raw with init | ⟨c, rest, symbol, -, -, visible⟩
      · rw [init]
        exact ⟨by simp, by simp [Visible]⟩
      · rw [symbol]
        exact ⟨by simp, visible⟩

end Kumf.Prof
