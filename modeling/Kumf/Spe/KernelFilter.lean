import Kumf.Spe.Scoring

/-! The kernel filter of `_flush_sample` against the addresses behind the literals: it looks at the
first digits, and bit 63 is a matter of the first digit and of their number.
-/

namespace Kumf.Spe

open Kumf.Library PyText

/-- A sample has been counted once on a page, and nowhere else. -/
structure CountedAt (sample : Sample) (page : Nat) (before after : StatsTable) : Prop where
  own
    : after.get? (hex page)
      = some (((before.get? (hex page)).getD PageStats.zero).combine sample.contribution)
  others : ∀ key, key ≠ hex page → after.get? key = before.get? key

/-- The samples at an address count on its page if the address is in the user half. -/
structure CountsByHalf (va : List Char) (address : Nat) : Prop where
  kernel
    : 2 ^ 63 ≤ address
      → ∀ sample : Sample,
          sample.va = some va → ∀ pageStats, flushSample sample pageStats = pageStats
  user
    : address < 2 ^ 63
      → ∀ sample : Sample,
          sample.va = some va
          → ∀ pageStats,
              CountedAt sample (address / 4096 * 4096) pageStats (flushSample sample pageStats)

-----------------------------------------------------------------------------------------
-- What the digits of a literal say
-----------------------------------------------------------------------------------------

/-- The digits that the filter looks for. -/
def FrontOfFs (digits : List Char) : Prop :=
  digits.take 4 = "ffff".toList ∨ digits.take 4 = "FFFF".toList

/-- Sixteen digits, the first one with the highest bit. -/
def TopBit (digits : List Char) : Prop :=
  digits.length = 16 ∧ ∃ c ∈ digits.head?, 8 ≤ digitValue c

instance (digits : List Char) : Decidable (FrontOfFs digits) :=
  inferInstanceAs (Decidable (_ ∨ _))

instance (digits : List Char) : Decidable (TopBit digits) :=
  inferInstanceAs (Decidable (_ ∧ ∃ c ∈ digits.head?, 8 ≤ digitValue c))

theorem isKernel_iff (digits : List Char)
    : isKernel ("0x".toList ++ digits) = true ↔ FrontOfFs digits := by
  have front {letters : List Char} (four : letters.length = 4)
      : startsWith ("0x".toList ++ digits) ("0x".toList ++ letters) = true
        ↔ digits.take 4 = letters := by
    rw [startsWith, List.isPrefixOf_iff_prefix, List.prefix_append_right_inj,
      List.prefix_iff_eq_take, four, eq_comm]
  have lower : "0xffff".toList = "0x".toList ++ "ffff".toList := rfl
  have upper : "0xFFFF".toList = "0x".toList ++ "FFFF".toList := rfl
  rw [isKernel, Bool.or_eq_true, lower, upper, front rfl, front rfl]
  rfl

/-- Of at most sixteen digits. -/
theorem upperHalf_iff {digits : List Char} (valid : ∀ c ∈ digits, isHex c = true)
    (short : digits.length ≤ 16)
    : 2 ^ 63 ≤ numeralValue 16 digits ↔ TopBit digits := by
  cases digits with
  | nil =>
      refine iff_of_false (by simp [numeralValue_nil]) ?_
      rintro ⟨none, _⟩
      cases none
  | cons c rest =>
      have whole := numeralValue_lt valid
      have behind := numeralValue_lt (fun d member => valid d (List.mem_cons_of_mem c member))
      have value : numeralValue 16 (c :: rest)
          = 16 ^ rest.length * digitValue c + numeralValue 16 rest := by
        have parts := numeralValue_append 16 [c] rest
        simpa [numeralValue] using parts
      have first
        : (∃ d ∈ (c :: rest).head?, 8 ≤ digitValue d) ↔ 8 ≤ digitValue c := by simp
      rw [TopBit, first]
      rw [List.length_cons] at short whole ⊢
      rcases Nat.lt_or_ge rest.length 15 with fewer | all
      · have below : 16 ^ (rest.length + 1) ≤ 16 ^ 15 :=
          Nat.pow_le_pow_right (by decide) (by omega)
        omega
      · have fifteen : rest.length = 15 := by omega
        rw [fifteen] at value behind
        omega

/-- A page that a sample is counted on is new or changes. -/
theorem flushSample_counted {sample : Sample} {va : List Char} {address : Nat}
    (carries : sample.va = some va) (read : intHex va = some address)
    (notKernel : ¬ isKernel va = true) (pageStats : StatsTable)
    : CountedAt sample (address / 4096 * 4096) pageStats (flushSample sample pageStats) := by
  have flushed : flushSample sample pageStats
      = pageStats.upsert (hex (address / 4096 * 4096))
          (fun stats => (stats.getD PageStats.zero).addSample sample) := by
    rw [flushSample, carries]
    dsimp only
    rw [if_neg notKernel, read]
  rw [flushed]
  constructor
  case own => rw [Dict.get?_upsert, if_pos rfl, PageStats.addSample_eq]
  case others =>
    intro key other
    rw [Dict.get?_upsert, if_neg other.symm]

theorem flushSample_kernel {sample : Sample} {va : List Char} (carries : sample.va = some va)
    (kernel : isKernel va = true) (pageStats : StatsTable)
    : flushSample sample pageStats = pageStats := by
  rw [flushSample, carries]
  dsimp only
  rw [if_pos kernel]

/-- The samples at a literal that `RE_VA` accepts count by the half of their address exactly if
the four letters stand in front of those sixteen digits that have the highest bit.
-/
theorem countsByHalf_iff {line va : List Char} (accepted : reVa.search line = some va)
    (short : va.length ≤ 18)
    : CountsByHalf va (numeralValue 16 (va.drop 2))
      ↔ (FrontOfFs (va.drop 2) ↔ TopBit (va.drop 2)) := by
  obtain ⟨digits, nonempty, valid, rfl⟩ := exists_digits_of_reVa accepted
  have dropped : ("0x".toList ++ digits).drop 2 = digits := rfl
  have read : intHex ("0x".toList ++ digits) = some (numeralValue 16 digits) := by
    rw [intHex, dropped, if_pos ⟨rfl, nonempty, List.all_eq_true.mpr valid⟩]
  have prefixed : ("0x".toList ++ digits).length = 2 + digits.length := List.length_append
  have half := upperHalf_iff valid (by omega)
  rw [dropped, ← isKernel_iff, ← half]
  constructor
  · intro counts
    let sample : Sample := { va := some ("0x".toList ++ digits) }
    constructor
    · intro kernel
      -- A dropped sample is in no table, so its address must not be a user's.
      by_contra user
      have counted := (counts.user (not_le.mp user) sample rfl .empty).own
      rw [flushSample_kernel rfl kernel] at counted
      cases counted
    · intro upper
      by_contra notKernel
      have counted := (flushSample_counted (rfl : sample.va = _) read notKernel .empty).own
      rw [counts.kernel upper sample rfl] at counted
      cases counted
  · intro agree
    constructor
    case kernel =>
      intro upper sample carries pageStats
      exact flushSample_kernel carries (agree.mpr upper) pageStats
    case user =>
      intro lower sample carries pageStats
      exact flushSample_counted carries read
        (fun kernel => (agree.mp kernel).not_gt lower) pageStats

theorem countsByHalf_iff_stack
    : CountsByHalf "0xfffff7ffe000".toList (numeralValue 16 ("0xfffff7ffe000".toList.drop 2))
      ↔ (FrontOfFs ("0xfffff7ffe000".toList.drop 2)
        ↔ TopBit ("0xfffff7ffe000".toList.drop 2)) :=
  countsByHalf_iff (rfl : reVa.search "VA 0xfffff7ffe000".toList = _) (by decide)

/-- A user address of 48 bits is dropped. -/
theorem stackAddress_dropped
    : reVa.search "VA 0xfffff7ffe000".toList = some "0xfffff7ffe000".toList
      ∧ numeralValue 16 ("0xfffff7ffe000".toList.drop 2) < 2 ^ 63
      ∧ ¬ CountsByHalf "0xfffff7ffe000".toList
          (numeralValue 16 ("0xfffff7ffe000".toList.drop 2)) := by
  refine ⟨rfl, by decide, fun counts => ?_⟩
  have counted := (counts.user (by decide) { va := some "0xfffff7ffe000".toList } rfl .empty).own
  rw [flushSample_kernel rfl (by decide)] at counted
  cases counted

end Kumf.Spe
