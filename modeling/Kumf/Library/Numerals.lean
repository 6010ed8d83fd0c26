import Mathlib.Data.List.Induction
import Mathlib.Tactic.IntervalCases
import Mathlib.Tactic.Ring

/-! Positional numerals as character lists: digit values, the value of a digit list, and
the digit lists that print a number. Readers and printers of numbers share these facts.
-/

namespace Kumf.Library

/-- The value of a digit character, letters counting on from ten; 36 for a non-digit. -/
def digitValue (c : Char) : Nat :=
  if 48 ≤ c.toNat ∧ c.toNat ≤ 57 then c.toNat - 48
  else if 97 ≤ c.toNat ∧ c.toNat ≤ 122 then c.toNat - 87
  else if 65 ≤ c.toNat ∧ c.toNat ≤ 90 then c.toNat - 55
  else 36

def isDigitOf (base : Nat) (c : Char) : Bool := digitValue c < base

theorem isDigitOf_ten_iff {c : Char}
    : isDigitOf 10 c = true ↔ 48 ≤ c.toNat ∧ c.toNat ≤ 57 := by
  rw [isDigitOf, decide_eq_true_iff, digitValue]
  split
  case isTrue decimal =>
      constructor
      · intro _
        exact decimal
      · intro _
        omega
  case isFalse other =>
      constructor
      · intro small
        split at small
        · omega
        · split at small <;> omega
      · intro decimal
        exact absurd decimal other

/-- The number that a digit list denotes, most significant digit first. -/
def numeralValue (base : Nat) (digits : List Char) : Nat :=
  digits.foldl (fun value c => base * value + digitValue c) 0

/-- A nonempty list of digits of the given base, leading zeros allowed. -/
structure Numeral (base : Nat) where
  digits : List Char
  nonempty : digits ≠ []
  valid : ∀ c ∈ digits, isDigitOf base c = true

def Numeral.value {base : Nat} (numeral : Numeral base) : Nat :=
  numeralValue base numeral.digits

@[simp] theorem numeralValue_nil (base : Nat) : numeralValue base [] = 0 := rfl

theorem numeralValue_concat (base : Nat) (digits : List Char) (c : Char)
    : numeralValue base (digits ++ [c]) = base * numeralValue base digits + digitValue c := by
  simp [numeralValue]

theorem numeralValue_append (base : Nat) (front back : List Char)
    : numeralValue base (front ++ back)
      = base ^ back.length * numeralValue base front + numeralValue base back := by
  induction back using List.reverseRecOn with
  | nil => simp
  | append_singleton back c ih =>
      rw [← List.append_assoc, numeralValue_concat, ih, numeralValue_concat,
        List.length_append, List.length_singleton, pow_succ]
      ring

theorem numeralValue_lt {base : Nat} {digits : List Char}
    (valid : ∀ c ∈ digits, isDigitOf base c = true)
    : numeralValue base digits < base ^ digits.length := by
  induction digits using List.reverseRecOn with
  | nil => simp
  | append_singleton digits c ih =>
      have front := ih (fun d member => valid d (List.mem_append_left _ member))
      have last : digitValue c < base := by
        simpa [isDigitOf] using valid c (by simp)
      have scaled : base * (numeralValue base digits + 1) ≤ base * base ^ digits.length :=
        Nat.mul_le_mul_left base front
      rw [numeralValue_concat, List.length_append, List.length_singleton, pow_succ,
        Nat.mul_comm (base ^ digits.length)]
      rw [Nat.mul_add, Nat.mul_one] at scaled
      omega

/-- Keeping the leading digits divides by the weight of the dropped ones. -/
theorem numeralValue_take {base : Nat} {digits : List Char} (count : Nat)
    (valid : ∀ c ∈ digits, isDigitOf base c = true)
    : numeralValue base (digits.take count)
      = numeralValue base digits / base ^ (digits.drop count).length := by
  have dropped : numeralValue base (digits.drop count)
      < base ^ (digits.drop count).length :=
    numeralValue_lt (fun c member => valid c (List.mem_of_mem_drop member))
  conv_rhs => rw [← List.take_append_drop count digits, numeralValue_append]
  simp only [List.take_append_drop]
  rw [Nat.mul_add_div (by omega), Nat.div_eq_of_lt dropped, Nat.add_zero]

theorem digitValue_digitChar {n : Nat} (small : n < 16) : digitValue n.digitChar = n := by
  interval_cases n <;> rfl

theorem isDigitOf_digitChar {base n : Nat} (bound : base ≤ 16) (digit : n < base)
    : isDigitOf base n.digitChar = true := by
  simp [isDigitOf, digitValue_digitChar (Nat.lt_of_lt_of_le digit bound), digit]

theorem isDigitOf_toDigits {base : Nat} (large : 1 < base) (bound : base ≤ 16) (n : Nat)
    : ∀ c ∈ Nat.toDigits base n, isDigitOf base c = true := by
  induction n using Nat.strongRecOn with
  | ind n ih =>
      rw [Nat.toDigits_eq_if large]
      split
      case isTrue digit => simpa using isDigitOf_digitChar bound digit
      case isFalse big =>
          intro c member
          rcases List.mem_append.mp member with front | last
          · exact ih (n / base) (Nat.div_lt_self (by omega) large) c front
          · rw [List.mem_singleton.mp last]
            exact isDigitOf_digitChar bound (Nat.mod_lt n (by omega))

/-- Reading a printed number gives it back, by recursion on the quotient. -/
@[simp] theorem numeralValue_toDigits {base : Nat} (large : 1 < base) (bound : base ≤ 16)
    (n : Nat)
    : numeralValue base (Nat.toDigits base n) = n := by
  induction n using Nat.strongRecOn with
  | ind n ih =>
      rw [Nat.toDigits_eq_if large]
      split
      case isTrue digit =>
          simpa [numeralValue] using digitValue_digitChar (Nat.lt_of_lt_of_le digit bound)
      case isFalse big =>
          rw [numeralValue_concat, ih (n / base) (Nat.div_lt_self (by omega) large),
            digitValue_digitChar (Nat.lt_of_lt_of_le (Nat.mod_lt n (by omega)) bound)]
          exact Nat.div_add_mod n base

/-- Distinct numbers print differently, since the printed digits determine the value. -/
theorem toDigits_injective {base : Nat} (large : 1 < base) (bound : base ≤ 16)
    : Function.Injective (Nat.toDigits base) := by
  intro left right same
  rw [← numeralValue_toDigits large bound left, same, numeralValue_toDigits large bound]

def Numeral.dec (n : Nat) : Numeral 10 where
  digits := Nat.toDigits 10 n
  nonempty := Nat.toDigits_ne_nil
  valid := isDigitOf_toDigits (by omega) (by omega) n

@[simp] theorem Numeral.value_dec (n : Nat) : (Numeral.dec n).value = n :=
  numeralValue_toDigits (by omega) (by omega) n

end Kumf.Library
