import Kumf.Library.Utf8
import Mathlib.Data.Rat.Floor

/-! Python's integers and floats in formatted text. The rounding of floats is left to the
interpreter; exact rationals are one instance.
-/

namespace Kumf.Library

namespace PyText

/-- `str` of an integer. -/
def str (n : Int) : List Char :=
  if n < 0 then '-' :: Nat.toDigits 10 n.natAbs else Nat.toDigits 10 n.natAbs

/-- A number with leading zeros. -/
def padded (width n : Nat) : List Char :=
  List.replicate (width - (Nat.toDigits 10 n).length) '0' ++ Nat.toDigits 10 n

/-- A text that a formatted number can be: ASCII, without a newline. -/
structure Tidy (text : List Char) : Prop where
  ascii : Ascii text
  oneLine : '\n' ∉ text

theorem Tidy.of_check {text : List Char}
    (checked : text.all (fun c => c.toNat ≤ 127 && c ≠ '\n') = true)
    : Tidy text := by
  simp only [List.all_eq_true, Bool.and_eq_true, decide_eq_true_eq] at checked
  exact ⟨fun c member => (checked c member).1, fun member => (checked _ member).2 rfl⟩

theorem Tidy.append {front back : List Char} (left : Tidy front) (right : Tidy back)
    : Tidy (front ++ back) where
  ascii := by
    intro c member
    rcases List.mem_append.mp member with inFront | inBack
    · exact left.ascii c inFront
    · exact right.ascii c inBack
  oneLine := by
    simp [left.oneLine, right.oneLine]

theorem tidy_of_digits {text : List Char} (digits : ∀ c ∈ text, isDigitOf 10 c = true)
    : Tidy text where
  ascii := by
    intro c member
    have range := isDigitOf_ten_iff.mp (digits c member)
    omega
  oneLine := by
    intro member
    exact absurd (digits '\n' member) (by decide)

theorem tidy_toDigits (n : Nat) : Tidy (Nat.toDigits 10 n) :=
  tidy_of_digits (isDigitOf_toDigits (by omega) (by omega) n)

theorem tidy_str (n : Int) : Tidy (str n) := by
  unfold str
  split
  · have sign : Tidy ['-'] := .of_check rfl
    exact sign.append (tidy_toDigits _)
  · exact tidy_toDigits _

theorem mem_str {n : Int} {c : Char} (member : c ∈ str n)
    : isDigitOf 10 c = true ∨ c = '-' := by
  unfold str at member
  split at member
  · rcases List.mem_cons.mp member with sign | digit
    · exact .inr sign
    · exact .inl (isDigitOf_toDigits (by omega) (by omega) _ c digit)
  · exact .inl (isDigitOf_toDigits (by omega) (by omega) _ c member)

theorem str_natCast (n : Nat) : str n = Nat.toDigits 10 n := by
  have nonneg : ¬ (n : Int) < 0 := by omega
  rw [str, if_neg nonneg, Int.natAbs_natCast]

theorem str_ne_nil (n : Int) : str n ≠ [] := by
  unfold str
  split
  · exact List.cons_ne_nil _ _
  · exact List.length_pos_iff.mp Nat.length_toDigits_pos

theorem tidy_padded (width n : Nat) : Tidy (padded width n) := by
  refine Tidy.append (tidy_of_digits ?_) (tidy_toDigits n)
  intro c member
  rw [(List.mem_replicate.mp member).2]
  rfl

end PyText

open PyText

/-- Python's `float`: arithmetic, comparison, and formatting without decimals. -/
class PyFloat (F : Type) where
  /-- A float that holds an integer. -/
  ofNat : Nat → F
  /-- The literal with the given digits behind the point: `decimal 7 1` is `0.7`. -/
  decimal : Nat → Nat → F
  add : F → F → F
  neg : F → F
  /-- `x < y` -/
  less : F → F → Bool
  /-- `x / n` -/
  divide : F → Nat → F
  /-- `m / n` of two integers -/
  quotient : Nat → Nat → F
  /-- `f"{x:.0f}"` -/
  format0 : F → List Char
  /-- Floats print as digits with a sign, or as `inf` or `nan`. -/
  tidy_format0 : ∀ x, Tidy (format0 x)

/-- The nearest integer, the even one of two. -/
def roundHalfEven (x : ℚ) : Int :=
  let low := x.floor
  if x - low < 1 / 2 then low
  else if 1 / 2 < x - low then low + 1
  else if low % 2 = 0 then low
  else low + 1

theorem roundHalfEven_intCast (n : Int) : roundHalfEven n = n := by
  simp [roundHalfEven]

/-- Exact arithmetic. -/
instance : PyFloat ℚ where
  ofNat n := n
  decimal digits places := digits / 10 ^ places
  add x y := x + y
  neg x := -x
  less x y := decide (x < y)
  divide x n := x / n
  quotient m n := m / n
  format0 x := str (roundHalfEven x)
  tidy_format0 _ := tidy_str _

end Kumf.Library
