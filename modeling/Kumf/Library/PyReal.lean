import Kumf.Library.PyFloat
import Mathlib.Data.List.Sort

/-! The numbers of a Python report: products, roundings and columns of floats, values that
are an integer or a float, and grouped digits.
-/

namespace Kumf.Library

namespace PyText

/-- Right alignment in a column, `f"{text:>width}"`. -/
def column (width : Nat) (text : List Char) : List Char :=
  List.replicate (width - text.length) ' ' ++ text

/-- Commas between groups of three digits, read from the last digit. -/
def groupThree : List Char → List Char
  | a :: b :: c :: d :: rest => a :: b :: c :: ',' :: groupThree (d :: rest)
  | short => short

/-- `f"{n:,}"` -/
def grouped (n : Nat) : List Char := (groupThree (Nat.toDigits 10 n).reverse).reverse

/-- `text * n` -/
def times (text : List Char) (n : Int) : List Char := (List.replicate n.toNat text).flatten

end PyText

open PyText

/-- What reports and thresholds need of Python's `float`. -/
class PyReal (F : Type) extends PyFloat F where
  mul : F → F → F
  /-- `x >= y` -/
  atLeast : F → F → Bool
  /-- `n >= x` of an integer and a float -/
  reaches : Nat → F → Bool
  /-- `round(x, 1)` -/
  round1 : F → F
  /-- `int(x)` -/
  truncate : F → Int
  /-- `str(x)` -/
  repr : F → List Char
  /-- `f"{x:.1f}"` -/
  format1 : F → List Char

/-- The digits of a number of tenths. -/
def tenths (n : Int) : List Char :=
  (if n < 0 then ['-'] else []) ++ Nat.toDigits 10 (n.natAbs / 10) ++ '.'
    :: Nat.toDigits 10 (n.natAbs % 10)

/-- Exact arithmetic, printed with one decimal. -/
instance : PyReal ℚ where
  mul x y := x * y
  atLeast x y := decide (y ≤ x)
  reaches n x := decide (x ≤ n)
  round1 x := roundHalfEven (10 * x) / 10
  truncate x := if x < 0 then ⌈x⌉ else ⌊x⌋
  repr x := tenths (roundHalfEven (10 * x))
  format1 x := tenths (roundHalfEven (10 * x))

/-- A NaN is not even at least itself. -/
def isNan {F : Type} [PyReal F] (x : F) : Bool := !PyReal.atLeast x x

/-- How Python's floats compare: a NaN not at all, two other floats in exactly one way. -/
structure FloatOrder (F : Type) [PyReal F] : Prop where
  nan
    : ∀ x y : F,
        isNan x = true ∨ isNan y = true
        → PyFloat.less x y = false ∧ PyReal.atLeast x y = false
  number
    : ∀ x y : F,
        isNan x = false → isNan y = false → PyReal.atLeast x y = !PyFloat.less x y

theorem floatOrder_rat : FloatOrder ℚ where
  nan x y someNan := by
    simp [isNan, PyReal.atLeast] at someNan
  number x y _ _ := by
    simp [PyReal.atLeast, PyFloat.less, ← not_lt]

/-- Floats none of which is a NaN: comparing them puts them into an order. -/
structure Comparable {F : Type} [PyFloat F] (numbers : List F) : Prop where
  total
    : ∀ x ∈ numbers, ∀ y ∈ numbers, PyFloat.less x y = false ∨ PyFloat.less y x = false
  trans
    : ∀ x ∈ numbers, ∀ y ∈ numbers, ∀ z ∈ numbers,
        PyFloat.less x y = false → PyFloat.less y z = false → PyFloat.less x z = false

theorem comparable_rat (numbers : List ℚ) : Comparable numbers where
  total x _ y _ := by
    simp only [PyFloat.less, decide_eq_false_iff_not, not_lt]
    exact le_total y x
  trans x _ y _ z _ := by
    simp only [PyFloat.less, decide_eq_false_iff_not, not_lt]
    exact fun first second => second.trans first

/-- A stable sort by comparable keys puts the largest one first. -/
theorem Comparable.pairwise_sorted {F α : Type} [PyFloat F] {items : List α} {key : α → F}
    (comparable : Comparable (items.map key))
    : (items.insertionSort (fun x y => PyFloat.less (key x) (key y) = false)).Pairwise
        (fun x y => PyFloat.less (key x) (key y) = false) := by
  let order (x y : { item // item ∈ items }) : Prop := PyFloat.less (key x) (key y) = false
  have listed (x : { item // item ∈ items }) : key x ∈ items.map key :=
    List.mem_map_of_mem x.property
  have total : Std.Total order :=
    ⟨fun x y => comparable.total _ (listed x) _ (listed y)⟩
  have trans : IsTrans _ order :=
    ⟨fun x y z => comparable.trans _ (listed x) _ (listed y) _ (listed z)⟩
  have sorted := List.pairwise_insertionSort order items.attach
  -- the order is one on the items only, so the sort is seen as a sort of the members
  have same := List.map_insertionSort order
    (fun x y => PyFloat.less (key x) (key y) = false) Subtype.val items.attach
    (fun x _ y _ => Iff.rfl)
  rw [List.attach_map_subtype_val] at same
  rw [← same]
  exact List.pairwise_map.mpr sorted

/-- A stable sort by keys that are all comparable puts the smallest one first. -/
theorem pairwise_sortedBy {α β : Type} [LinearOrder β] (key : α → β) (items : List α)
    : (items.insertionSort (fun x y => key x ≤ key y)).Pairwise (fun x y => key x ≤ key y) := by
  have total : Std.Total (fun x y : α => key x ≤ key y) :=
    ⟨fun x y => le_total (key x) (key y)⟩
  have trans : IsTrans α (fun x y => key x ≤ key y) :=
    ⟨fun _ _ _ first second => first.trans second⟩
  exact List.pairwise_insertionSort _ items

/-- Division of one float by another. -/
class PyDivision (F : Type) extends PyReal F where
  /-- `x / y`; `none` is a `ZeroDivisionError` -/
  div : F → F → Option F

instance : PyDivision ℚ where
  div x y := if y = 0 then none else some (x / y)

/-- A Python value that is an integer or a float. -/
inductive Number (F : Type) where
  | int (n : Nat)
  | float (x : F)
  deriving DecidableEq, Repr

namespace Number

variable {F : Type} [PyReal F]

/-- The value in comparisons and formats of floats. -/
def toFloat : Number F → F
  | .int n => PyFloat.ofNat n
  | .float x => x

/-- `str` -/
def text : Number F → List Char
  | .int n => Nat.toDigits 10 n
  | .float x => PyReal.repr x

end Number

end Kumf.Library
