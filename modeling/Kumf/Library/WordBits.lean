import Mathlib.Data.List.Basic

/-! Bits of a 64-bit machine word: a shift takes its count modulo the word size, and OR collects
what its parts set.
-/

namespace Kumf.Library

/-- `value << count` as the machine shifts a 64-bit word. -/
def shiftWord (value : BitVec 64) (count : Int) : BitVec 64 := value <<< (count % 64).toNat

/-- `1UL << count` -/
def bitAt (count : Int) : BitVec 64 := shiftWord 1#64 count

/-- The count of a shift within the word is taken as it is. -/
theorem shiftWord_getLsbD {count i : Nat} (value : BitVec 64) (inside : count < 64)
    : (shiftWord value count).getLsbD i = true
      ↔ i < 64 ∧ count ≤ i ∧ value.getLsbD (i - count) = true := by
  have index : ((count : Int) % 64).toNat = count := by omega
  rw [shiftWord, index, BitVec.getLsbD_shiftLeft]
  simp only [Bool.and_eq_true, Bool.not_eq_true', decide_eq_true_eq, decide_eq_false_iff_not,
    Nat.not_lt, and_assoc]

theorem bitAt_getLsbD (count : Int) (i : Nat)
    : (bitAt count).getLsbD i = true ↔ (i : Int) = count % 64 := by
  rw [bitAt, shiftWord, BitVec.getLsbD_shiftLeft, BitVec.getLsbD_one]
  simp only [Bool.and_eq_true, Bool.not_eq_true', decide_eq_true_eq, decide_eq_false_iff_not]
  omega

/-- OR over a list sets the bits that the start or some member sets. -/
theorem foldl_or_getLsbD {α : Type} (word : α → BitVec 64) (items : List α) (start : BitVec 64)
    (i : Nat)
    : (items.foldl (fun all item => all ||| word item) start).getLsbD i = true
      ↔ start.getLsbD i = true ∨ ∃ item ∈ items, (word item).getLsbD i = true := by
  induction items generalizing start with
  | nil => simp
  | cons item items ih =>
      rw [List.foldl_cons, ih, BitVec.getLsbD_or, Bool.or_eq_true, or_assoc]
      simp only [List.mem_cons, exists_eq_or_imp]

end Kumf.Library
