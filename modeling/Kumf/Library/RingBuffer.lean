import Mathlib.Algebra.Group.Nat.Defs
import Mathlib.Logic.Function.Basic

/-! A ring buffer under two counters that never wrap: an item at a position lies at the position
modulo the size. What is stored from the tail to the head is a queue, first in and first out.
-/

namespace Kumf.Library

-----------------------------------------------------------------------------------------
-- Rings
-----------------------------------------------------------------------------------------

namespace Ring

variable {α : Type} (size : Nat)

/-- Items from a position on, each in its place modulo the size. -/
def store (ring : Nat → α) (position : Nat) : List α → Nat → α
  | [] => ring
  | item :: items => store (Function.update ring (position % size) item) (position + 1) items

/-- The items stand in the ring from a position on. -/
def Holds (ring : Nat → α) (position : Nat) (items : List α) : Prop :=
  ∀ i item, items[i]? = some item → ring ((position + i) % size) = item

variable {size} {ring : Nat → α} {position : Nat} {items older newer : List α}

theorem Holds.front (holds : Holds size ring position (older ++ newer))
    : Holds size ring position older := by
  intro i item found
  refine holds i item ?_
  rw [List.getElem?_append_left (List.getElem?_eq_some_iff.mp found).1]
  exact found

theorem Holds.back (holds : Holds size ring position (older ++ newer))
    : Holds size ring (position + older.length) newer := by
  intro i item found
  have moved := holds (older.length + i) item (by
    rw [List.getElem?_append_right (Nat.le_add_right _ _), Nat.add_sub_cancel_left]
    exact found)
  rwa [← Nat.add_assoc] at moved

theorem Holds.append (first : Holds size ring position older)
    (second : Holds size ring (position + older.length) newer)
    : Holds size ring position (older ++ newer) := by
  intro i item found
  rcases Nat.lt_or_ge i older.length with inFront | inBack
  · rw [List.getElem?_append_left inFront] at found
    exact first i item found
  · rw [List.getElem?_append_right inBack] at found
    have moved := second (i - older.length) item found
    rwa [Nat.add_assoc, Nat.add_sub_cancel' inBack] at moved

/-- Two positions less than a round apart have different places. -/
theorem place_ne {p q : Nat} (before : p < q) (near : q < p + size) : q % size ≠ p % size := by
  intro same
  have divides : size ∣ q - p := Nat.dvd_of_mod_eq_zero (Nat.sub_mod_eq_zero_of_mod_eq same)
  have long := Nat.le_of_dvd (by omega) divides
  omega

/-- A place that no item takes keeps what it has. -/
theorem store_other {place : Nat}
    (other : ∀ i < items.length, (position + i) % size ≠ place)
    : store size ring position items place = ring place := by
  induction items generalizing ring position with
  | nil => rfl
  | cons item items ih =>
      have here := other 0 (Nat.succ_pos _)
      rw [Nat.add_zero] at here
      rw [store, ih]
      · exact Function.update_of_ne here.symm _ _
      · intro i inside
        have later := other (i + 1) (Nat.succ_lt_succ inside)
        rwa [Nat.add_right_comm, Nat.add_assoc]

/-- What is stored stands there, by induction on the items. -/
theorem holds_store (fits : items.length ≤ size)
    : Holds size (store size ring position items) position items := by
  induction items generalizing ring position with
  | nil => exact nofun
  | cons item items ih =>
      rw [List.length_cons] at fits
      intro i other found
      rw [store]
      cases i with
      | zero =>
          rw [List.getElem?_cons_zero, Option.some.injEq] at found
          rw [store_other]
          · rw [Nat.add_zero, Function.update_self, found]
          · intro j inside
            exact place_ne (by omega) (by omega)
      | succ i =>
          rw [List.getElem?_cons_succ] at found
          have rest : Holds size
              (store size (Function.update ring (position % size) item) (position + 1) items)
              (position + 1) items :=
            ih (by omega)
          have moved := rest i other found
          rwa [Nat.add_assoc, Nat.add_comm 1 i] at moved

/-- What fits into the ring together with older items leaves these alone. -/
theorem Holds.store (holds : Holds size ring position older)
    (fits : older.length + newer.length ≤ size)
    : Holds size (store size ring (position + older.length) newer) position (older ++ newer) := by
  refine Holds.append (fun i item found => ?_) (holds_store (by omega))
  have inside := (List.getElem?_eq_some_iff.mp found).1
  rw [store_other]
  · exact holds i item found
  · intro j inBack
    exact place_ne (by omega) (by omega)

end Ring

-----------------------------------------------------------------------------------------
-- Numbers in bytes
-----------------------------------------------------------------------------------------

/-- The bytes of a number, the lowest one first. -/
def littleEndian : Nat → Nat → List UInt8
  | 0, _ => []
  | count + 1, n => UInt8.ofNat (n % 256) :: littleEndian count (n / 256)

/-- The number in some bytes of a memory. -/
def readLittle (memory : Nat → UInt8) (address : Nat) : Nat → Nat
  | 0 => 0
  | count + 1 => (memory address).toNat + 256 * readLittle memory (address + 1) count

@[simp] theorem length_littleEndian (count n : Nat) : (littleEndian count n).length = count := by
  induction count generalizing n with
  | zero => rfl
  | succ count ih => rw [littleEndian, List.length_cons, ih]

/-- Reading the bytes of a number gives it back. -/
theorem readLittle_littleEndian {memory : Nat → UInt8} {address count n : Nat}
    (fits : n < 256 ^ count)
    (stands : ∀ i byte, (littleEndian count n)[i]? = some byte → memory (address + i) = byte)
    : readLittle memory address count = n := by
  induction count generalizing address n with
  | zero =>
      rw [Nat.pow_zero] at fits
      rw [readLittle]
      omega
  | succ count ih =>
      have low : memory address = UInt8.ofNat (n % 256) :=
        stands 0 _ (by rw [littleEndian, List.getElem?_cons_zero])
      have high : readLittle memory (address + 1) count = n / 256 := by
        refine ih ?_ (fun i byte found => ?_)
        · rw [Nat.pow_succ] at fits
          exact Nat.div_lt_of_lt_mul (by rw [Nat.mul_comm]; exact fits)
        · have moved := stands (i + 1) byte (by rwa [littleEndian, List.getElem?_cons_succ])
          rwa [Nat.add_assoc, Nat.add_comm 1 i]
      have value : (UInt8.ofNat (n % 256)).toNat = n % 256 := by
        rw [UInt8.toNat_ofNat']
        exact Nat.mod_eq_of_lt (Nat.mod_lt _ (by decide))
      rw [readLittle, low, high, value]
      exact Nat.mod_add_div n 256

end Kumf.Library
