import Mathlib.Algebra.BigOperators.Group.List.Basic
import Mathlib.Algebra.GroupWithZero.Nat
import Mathlib.Algebra.Order.Group.Nat
import Mathlib.Data.List.Nodup

/-! Items that own places: the places in the order of the items, the search for the owner of a
place, and how many of the first places an item owns.
-/

namespace Kumf.Library

section
variable {α : Type} (places : α → Nat)

/-- The owner of every place. -/
def shares (items : List α) : List α :=
  items.flatMap (fun item => List.replicate (places item) item)

/-- The search for a place's owner, item by item. -/
def ownerOf : Nat → List α → Option α
  | _, [] => none
  | place, item :: rest =>
      if place < places item then some item else ownerOf (place - places item) rest

@[simp]
theorem shares_nil : shares places [] = [] := rfl

@[simp]
theorem shares_cons (item : α) (rest : List α)
    : shares places (item :: rest)
      = List.replicate (places item) item ++ shares places rest :=
  rfl

theorem shares_append (front back : List α)
    : shares places (front ++ back) = shares places front ++ shares places back :=
  List.flatMap_append

theorem length_shares (items : List α)
    : (shares places items).length = (items.map places).sum := by
  induction items with
  | nil => rfl
  | cons item rest ih => simp [ih]

theorem mem_shares {items : List α} {item : α}
    : item ∈ shares places items ↔ item ∈ items ∧ 0 < places item := by
  rw [shares, List.mem_flatMap]
  constructor
  · rintro ⟨owner, listed, member⟩
    obtain ⟨own, rfl⟩ := List.mem_replicate.mp member
    exact ⟨listed, Nat.pos_of_ne_zero own⟩
  · rintro ⟨listed, own⟩
    exact ⟨item, listed, List.mem_replicate.mpr ⟨own.ne', rfl⟩⟩

theorem ownerOf_eq (items : List α) (place : Nat)
    : ownerOf places place items = (shares places items)[place]? := by
  induction items generalizing place with
  | nil => simp [ownerOf]
  | cons item rest ih =>
      rw [ownerOf, shares_cons]
      split
      case isTrue own =>
          rw [List.getElem?_append_left (by simpa using own), List.getElem?_replicate, if_pos own]
      case isFalse later =>
          rw [List.getElem?_append_right (by simpa using later), List.length_replicate, ih]

variable [DecidableEq α]

/-- Of the first places an item owns those behind the places of the items before it. -/
theorem count_take_shares {front back : List α} {item : α}
    (distinct : (front ++ item :: back).Nodup) (k : Nat)
    : ((shares places (front ++ item :: back)).take k).count item
      = min (places item) (k - (front.map places).sum) := by
  obtain ⟨_, tailDistinct, apart⟩ := List.nodup_append'.mp distinct
  have before : item ∉ (shares places front).take k := fun member =>
    apart ((mem_shares places).mp (List.mem_of_mem_take member)).1 List.mem_cons_self
  have behind (j : Nat) : item ∉ (shares places back).take j := fun member =>
    (List.nodup_cons.mp tailDistinct).1 ((mem_shares places).mp (List.mem_of_mem_take member)).1
  rw [shares_append, shares_cons, List.take_append, List.take_append, List.count_append,
    List.count_append, List.count_eq_zero_of_not_mem before,
    List.count_eq_zero_of_not_mem (behind _), List.take_replicate, List.count_replicate_self,
    length_shares]
  omega

end

end Kumf.Library
