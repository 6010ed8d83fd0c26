import Mathlib.Data.List.Rotate
import Mathlib.Data.Nat.ModEq

/-! A walk from item to item that goes round a list. -/

namespace Kumf.Library

section
variable {α : Type} (step : α → Option α)

/-- The items that some steps reach, or nothing when one of them fails. -/
def walk : Nat → α → Option (List α)
  | 0, _ => some []
  | count + 1, item => do
      let next ← step item
      let rest ← walk count next
      return next :: rest

variable {step} {order : List α}

/-- A step from each item to the one behind it, and from the last one to the first. -/
def GoesRound (step : α → Option α) (order : List α) : Prop :=
  ∀ i item, order[i]? = some item → step item = order[(i + 1) % order.length]?

theorem walk_goesRound (round : GoesRound step order) (count : Nat) {start : Nat} {item : α}
    (found : order[start]? = some item)
    : ∃ visited,
        walk step count item = some visited
        ∧ visited.length = count
        ∧ ∀ k, k < count → visited[k]? = order[(start + 1 + k) % order.length]? := by
  induction count generalizing start item with
  | zero => exact ⟨[], rfl, rfl, fun k small => absurd small (Nat.not_lt_zero k)⟩
  | succ count ih =>
      have nonempty : 0 < order.length :=
        Nat.zero_lt_of_lt (List.getElem?_eq_some_iff.mp found).1
      have inside : (start + 1) % order.length < order.length := Nat.mod_lt _ nonempty
      have next := List.getElem?_eq_getElem inside
      obtain ⟨visited, walked, length, items⟩ := ih next
      refine ⟨order[(start + 1) % order.length] :: visited, ?_, ?_, ?_⟩
      · rw [walk, round start item found, next, Option.bind_eq_bind, Option.bind_some, walked]
        rfl
      · rw [List.length_cons, length]
      · intro k small
        cases k with
        | zero => exact next.symm
        | succ k =>
            rw [List.getElem?_cons_succ, items k (by omega)]
            have shifted : (start + 1) % order.length + 1 + k ≡ start + 1 + 1 + k
                [MOD order.length] :=
              ((Nat.mod_modEq (start + 1) order.length).add_right 1).add_right k
            have sum : start + 1 + (k + 1) = start + 1 + 1 + k := by omega
            rw [sum]
            exact congrArg (order[·]?) shifted

/-- A walk of full length visits every item once, and ends where it began. -/
theorem walk_full (round : GoesRound step order) {start : Nat} {item : α}
    (found : order[start]? = some item)
    : walk step order.length item = some (order.rotate (start + 1))
      ∧ (order.rotate (start + 1)).getLast? = some item := by
  obtain ⟨visited, walked, length, items⟩ := walk_goesRound round order.length found
  have small := (List.getElem?_eq_some_iff.mp found).1
  have same : visited = order.rotate (start + 1) := by
    apply List.ext_getElem?
    intro k
    by_cases inside : k < order.length
    · rw [items k inside, List.getElem?_rotate inside, Nat.add_comm k]
    · rw [List.getElem?_eq_none (by omega), List.getElem?_eq_none (by simpa using by omega)]
  refine ⟨by rw [walked, same], ?_⟩
  rw [List.getLast?_eq_getElem?, List.length_rotate, List.getElem?_rotate (by omega)]
  rw [show order.length - 1 + (start + 1) = start + order.length by omega, Nat.add_mod_right,
    Nat.mod_eq_of_lt small, found]

end

end Kumf.Library
