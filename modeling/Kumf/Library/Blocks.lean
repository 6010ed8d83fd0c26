import Mathlib.Data.Nat.Basic

/-! Blocks of consecutive addresses, and blocks that share none. -/

namespace Kumf.Library

/-- Some addresses from a base on. -/
structure Block where
  base : Nat
  size : Nat
  deriving DecidableEq, Repr

namespace Block

def Contains (block : Block) (address : Nat) : Prop :=
  block.base ≤ address ∧ address < block.base + block.size

instance (block : Block) (address : Nat) : Decidable (block.Contains address) :=
  inferInstanceAs (Decidable (_ ∧ _))

/-- Two blocks without a common address. -/
def Apart (block other : Block) : Prop :=
  block.size = 0 ∨ other.size = 0 ∨ block.base + block.size ≤ other.base
  ∨ other.base + other.size ≤ block.base

instance (block other : Block) : Decidable (block.Apart other) :=
  inferInstanceAs (Decidable (_ ∨ _ ∨ _ ∨ _))

variable {block other : Block}

theorem apart_iff
    : block.Apart other ↔ ∀ address, block.Contains address → ¬ other.Contains address
    := by
  unfold Apart Contains
  constructor
  · omega
  · intro none
    have first := none block.base
    have second := none other.base
    omega

theorem Apart.symm (apart : block.Apart other) : other.Apart block := by
  unfold Apart at apart ⊢
  omega

/-- What is apart from a block is apart from its front. -/
theorem Apart.front (apart : block.Apart other) {size : Nat} (le : size ≤ other.size)
    : block.Apart ⟨other.base, size⟩ := by
  unfold Apart at apart ⊢
  dsimp only
  omega

theorem Apart.not_contains (apart : block.Apart other) (nonempty : 0 < block.size)
    : ¬ other.Contains block.base :=
  apart_iff.mp apart block.base ⟨Nat.le_refl _, Nat.lt_add_of_pos_right nonempty⟩

/-- Two blocks at one address are apart only if one of them is empty. -/
theorem apart_same_base_iff {base size more : Nat}
    : (⟨base, size⟩ : Block).Apart ⟨base, more⟩ ↔ size = 0 ∨ more = 0 := by
  unfold Apart
  dsimp only
  omega

end Block

end Kumf.Library
