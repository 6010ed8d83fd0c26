import Kumf.Library.Runs
import Mathlib.Logic.Function.Basic

/-! The heap that a program relies on: blocks with contents that it asks for, resizes, writes and
gives back. What one request does to a block, and what it leaves alone.
-/

namespace Kumf.Library

/-- The contents of the live blocks, by address. -/
abbrev BlockHeap (α β : Type) := α → Option (List β)

namespace BlockHeap

variable {α β : Type}

/-- A request with its answer: a block with contents that fit, a block at another size, the end of
a block, or a value at an offset of one.
-/
inductive Request (α β : Type) where
  | alloc (fits : List β → Prop) (ret : Option α)
  | resize (old : α) (size : Nat) (ret : Option α)
  | release (old : Option α)
  | write (addr : α) (offset : Nat) (value : β)

/-- The block that a request is about, before it is answered. -/
def Request.names : Request α β → Option α
  | .alloc _ _ => none
  | .resize old _ _ => some old
  | .release old => old
  | .write addr _ _ => some addr

variable [DecidableEq α]

/-- What a request may do. A resized block keeps the contents as far as both sizes reach, in its
place or at an address that was free; a block that cannot be resized stays, unless it was to be
empty.
-/
inductive Step (heap : BlockHeap α β) : Request α β → BlockHeap α β → Prop where
  | refused {fits} : Step heap (.alloc fits none) heap
  | allocated {fits addr bytes} (free : heap addr = none) (contents : fits bytes)
    : Step heap (.alloc fits (some addr)) (Function.update heap addr (some bytes))
  | kept {old size bytes} (live : heap old = some bytes) (some : size ≠ 0)
    : Step heap (.resize old size none) heap
  | emptied {old bytes} (live : heap old = some bytes)
    : Step heap (.resize old 0 none) (Function.update heap old none)
  | resized {old size bytes addr resized} (live : heap old = some bytes)
    (free : addr = old ∨ heap addr = none) (length : resized.length = size)
    (same : resized.take bytes.length = bytes.take size)
    : Step heap (.resize old size (some addr))
        (Function.update (Function.update heap old none) addr (some resized))
  | ignored : Step heap (.release none) heap
  | released {old bytes} (live : heap old = some bytes)
    : Step heap (.release (some old)) (Function.update heap old none)
  | written {addr offset value bytes} (live : heap addr = some bytes)
    (within : offset < bytes.length)
    : Step heap (.write addr offset value)
        (Function.update heap addr (some (bytes.set offset value)))

/-- A request leaves the blocks that it does not name as they are. -/
theorem Step.others {heap after : BlockHeap α β} {request : Request α β}
    (step : Step heap request after) {addr : α} {bytes : List β} (live : heap addr = some bytes)
    (unnamed : request.names ≠ some addr)
    : after addr = some bytes := by
  have apart {other : α} (free : heap other = none) : addr ≠ other := fun same => by
    rw [same, free] at live
    cases live
  have elsewhere {other : α} (named : request.names = some other) : addr ≠ other := fun same =>
    unnamed (same ▸ named)
  cases step with
  | refused => exact live
  | allocated free => exact (Function.update_of_ne (apart free) ..).trans live
  | kept => exact live
  | emptied => exact (Function.update_of_ne (elsewhere rfl) ..).trans live
  | resized _ free =>
      have different := free.elim (fun same => same ▸ elsewhere rfl) apart
      rw [Function.update_of_ne different, Function.update_of_ne (elsewhere rfl)]
      exact live
  | ignored => exact live
  | released => exact (Function.update_of_ne (elsewhere rfl) ..).trans live
  | written => exact (Function.update_of_ne (elsewhere rfl) ..).trans live

/-- What a block holds stays until a request names the block. -/
theorem others_of_stepsTo {heap after : BlockHeap α β} {requests : List (Request α β)}
    (runs : StepsTo Step heap requests after) {addr : α} {bytes : List β}
    (live : heap addr = some bytes)
    (unnamed : ∀ request ∈ requests, request.names ≠ some addr)
    : after addr = some bytes := by
  induction requests generalizing heap with
  | nil => exact runs ▸ live
  | cons request rest ih =>
      obtain ⟨next, step, later⟩ := runs
      have still := step.others live (unnamed request List.mem_cons_self)
      exact ih later still (fun other member => unnamed other (List.mem_cons_of_mem _ member))

end BlockHeap

end Kumf.Library
