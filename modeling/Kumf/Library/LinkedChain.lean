import Mathlib.Data.List.Induction
import Mathlib.Data.List.Nodup
import Mathlib.Logic.Function.Basic

/-! Singly linked chains in a memory of cells, each behind a slot that points to its first
cell. A walk stands at the place that points to the next cell: a slot, or a link.
-/

namespace Kumf.Library

/-- A cell of a chain. -/
structure Cell (Loc ε : Type) where
  value : ε
  next : Option Loc
  deriving DecidableEq, Repr

/-- A place that holds a pointer. -/
inductive Place (ι Loc : Type) where
  | slot (slot : ι)
  | next (loc : Loc)
  deriving DecidableEq, Repr

/-- Slots and cells. -/
structure Chains (ι Loc ε : Type) where
  heads : ι → Option Loc
  cells : Loc → Option (Cell Loc ε)

namespace Chains

variable {ι Loc ε : Type}

/-- The pointer at a place; there is none in memory that is no cell. -/
def read (memory : Chains ι Loc ε) : Place ι Loc → Option (Option Loc)
  | .slot slot => some (memory.heads slot)
  | .next loc => (memory.cells loc).map Cell.next

-----------------------------------------------------------------------------------------
-- Cells in a row
-----------------------------------------------------------------------------------------

/-- The cells from one pointer on to another one, with their values. -/
def Linked (cells : Loc → Option (Cell Loc ε))
    : Option Loc → List (Loc × ε) → Option Loc → Prop
  | first, [], last => first = last
  | first, (loc, value) :: rest, last =>
      first = some loc ∧ ∃ next, cells loc = some ⟨value, next⟩
        ∧ Linked cells next rest last

/-- The pointer to the first of some cells that end a chain. -/
def pointerTo (chain : List (Loc × ε)) : Option Loc := chain.head?.map Prod.fst

section
variable {cells : Loc → Option (Cell Loc ε)} {first last : Option Loc}
    {front back : List (Loc × ε)}

/-- A chain can be cut at any place. -/
theorem linked_append
    : Linked cells first (front ++ back) last
      ↔ ∃ middle, Linked cells first front middle ∧ Linked cells middle back last := by
  induction front generalizing first with
  | nil => simp [Linked]
  | cons item rest ih =>
      obtain ⟨loc, value⟩ := item
      simp only [List.cons_append, Linked, ih]
      constructor
      · rintro ⟨start, next, cell, middle, left, right⟩
        exact ⟨middle, ⟨start, next, cell, left⟩, right⟩
      · rintro ⟨middle, ⟨start, next, cell, left⟩, right⟩
        exact ⟨start, next, cell, middle, left, right⟩

/-- A chain that ends in nothing starts at its first cell. -/
theorem Linked.pointer (linked : Linked cells first front none)
    : first = pointerTo front := by
  cases front with
  | nil => exact linked
  | cons item rest => exact linked.1

/-- A row is read from its own cells only. -/
theorem Linked.congr {others : Loc → Option (Cell Loc ε)}
    (same : ∀ loc ∈ front.map Prod.fst, others loc = cells loc)
    (linked : Linked cells first front last)
    : Linked others first front last := by
  induction front generalizing first with
  | nil => exact linked
  | cons item rest ih =>
      obtain ⟨loc, value⟩ := item
      obtain ⟨start, next, cell, behind⟩ := linked
      refine ⟨start, next, (same loc List.mem_cons_self).trans cell, ih ?_ behind⟩
      exact fun other member => same other (List.mem_cons_of_mem _ member)

/-- A change of a cell outside a chain leaves the chain. -/
theorem Linked.update [DecidableEq Loc] {loc : Loc} {cell : Option (Cell Loc ε)}
    (absent : loc ∉ front.map Prod.fst) (linked : Linked cells first front last)
    : Linked (Function.update cells loc cell) first front last := by
  apply linked.congr
  intro other member
  apply Function.update_of_ne
  rintro rfl
  exact absent member

end

-----------------------------------------------------------------------------------------
-- The place behind some cells
-----------------------------------------------------------------------------------------

/-- The place that points behind the first cells of a slot's chain. -/
def placeBehind (slot : ι) (front : List (Loc × ε)) : Place ι Loc :=
  match front.getLast? with
  | none => .slot slot
  | some item => .next item.1

theorem placeBehind_nil (slot : ι) : placeBehind slot ([] : List (Loc × ε)) = .slot slot := rfl

/-- Behind a chain's last cell stands that cell's `next`. -/
theorem placeBehind_concat (slot : ι) (front : List (Loc × ε)) (item : Loc × ε)
    : placeBehind slot (front ++ [item]) = .next item.1 := by
  simp [placeBehind]

section
variable {memory : Chains ι Loc ε} {slot : ι} {front back : List (Loc × ε)}

/-- The place holds the pointer to what follows. -/
theorem read_placeBehind (linked : Linked memory.cells (memory.heads slot) (front ++ back) none)
    : memory.read (placeBehind slot front) = some (pointerTo back) := by
  obtain ⟨middle, left, right⟩ := linked_append.mp linked
  rw [← right.pointer]
  cases front using List.reverseRecOn with
  | nil =>
      rw [placeBehind_nil, read]
      exact congrArg some left
  | append_singleton front item =>
      obtain ⟨before, _, start, next, cell, same⟩ := linked_append.mp left
      rw [placeBehind_concat, read, cell, Option.map_some, same]

end

-----------------------------------------------------------------------------------------
-- The cells of one slot
-----------------------------------------------------------------------------------------

section
variable (slotOf : ε → ι)

/-- The cells whose values belong to a slot. -/
structure Owns (memory : Chains ι Loc ε) (slot : ι) (locs : List Loc) : Prop where
  nodup : locs.Nodup
  mem_iff
    : ∀ loc, loc ∈ locs ↔ ∃ cell, memory.cells loc = some cell ∧ slotOf cell.value = slot

/-- Two memories with the same pointer in a slot and the same cells of it. -/
structure SameSlot (left right : Chains ι Loc ε) (slot : ι) : Prop where
  head : right.heads slot = left.heads slot
  cells
    : ∀ loc cell, slotOf cell.value = slot
      → (right.cells loc = some cell ↔ left.cells loc = some cell)

/-- A slot whose cells are exactly those of a chain. -/
structure Chained (memory : Chains ι Loc ε) (slot : ι) (chain : List (Loc × ε)) : Prop where
  linked : Linked memory.cells (memory.heads slot) chain none
  owns : Owns slotOf memory slot (chain.map Prod.fst)

end

section
variable {slotOf : ε → ι} {left right : Chains ι Loc ε} {slot : ι} {locs : List Loc}

/-- What a change leaves alone stays owned. -/
theorem SameSlot.owns (same : SameSlot slotOf left right slot) (owns : Owns slotOf left slot locs)
    : Owns slotOf right slot locs where
  nodup := owns.nodup
  mem_iff := by
    intro loc
    rw [owns.mem_iff]
    apply exists_congr
    intro cell
    exact and_congr_left (fun belongs => (same.cells loc cell belongs).symm)

/-- What a change leaves alone keeps its cells. -/
theorem SameSlot.cell (same : SameSlot slotOf left right slot) (owns : Owns slotOf left slot locs)
    {loc : Loc} (member : loc ∈ locs)
    : right.cells loc = left.cells loc := by
  obtain ⟨cell, found, belongs⟩ := (owns.mem_iff loc).mp member
  rw [found, (same.cells loc cell belongs).mpr found]

/-- What is linked over cells of the slot stays linked. -/
theorem SameSlot.linked (same : SameSlot slotOf left right slot)
    (owns : Owns slotOf left slot locs) {chain : List (Loc × ε)} {last : Option Loc}
    (within : ∀ loc ∈ chain.map Prod.fst, loc ∈ locs)
    (linked : Linked left.cells (left.heads slot) chain last)
    : Linked right.cells (right.heads slot) chain last := by
  rw [same.head]
  apply linked.congr
  exact fun loc member => same.cell owns (within loc member)

/-- What a change leaves alone stays a chain. -/
theorem SameSlot.chained (same : SameSlot slotOf left right slot) {chain : List (Loc × ε)}
    (chained : Chained slotOf left slot chain)
    : Chained slotOf right slot chain where
  linked := same.linked chained.owns (fun _ member => member) chained.linked
  owns := same.owns chained.owns

end

-----------------------------------------------------------------------------------------
-- Writing
-----------------------------------------------------------------------------------------

def setCell [DecidableEq Loc] (memory : Chains ι Loc ε) (loc : Loc)
    (cell : Option (Cell Loc ε))
    : Chains ι Loc ε :=
  { memory with cells := Function.update memory.cells loc cell }

def setHead [DecidableEq ι] (memory : Chains ι Loc ε) (slot : ι) (pointer : Option Loc)
    : Chains ι Loc ε :=
  { memory with heads := Function.update memory.heads slot pointer }

def setNext [DecidableEq Loc] (memory : Chains ι Loc ε) (loc : Loc) (pointer : Option Loc)
    : Option (Chains ι Loc ε) :=
  (memory.cells loc).map (fun cell => memory.setCell loc (some { cell with next := pointer }))

/-- Write a pointer to a place. -/
def write [DecidableEq ι] [DecidableEq Loc] (memory : Chains ι Loc ε) (pointer : Option Loc)
    : Place ι Loc → Option (Chains ι Loc ε)
  | .slot slot => some (memory.setHead slot pointer)
  | .next loc => memory.setNext loc pointer

section
variable {memory : Chains ι Loc ε} {slot : ι} {front back : List (Loc × ε)}

/-- Only the pointer of one slot and those in some cells may have changed. -/
structure Relinked (left right : Chains ι Loc ε) (slot : ι) (locs : List Loc) : Prop where
  heads : ∀ other, other ≠ slot → right.heads other = left.heads other
  cells : ∀ loc, loc ∉ locs → right.cells loc = left.cells loc
  values : ∀ loc, (right.cells loc).map Cell.value = (left.cells loc).map Cell.value

/-- A new head relinks a slot and no cell. -/
theorem relinked_setHead [DecidableEq ι] (pointer : Option Loc)
    : Relinked memory (memory.setHead slot pointer) slot [] where
  heads _ different := Function.update_of_ne different _ _
  cells _ _ := rfl
  values _ := rfl

/-- A new `next` relinks one cell. -/
theorem relinked_setCell [DecidableEq Loc] {loc : Loc} {cell : Cell Loc ε}
    (found : memory.cells loc = some cell) (pointer : Option Loc)
    : Relinked memory (memory.setCell loc (some { cell with next := pointer })) slot [loc] where
  heads _ _ := rfl
  cells _ other := Function.update_of_ne (fun same => other (List.mem_singleton.mpr same)) _ _
  values other := by
    rw [setCell]
    dsimp only
    by_cases same : other = loc
    · rw [same, Function.update_self, found]
      rfl
    · rw [Function.update_of_ne same]

/-- Writing the place changes where the first cells lead to, and nothing else of them. -/
theorem write_placeBehind [DecidableEq ι] [DecidableEq Loc] {pointer : Option Loc}
    (nodup : (front.map Prod.fst).Nodup)
    (linked : Linked memory.cells (memory.heads slot) (front ++ back) none)
    : ∃ after,
        memory.write pointer (placeBehind slot front) = some after
        ∧ Linked after.cells (after.heads slot) front pointer
        ∧ Relinked memory after slot (front.map Prod.fst) := by
  obtain ⟨middle, left, right⟩ := linked_append.mp linked
  cases front using List.reverseRecOn with
  | nil =>
      refine ⟨memory.setHead slot pointer, rfl, ?_, relinked_setHead pointer⟩
      exact Function.update_self slot pointer memory.heads
  | append_singleton front item =>
      obtain ⟨before, leading, start, next, cell, same⟩ := linked_append.mp left
      rw [List.map_append, List.nodup_append] at nodup
      have absent : item.1 ∉ front.map Prod.fst := fun member =>
        nodup.2.2 item.1 member item.1 List.mem_cons_self rfl
      have changed : Relinked memory _ slot [item.1] := relinked_setCell cell pointer
      refine ⟨memory.setCell item.1 (some ⟨item.2, pointer⟩), ?_, ?_, changed.heads, ?_,
        changed.values⟩
      · rw [placeBehind_concat, write, setNext, cell]
        rfl
      · apply linked_append.mpr
        refine ⟨before, leading.update absent, start, pointer, ?_, rfl⟩
        exact Function.update_self item.1 _ memory.cells
      · intro loc outside
        apply changed.cells
        intro again
        rw [List.mem_singleton.mp again] at outside
        exact outside (by simp)

end

section
variable {slotOf : ε → ι} {left right : Chains ι Loc ε} {slot other : ι}
    {locs owned : List Loc}

/-- Relinking changes no owner. -/
theorem Relinked.owns (relinked : Relinked left right slot locs)
    (owns : Owns slotOf left other owned)
    : Owns slotOf right other owned where
  nodup := owns.nodup
  mem_iff := by
    intro loc
    have same := relinked.values loc
    rw [owns.mem_iff]
    cases before : left.cells loc with
    | none =>
        rw [before, Option.map_none, Option.map_eq_none_iff] at same
        simp [same]
    | some cell =>
        rw [before, Option.map_some, Option.map_eq_some_iff] at same
        obtain ⟨changed, after, value⟩ := same
        simp [after, value]

/-- The other slots do not notice. -/
theorem Relinked.sameSlot (relinked : Relinked left right slot locs)
    (owns : Owns slotOf left slot owned) (within : ∀ loc ∈ locs, loc ∈ owned)
    (different : other ≠ slot)
    : SameSlot slotOf left right other where
  head := relinked.heads other different
  cells := by
    intro loc cell belongs
    by_cases changed : loc ∈ locs
    · have mine := within loc changed
      have before : left.cells loc ≠ some cell := by
        intro found
        obtain ⟨own, cells, value⟩ := (owns.mem_iff loc).mp mine
        cases found.symm.trans cells
        exact different (belongs.symm.trans value)
      have after : right.cells loc ≠ some cell := by
        intro found
        obtain ⟨own, cells, value⟩ := ((relinked.owns owns).mem_iff loc).mp mine
        cases found.symm.trans cells
        exact different (belongs.symm.trans value)
      exact iff_of_false after before
    · rw [relinked.cells loc changed]

/-- A new cell joins those of its slot. -/
theorem Owns.alloc [DecidableEq Loc] {loc : Loc} {cell : Cell Loc ε}
    (owns : Owns slotOf left slot owned)
    (fresh : left.cells loc = none) (belongs : slotOf cell.value = slot)
    : Owns slotOf (left.setCell loc (some cell)) slot (loc :: owned) where
  nodup := by
    apply List.nodup_cons.mpr
    refine ⟨fun member => ?_, owns.nodup⟩
    obtain ⟨old, found, -⟩ := (owns.mem_iff loc).mp member
    rw [fresh] at found
    cases found
  mem_iff := by
    intro place
    rw [setCell]
    dsimp only
    by_cases same : place = loc
    · rw [same, Function.update_self]
      simp [belongs]
    · rw [Function.update_of_ne same, List.mem_cons, owns.mem_iff]
      simp [same]

/-- A cell that goes leaves the others. -/
theorem Owns.free [DecidableEq Loc] {front back : List Loc} {loc : Loc}
    (owns : Owns slotOf left slot (front ++ loc :: back))
    : Owns slotOf (left.setCell loc none) slot (front ++ back) where
  nodup := owns.nodup.sublist (List.Sublist.append_left (List.sublist_cons_self loc back) front)
  mem_iff := by
    intro place
    have absent : loc ∉ front ++ back := (List.nodup_middle.mp owns.nodup).notMem
    rw [setCell]
    dsimp only
    by_cases same : place = loc
    · rw [same, Function.update_self]
      simp [absent]
    · rw [Function.update_of_ne same, ← owns.mem_iff]
      simp [same]

/-- A cell of one slot is no matter of another. -/
theorem sameSlot_setCell [DecidableEq Loc] {loc : Loc} {cell : Option (Cell Loc ε)}
    (different : other ≠ slot)
    (before : ∀ old, left.cells loc = some old → slotOf old.value = slot)
    (after : ∀ new ∈ cell, slotOf new.value = slot)
    : SameSlot slotOf left (left.setCell loc cell) other where
  head := rfl
  cells := by
    intro place found belongs
    rw [setCell]
    dsimp only
    by_cases same : place = loc
    · rw [same, Function.update_self]
      apply iff_of_false
      · intro new
        exact different (belongs.symm.trans (after found new))
      · intro old
        exact different (belongs.symm.trans (before found old))
    · rw [Function.update_of_ne same]

end

end Chains

end Kumf.Library
