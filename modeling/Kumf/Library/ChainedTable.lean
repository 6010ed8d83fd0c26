import Mathlib.Data.List.FinRange
import Mathlib.Logic.Function.Basic

/-! A hash table with separate chaining: insertion in front of a chain, and removal of the
first entry of a chain with a given key. Every entry sits in the chain of its key's slot.
-/

namespace Kumf.Library

/-- Unlink the first entry that satisfies a test, keeping the rest of the chain. -/
def unlinkFirst {ε : Type} (test : ε → Bool) : List ε → Option (ε × List ε)
  | [] => none
  | entry :: rest =>
      if test entry then
        some (entry, rest)
      else
        (unlinkFirst test rest).map (fun (found, kept) => (found, entry :: kept))

theorem unlinkFirst_some {ε : Type} {test : ε → Bool} {chain kept : List ε} {found : ε}
    (unlinked : unlinkFirst test chain = some (found, kept))
    : test found = true ∧ chain.Perm (found :: kept) := by
  induction chain generalizing kept with
  | nil => simp [unlinkFirst] at unlinked
  | cons entry rest ih =>
      cases tested : test entry with
      | true =>
          simp only [unlinkFirst, tested, if_true, Option.some.injEq, Prod.mk.injEq]
            at unlinked
          obtain ⟨rfl, rfl⟩ := unlinked
          exact ⟨tested, .refl _⟩
      | false =>
          simp only [unlinkFirst, tested, Bool.false_eq_true, if_false,
            Option.map_eq_some_iff, Prod.mk.injEq, Prod.exists] at unlinked
          obtain ⟨below, remaining, deeper, rfl, rfl⟩ := unlinked
          obtain ⟨accepted, perm⟩ := ih deeper
          exact ⟨accepted, (perm.cons entry).trans (.swap below entry remaining)⟩

theorem unlinkFirst_none {ε : Type} {test : ε → Bool} {chain : List ε}
    (missing : unlinkFirst test chain = none)
    : ∀ entry ∈ chain, test entry = false := by
  induction chain with
  | nil => simp
  | cons entry rest ih =>
      cases tested : test entry with
      | true => simp [unlinkFirst, tested] at missing
      | false =>
          simp only [unlinkFirst, tested, Bool.false_eq_true, if_false,
            Option.map_eq_none_iff] at missing
          intro other member
          rcases List.mem_cons.mp member with rfl | later
          · exact tested
          · exact ih missing other later

/-- Entries that fail the test are kept in front. -/
theorem unlinkFirst_append {ε : Type} {test : ε → Bool} {front : List ε}
    (refused : ∀ entry ∈ front, test entry = false) (back : List ε)
    : unlinkFirst test (front ++ back)
      = (unlinkFirst test back).map (fun (found, kept) => (found, front ++ kept)) := by
  induction front with
  | nil => simp
  | cons entry front ih =>
      have rest := ih (fun other member => refused other (List.mem_cons_of_mem _ member))
      have first := refused entry List.mem_cons_self
      simp [unlinkFirst, first, rest, Function.comp_def]

theorem unlinkFirst_map {ε δ : Type} {test : δ → Bool} (view : ε → δ) (chain : List ε)
    : unlinkFirst test (chain.map view)
      = (unlinkFirst (fun entry => test (view entry)) chain).map
          (fun (found, kept) => (view found, kept.map view)) := by
  induction chain with
  | nil => rfl
  | cons entry rest ih =>
      cases tested : test (view entry) with
      | true => simp [unlinkFirst, tested]
      | false => simp [unlinkFirst, tested, ih, Function.comp_def]

/-- Growing the chain of one slot by an element grows the whole listing by it. -/
theorem flatMap_update_perm {ι ε : Type} [DecidableEq ι] {slots : List ι} {slot : ι}
    {chain : ι → List ε} {longer : List ε} {entry : ε}
    (nodup : slots.Nodup) (member : slot ∈ slots)
    (grown : longer.Perm (entry :: chain slot))
    : (slots.flatMap (Function.update chain slot longer)).Perm
        (entry :: slots.flatMap chain) := by
  induction slots with
  | nil => simp at member
  | cons first rest ih =>
      obtain ⟨absent, restNodup⟩ := List.nodup_cons.mp nodup
      rw [List.flatMap_cons, List.flatMap_cons]
      by_cases same : first = slot
      · subst first
        have elsewhere : rest.flatMap (Function.update chain slot longer)
            = rest.flatMap chain := by
          refine List.flatMap_congr (fun other inRest => ?_)
          refine Function.update_of_ne ?_ _ _
          rintro rfl
          exact absent inRest
        rw [elsewhere, Function.update_self, ← List.cons_append]
        exact grown.append_right _
      · have inRest : slot ∈ rest := (List.mem_cons.mp member).resolve_left (Ne.symm same)
        rw [Function.update_of_ne same]
        exact ((ih restNodup inRest).append_left _).trans List.perm_middle

/-- A chained table of `size` slots; entries are stored under the hash of their key. -/
structure ChainedTable {κ ε : Type} {size : Nat} (hash : κ → Fin size) (key : ε → κ) where
  chain : Fin size → List ε
  placed : ∀ slot, ∀ entry ∈ chain slot, hash (key entry) = slot

namespace ChainedTable

variable {κ ε : Type} {size : Nat} {hash : κ → Fin size} {key : ε → κ}

def empty : ChainedTable hash key where
  chain := fun _ => []
  placed := by simp

/-- All entries, slot by slot. -/
def entries (table : ChainedTable hash key) : List ε :=
  (List.finRange size).flatMap table.chain

theorem entries_empty : (empty : ChainedTable hash key).entries = [] := by
  simp [entries, empty]

theorem mem_entries {table : ChainedTable hash key} {entry : ε}
    : entry ∈ table.entries ↔ entry ∈ table.chain (hash (key entry)) := by
  simp only [entries, List.mem_flatMap, List.mem_finRange, true_and]
  constructor
  · rintro ⟨slot, member⟩
    rwa [table.placed slot entry member]
  · intro member
    exact ⟨_, member⟩

/-- Insert an entry in front of its chain. -/
def push (table : ChainedTable hash key) (entry : ε) : ChainedTable hash key where
  chain := Function.update table.chain (hash (key entry))
    (entry :: table.chain (hash (key entry)))
  placed := by
    intro slot other member
    by_cases same : slot = hash (key entry)
    · subst slot
      rw [Function.update_self] at member
      rcases List.mem_cons.mp member with rfl | older
      · rfl
      · exact table.placed _ other older
    · rw [Function.update_of_ne same] at member
      exact table.placed slot other member

theorem entries_push (table : ChainedTable hash key) (entry : ε)
    : (table.push entry).entries.Perm (entry :: table.entries) :=
  flatMap_update_perm (List.nodup_finRange size) (List.mem_finRange _) (.refl _)

/-- Replace one chain by a part of it. -/
def shrink (table : ChainedTable hash key) (slot : Fin size) (kept : List ε)
    (part : ∀ entry ∈ kept, entry ∈ table.chain slot)
    : ChainedTable hash key where
  chain := Function.update table.chain slot kept
  placed := by
    intro other entry member
    by_cases same : other = slot
    · subst other
      rw [Function.update_self] at member
      exact table.placed slot entry (part entry member)
    · rw [Function.update_of_ne same] at member
      exact table.placed other entry member

variable [DecidableEq κ]

/-- Walk the chain of a key and unlink the first entry that has it. -/
def unlink (table : ChainedTable hash key) (k : κ) : Option (ε × ChainedTable hash key) :=
  match walked : unlinkFirst (fun entry => key entry = k) (table.chain (hash k)) with
  | none => none
  | some (found, kept) =>
      some (found, table.shrink (hash k) kept
        (fun _ member => (unlinkFirst_some walked).2.mem_iff.mpr (List.mem_cons_of_mem _ member)))

theorem unlink_some {table smaller : ChainedTable hash key} {k : κ} {found : ε}
    (unlinked : table.unlink k = some (found, smaller))
    : key found = k ∧ table.entries.Perm (found :: smaller.entries) := by
  unfold unlink at unlinked
  split at unlinked
  case h_1 => cases unlinked
  case h_2 entry kept walked =>
      obtain ⟨rfl, rfl⟩ := Prod.mk.inj (Option.some.inj unlinked)
      obtain ⟨accepted, perm⟩ := unlinkFirst_some walked
      refine ⟨of_decide_eq_true accepted, ?_⟩
      let short := Function.update table.chain (hash k) kept
      have grown : ((List.finRange size).flatMap
          (Function.update short (hash k) (table.chain (hash k)))).Perm
            (entry :: (List.finRange size).flatMap short) :=
        flatMap_update_perm (List.nodup_finRange size) (List.mem_finRange (hash k))
          (by simpa only [short, Function.update_self] using perm)
      simp only [short, Function.update_idem, Function.update_eq_self] at grown
      exact grown

theorem unlink_none {table : ChainedTable hash key} {k : κ} (missing : table.unlink k = none)
    : ∀ entry ∈ table.entries, key entry ≠ k := by
  unfold unlink at missing
  split at missing
  case h_1 walked =>
      rintro entry member rfl
      have refused := unlinkFirst_none walked entry (mem_entries.mp member)
      simp at refused
  case h_2 => cases missing

end ChainedTable

end Kumf.Library
