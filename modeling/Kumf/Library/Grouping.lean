import Mathlib.Data.List.Basic
import Mathlib.Data.List.Nodup
import Mathlib.Data.List.Pairwise
import Mathlib.Data.List.Perm.Basic

/-! Greedy grouping: the first item takes in what is near to it, and what is left is grouped in
the same way. The groups are those of the relation exactly when it is transitive.
-/

namespace Kumf.Library

section
variable {α : Type} (near : α → α → Bool)

/-- The groups of the items that are kept; the others are in earlier groups. -/
def groupWhere (keep : α → Bool) : List α → List (List α)
  | [] => []
  | first :: rest =>
      if keep first then
        (first :: rest.filter (fun item => keep item && near first item))
          :: groupWhere (fun item => keep item && !near first item) rest
      else
        groupWhere keep rest

theorem groupWhere_congr {keep other : α → Bool} {items : List α}
    (same : ∀ item ∈ items, keep item = other item)
    : groupWhere near keep items = groupWhere near other items := by
  induction items generalizing keep other with
  | nil => rfl
  | cons first rest ih =>
      have restSame : ∀ item ∈ rest, keep item = other item := fun item member =>
        same item (List.mem_cons_of_mem first member)
      have taken : rest.filter (fun item => keep item && near first item)
          = rest.filter (fun item => other item && near first item) :=
        List.filter_congr (fun item member => by rw [restSame item member])
      have left : groupWhere near (fun item => keep item && !near first item) rest
          = groupWhere near (fun item => other item && !near first item) rest :=
        ih (fun item member => by rw [restSame item member])
      rw [groupWhere, groupWhere, same first List.mem_cons_self, taken, left, ih restSame]

/-- Items of one group are near to each other, items of two groups are not. -/
structure Separates (groups : List (List α)) : Prop where
  inside : ∀ group ∈ groups, ∀ a ∈ group, ∀ b ∈ group, a ≠ b → near a b
  outside
    : ∀ group ∈ groups,
        ∀ other ∈ groups, group ≠ other → ∀ a ∈ group, ∀ b ∈ other, ¬ near a b

/-- A group starts with an item that all its items are near to. -/
def Led (group : List α) : Prop :=
  ∃ first rest, group = first :: rest ∧ ∀ item ∈ rest, near first item

theorem groupWhere_perm (keep : α → Bool) (items : List α)
    : (groupWhere near keep items).flatten.Perm (items.filter keep) := by
  induction items generalizing keep with
  | nil => exact .nil
  | cons first rest ih =>
      rw [groupWhere]
      split
      case isTrue kept =>
          have taken : rest.filter (fun item => keep item && near first item)
              = (rest.filter keep).filter (near first) := by
            simp only [List.filter_filter, Bool.and_comm]
          have left : rest.filter (fun item => keep item && !near first item)
              = (rest.filter keep).filter (fun item => !near first item) := by
            simp only [List.filter_filter, Bool.and_comm]
          rw [List.filter_cons_of_pos kept, List.flatten_cons, List.cons_append, taken]
          refine (((ih _).append_left _).trans ?_).cons first
          rw [left]
          exact List.filter_append_perm (near first) (rest.filter keep)
      case isFalse skipped =>
          rw [List.filter_cons_of_neg skipped]
          exact ih keep

theorem mem_groupWhere {keep : α → Bool} {items : List α} {item : α}
    : (∃ group ∈ groupWhere near keep items, item ∈ group)
      ↔ item ∈ items ∧ keep item := by
  rw [← List.mem_flatten, (groupWhere_perm near keep items).mem_iff, List.mem_filter]

theorem groupWhere_led (keep : α → Bool) (items : List α)
    : ∀ group ∈ groupWhere near keep items, Led near group := by
  induction items generalizing keep with
  | nil => exact fun group member => absurd member List.not_mem_nil
  | cons first rest ih =>
      rw [groupWhere]
      split
      case isTrue =>
          intro group member
          rcases List.mem_cons.mp member with rfl | later
          · refine ⟨first, _, rfl, fun item taken => ?_⟩
            exact (Bool.and_eq_true_iff.mp (List.mem_filter.mp taken).2).2
          · exact ih _ group later
      case isFalse => exact ih keep

/-- No later group has an item near to the first item of a group. -/
theorem groupWhere_apart (keep : α → Bool) (items : List α)
    : (groupWhere near keep items).Pairwise
        (fun group other =>
          ∀ first rest, group = first :: rest → ∀ item ∈ other, ¬ near first item) := by
  induction items generalizing keep with
  | nil => exact .nil
  | cons first rest ih =>
      rw [groupWhere]
      split
      case isTrue =>
          refine List.pairwise_cons.mpr ⟨?_, ih _⟩
          rintro other later _ _ ⟨⟩ item member
          have left := ((mem_groupWhere near).mp ⟨other, later, member⟩).2
          simpa using (Bool.and_eq_true_iff.mp left).2
      case isFalse => exact ih keep

/-- The groups of all items. -/
def groupItems (items : List α) : List (List α) := groupWhere near (fun _ => true) items

theorem groupItems_perm (items : List α) : (groupItems near items).flatten.Perm items :=
  (groupWhere_perm near (fun _ => true) items).trans (.of_eq (List.filter_true items))

variable {near} {items : List α}

theorem exists_groupItems (near : α → α → Bool) {item : α} (listed : item ∈ items)
    : ∃ group ∈ groupItems near items, item ∈ group :=
  (mem_groupWhere near).mpr ⟨listed, rfl⟩

theorem mem_of_groupItems {group : List α} (member : group ∈ groupItems near items) {item : α}
    (its : item ∈ group)
    : item ∈ items :=
  ((mem_groupWhere near).mp ⟨group, member, its⟩).1

/-- Where nearness is transitive, all items of a group are near to each other. -/
theorem groupItems_inside (symm : ∀ a ∈ items, ∀ b ∈ items, near a b → near b a)
    (transitive : ∀ a ∈ items, ∀ b ∈ items, ∀ c ∈ items,
      a ≠ c → near a b → near b c → near a c)
    : ∀ group ∈ groupItems near items, ∀ a ∈ group, ∀ b ∈ group, a ≠ b
      → near a b := by
  intro group member a aOf b bOf apart
  obtain ⟨first, rest, rfl, led⟩ := groupWhere_led near _ items group member
  have firstIn := mem_of_groupItems member List.mem_cons_self
  have aIn := mem_of_groupItems member aOf
  have bIn := mem_of_groupItems member bOf
  rcases List.mem_cons.mp aOf with rfl | aRest
  · rcases List.mem_cons.mp bOf with rfl | bRest
    · exact absurd rfl apart
    · exact led b bRest
  · have back := symm first firstIn a aIn (led a aRest)
    rcases List.mem_cons.mp bOf with rfl | bRest
    · exact back
    · exact transitive a aIn first firstIn b bIn apart back (led b bRest)

/-- Where nearness is transitive, an item near to one of an earlier group would be near to the
first item of that group.
-/
theorem groupItems_outside (distinct : items.Nodup)
    (symm : ∀ a ∈ items, ∀ b ∈ items, near a b → near b a)
    (transitive : ∀ a ∈ items, ∀ b ∈ items, ∀ c ∈ items,
      a ≠ c → near a b → near b c → near a c)
    : ∀ group ∈ groupItems near items,
        ∀ other ∈ groupItems near items, group ≠ other
            → ∀ a ∈ group, ∀ b ∈ other, ¬ near a b := by
  have disjoint := (List.nodup_flatten.mp ((groupItems_perm near items).nodup_iff.mpr distinct)).2
  have later : (groupItems near items).Pairwise
      (fun group other => ∀ a ∈ group, ∀ b ∈ other, ¬ near a b ∧ ¬ near b a) := by
    refine (disjoint.and (groupWhere_apart near _ items)).imp_of_mem ?_
    intro group other member otherMember ⟨without, apart⟩ a aOf b bOf
    obtain ⟨first, rest, rfl, led⟩ := groupWhere_led near _ items group member
    have away := apart first rest rfl b bOf
    have firstIn := mem_of_groupItems member List.mem_cons_self
    have aIn := mem_of_groupItems member aOf
    have bIn := mem_of_groupItems otherMember bOf
    have differs : first ≠ b := fun same => without List.mem_cons_self (same ▸ bOf)
    have far : ¬ near a b := by
      intro ab
      rcases List.mem_cons.mp aOf with rfl | aRest
      · exact away ab
      · exact away (transitive first firstIn a aIn b bIn differs (led a aRest) ab)
    exact ⟨far, fun ba => far (symm b bIn a aIn ba)⟩
  have symmetric : Std.Symm (fun group other : List α =>
      ∀ a ∈ group, ∀ b ∈ other, ¬ near a b ∧ ¬ near b a) :=
    ⟨fun _ _ both b bOf a aOf => (both a aOf b bOf).symm⟩
  intro group member other otherMember differ a aOf b bOf
  exact (later.forall member otherMember differ a aOf b bOf).1

/-- The groups separate near from far exactly when nearness is transitive on the items. -/
theorem groupItems_separates_iff (distinct : items.Nodup)
    (symm : ∀ a ∈ items, ∀ b ∈ items, near a b → near b a)
    : Separates near (groupItems near items)
      ↔ ∀ a ∈ items,
          ∀ b ∈ items, ∀ c ∈ items, a ≠ c → near a b → near b c → near a c := by
  constructor
  · intro separates a aIn b bIn c cIn apart ab bc
    obtain ⟨group, groupIn, aOf⟩ := exists_groupItems near aIn
    obtain ⟨middle, middleIn, bOf⟩ := exists_groupItems near bIn
    obtain ⟨last, lastIn, cOf⟩ := exists_groupItems near cIn
    have first : group = middle := by
      by_contra other
      exact separates.outside group groupIn middle middleIn other a aOf b bOf ab
    have second : middle = last := by
      by_contra other
      exact separates.outside middle middleIn last lastIn other b bOf c cOf bc
    subst first second
    exact separates.inside group groupIn a aOf c cOf apart
  · intro transitive
    exact ⟨groupItems_inside symm transitive, groupItems_outside distinct symm transitive⟩

end

end Kumf.Library
