import Mathlib.Algebra.GroupWithZero.Nat
import Mathlib.Data.List.Perm.Basic
import Mathlib.Data.List.Nodup

/-! Dictionaries that keep the order of insertion, and the collection of keyed items into
one, where the items of each key are combined by an operation.
-/

namespace Kumf.Library

/-- A dictionary; the entries stand in order of insertion. -/
structure Dict (κ α : Type) where
  entries : List (κ × α)
  nodup : (entries.map Prod.fst).Nodup

namespace Dict

variable {κ α β : Type}

def empty : Dict κ α := ⟨[], List.nodup_nil⟩

def keys (dict : Dict κ α) : List κ := dict.entries.map Prod.fst

variable [DecidableEq κ]

/-- The value of a key in a list of entries. -/
def find (key : κ) : List (κ × α) → Option α
  | [] => none
  | entry :: rest => if entry.1 = key then some entry.2 else find key rest

def get? (dict : Dict κ α) (key : κ) : Option α := find key dict.entries

/-- Change the value of a key in place, or append one. -/
def put (key : κ) (change : Option α → α) : List (κ × α) → List (κ × α)
  | [] => [(key, change none)]
  | entry :: rest =>
      if entry.1 = key then
        (entry.1, change (some entry.2)) :: rest
      else
        entry :: put key change rest

/-- A known key keeps its place, a new one goes last. -/
theorem keys_put (key : κ) (change : Option α → α) (entries : List (κ × α))
    : (put key change entries).map Prod.fst
      = if key ∈ entries.map Prod.fst then entries.map Prod.fst
        else entries.map Prod.fst ++ [key] := by
  induction entries with
  | nil => rfl
  | cons entry rest ih =>
      by_cases same : entry.1 = key
      · simp [put, same]
      · have other : ¬ key = entry.1 := fun equal => same equal.symm
        simp only [put, same, if_false, List.map_cons, ih, List.mem_cons, other, false_or]
        split <;> rfl

/-- Only the changed key finds something else. -/
theorem find_put (key other : κ) (change : Option α → α) (entries : List (κ × α))
    : find other (put key change entries)
      = if key = other then some (change (find key entries)) else find other entries := by
  induction entries with
  | nil => rfl
  | cons entry rest ih =>
      by_cases same : entry.1 = key
      · by_cases equal : key = other <;> simp [put, find, same, equal]
      · by_cases equal : key = other
        · subst equal
          simp [put, find, same, ih]
        · simp [put, find, same, ih, equal]

/-- `dict[key] = change(..)` on the value that the key has, if any. -/
def upsert (dict : Dict κ α) (key : κ) (change : Option α → α) : Dict κ α where
  entries := put key change dict.entries
  nodup := by
    rw [keys_put]
    split
    · exact dict.nodup
    case isFalse absent =>
        refine List.nodup_append.mpr ⟨dict.nodup, List.nodup_singleton key, ?_⟩
        intro k member l inLast same
        rw [List.mem_singleton.mp inLast] at same
        exact absent (same ▸ member)

@[simp] theorem get?_empty (key : κ) : (empty : Dict κ α).get? key = none := rfl

/-- Only the changed key has a new value. -/
theorem get?_upsert (dict : Dict κ α) (key other : κ) (change : Option α → α)
    : (dict.upsert key change).get? other
      = if key = other then some (change (dict.get? key)) else dict.get? other :=
  find_put key other change dict.entries

/-- `dict.update(entries)`, with the entries converted. -/
def overlay {κ' β : Type} (name : κ' → κ) (convert : β → α) (dict : Dict κ α)
    (entries : List (κ' × β))
    : Dict κ α :=
  entries.foldl (fun dict entry => dict.upsert (name entry.1) (fun _ => convert entry.2)) dict

section
variable {κ' β : Type} {name : κ' → κ} {convert : β → α}

/-- A key that no entry names keeps its value. -/
theorem get?_overlay_other {key : κ} {entries : List (κ' × β)} (dict : Dict κ α)
    (other : ∀ entry ∈ entries, name entry.1 ≠ key)
    : (overlay name convert dict entries).get? key = dict.get? key := by
  induction entries generalizing dict with
  | nil => rfl
  | cons entry rest ih =>
      have first := other entry List.mem_cons_self
      rw [overlay, List.foldl_cons]
      apply (ih _ (fun later member => other later (List.mem_cons_of_mem _ member))).trans
      rw [get?_upsert, if_neg first]

/-- A key reads as its entry, and where there is none as before. -/
theorem get?_overlay [DecidableEq κ'] (distinct : Function.Injective name) (dict : Dict κ α)
    {entries : List (κ' × β)} (nodup : (entries.map Prod.fst).Nodup) (key : κ')
    : (overlay name convert dict entries).get? (name key)
      = ((find key entries).map convert).or (dict.get? (name key)) := by
  induction entries generalizing dict with
  | nil => rfl
  | cons entry rest ih =>
      rw [List.map_cons, List.nodup_cons] at nodup
      rw [overlay, List.foldl_cons, find]
      by_cases same : entry.1 = key
      · have others : ∀ later ∈ rest, name later.1 ≠ name key := by
          intro later member again
          apply nodup.1
          rw [same, ← distinct again]
          exact List.mem_map_of_mem member
        apply (get?_overlay_other _ others).trans
        rw [get?_upsert, if_pos (congrArg name same), if_pos same]
        rfl
      · apply (ih _ nodup.2).trans
        rw [get?_upsert, if_neg (fun again => same (distinct again)), if_neg same]

end

/-- A change of one key adds an entry or replaces its own. -/
theorem mem_put {key : κ} {change : Option α → α} {entries : List (κ × α)}
    {entry : κ × α}
    (member : entry ∈ put key change entries)
    : entry ∈ entries
      ∨ ∃ old : Option α, (∀ value ∈ old, (key, value) ∈ entries)
        ∧ entry = (key, change old) := by
  induction entries with
  | nil => exact .inr ⟨none, nofun, List.mem_singleton.mp member⟩
  | cons first rest ih =>
      by_cases same : first.1 = key
      · simp only [put, same, if_true] at member
        rcases List.mem_cons.mp member with rfl | inRest
        · refine .inr ⟨some first.2, ?_, rfl⟩
          rintro _ ⟨⟩
          rw [← same]
          exact List.mem_cons_self
        · exact .inl (List.mem_cons_of_mem first inRest)
      · simp only [put, same, if_false] at member
        rcases List.mem_cons.mp member with rfl | inRest
        · exact .inl List.mem_cons_self
        · rcases ih inRest with older | ⟨old, present, changed⟩
          · exact .inl (List.mem_cons_of_mem first older)
          · exact .inr ⟨old, fun value given => List.mem_cons_of_mem first (present value given),
              changed⟩

/-- A change that adds to the weight of one value adds to the weight of all. -/
theorem sum_put {key : κ} {change : Option α → α} {weight : α → Nat} {more : Nat}
    (fresh : weight (change none) = more)
    (adds : ∀ value, weight (change (some value)) = weight value + more)
    (entries : List (κ × α))
    : ((put key change entries).map (fun entry => weight entry.2)).sum
      = (entries.map (fun entry => weight entry.2)).sum + more := by
  induction entries with
  | nil => simp [put, fresh]
  | cons first rest ih =>
      by_cases same : first.1 = key
      · simp only [put, same, if_true, List.map_cons, List.sum_cons, adds]
        omega
      · simp only [put, same, if_false, List.map_cons, List.sum_cons, ih]
        omega

/-- The values that items give to a key, in order. -/
def valuesAt (key : κ) (items : List (κ × β)) : List β :=
  items.filterMap (fun item => if item.1 = key then some item.2 else none)

theorem valuesAt_cons (key : κ) (item : κ × β) (items : List (κ × β))
    : valuesAt key (item :: items)
      = if item.1 = key then item.2 :: valuesAt key items else valuesAt key items := by
  by_cases same : item.1 = key <;> simp [valuesAt, same]

/-- The values of a key, front then back. -/
theorem valuesAt_append (key : κ) (front back : List (κ × β))
    : valuesAt key (front ++ back) = valuesAt key front ++ valuesAt key back :=
  List.filterMap_append

/-- The values of a key, piece by piece. -/
theorem valuesAt_flatMap {ι : Type} (key : κ) (pieces : List ι) (items : ι → List (κ × β))
    : valuesAt key (pieces.flatMap items)
      = pieces.flatMap (fun piece => valuesAt key (items piece)) := by
  induction pieces with
  | nil => rfl
  | cons piece pieces ih => simp [valuesAt_append, ih]

/-- A key has at most one entry. -/
theorem valuesAt_entries (dict : Dict κ α) (key : κ)
    : valuesAt key dict.entries = (dict.get? key).toList := by
  obtain ⟨entries, nodup⟩ := dict
  unfold get?
  dsimp only
  induction entries with
  | nil => rfl
  | cons entry rest ih =>
      obtain ⟨unseen, nodupRest⟩ := List.nodup_cons.mp nodup
      rw [valuesAt_cons, ih nodupRest, find]
      split
      case isFalse => rfl
      case isTrue same =>
          have absent : find key rest = none := by
            rw [← Option.toList_eq_nil_iff, ← ih nodupRest]
            refine List.filterMap_eq_nil_iff.mpr (fun other member => if_neg ?_)
            intro equal
            exact unseen (List.mem_map.mpr ⟨other, member, equal.trans same.symm⟩)
          rw [absent]
          rfl

/-- Of what the entries give, tagged with their keys, a key has the part of its own entry. -/
theorem filter_flatMap_entries {γ : Type} {tag : γ → κ} {given : κ × α → List γ}
    (tagged : ∀ entry, ∀ item ∈ given entry, tag item = entry.1) (dict : Dict κ α)
    (key : κ)
    : (dict.entries.flatMap given).filter (fun item => tag item = key)
      = (dict.get? key).toList.flatMap (fun value => given (key, value)) := by
  rw [← valuesAt_entries]
  induction dict.entries with
  | nil => rfl
  | cons entry rest ih =>
      rw [List.flatMap_cons, List.filter_append, ih, valuesAt_cons]
      split
      case isTrue same =>
          have all : (given entry).filter (fun item => tag item = key) = given entry :=
            List.filter_eq_self.mpr
              (fun item member => decide_eq_true ((tagged entry item member).trans same))
          rw [all, List.flatMap_cons, ← same]
      case isFalse other =>
          have none : (given entry).filter (fun item => tag item = key) = [] :=
            List.filter_eq_nil_iff.mpr (fun item member => by
              rw [tagged entry item member]
              simpa using other)
          rw [none, List.nil_append]

section
variable (op : α → β → α) (unit : α)

/-- Add items to a dictionary one by one, a missing key starting from the unit. -/
def collect (dict : Dict κ α) (items : List (κ × β)) : Dict κ α :=
  items.foldl (fun dict item => dict.upsert item.1 (fun old => op (old.getD unit) item.2)) dict

/-- What a key holds after the given values: nothing, or their combination. -/
def total (values : List β) : Option α :=
  if values.isEmpty then none else some (values.foldl op unit)

/-- Each key ends up with the values that the items gave to it. -/
theorem get?_collect (dict : Dict κ α) (items : List (κ × β)) (key : κ)
    : (collect op unit dict items).get? key
      = if (valuesAt key items).isEmpty then dict.get? key
        else some ((valuesAt key items).foldl op ((dict.get? key).getD unit)) := by
  induction items generalizing dict with
  | nil => rfl
  | cons item items ih =>
      rw [collect, List.foldl_cons, ← collect, ih, get?_upsert, valuesAt_cons]
      by_cases same : item.1 = key
      · cases later : valuesAt key items <;> simp [same]
      · simp [same]

/-- A key holds the total of its values. -/
theorem get?_collect_empty (items : List (κ × β)) (key : κ)
    : (collect op unit empty items).get? key = total op unit (valuesAt key items) :=
  get?_collect op unit empty items key

/-- A key of a collection is the key of an item. -/
theorem exists_item_of_mem {items : List (κ × β)} {entry : κ × α}
    (member : entry ∈ (collect op unit empty items).entries)
    : ∃ item ∈ items, item.1 = entry.1 := by
  have inEntries : entry.2 ∈ valuesAt entry.1 (collect op unit empty items).entries :=
    List.mem_filterMap.mpr ⟨entry, member, if_pos rfl⟩
  rw [valuesAt_entries, get?_collect_empty, total] at inEntries
  by_cases none : (valuesAt entry.1 items).isEmpty = true
  · simp [none] at inEntries
  · obtain ⟨value, given⟩ := List.exists_mem_of_ne_nil _ (by simpa using none)
    obtain ⟨item, inItems, same⟩ := List.mem_filterMap.mp given
    by_cases key : item.1 = entry.1
    · exact ⟨item, inItems, key⟩
    · simp [key] at same

/-- What holds of every combination holds of every value of a collection. -/
theorem forall_collect {holds : α → Prop} {items : List (κ × β)} {dict : Dict κ α}
    (kept : ∀ item ∈ items, ∀ old : Option α, (∀ value ∈ old, holds value)
      → holds (op (old.getD unit) item.2))
    (start : ∀ entry ∈ dict.entries, holds entry.2)
    : ∀ entry ∈ (collect op unit dict items).entries, holds entry.2 := by
  induction items generalizing dict with
  | nil => exact start
  | cons item items ih =>
      rw [collect, List.foldl_cons, ← collect]
      refine ih (fun other member => kept other (List.mem_cons_of_mem item member)) ?_
      intro entry member
      rcases mem_put member with older | ⟨old, present, rfl⟩
      · exact start entry older
      · exact kept item List.mem_cons_self old (fun value given => start _ (present value given))

/-- A weight that the operation adds up is that of all items together. -/
theorem sum_collect (weight : α → Nat) (weigh : β → Nat) (none : weight unit = 0)
    (adds : ∀ value item, weight (op value item) = weight value + weigh item)
    (dict : Dict κ α) (items : List (κ × β))
    : ((collect op unit dict items).entries.map (fun entry => weight entry.2)).sum
      = (dict.entries.map (fun entry => weight entry.2)).sum
        + (items.map (fun item => weigh item.2)).sum := by
  induction items generalizing dict with
  | nil => rfl
  | cons item items ih =>
      have first : weight (op unit item.2) = weigh item.2 := by rw [adds, none, Nat.zero_add]
      rw [collect, List.foldl_cons, ← collect, ih, upsert,
        sum_put first (fun value => adds value item.2), List.map_cons, List.sum_cons]
      omega

variable {op unit}

/-- Equal totals of something are equal folds. -/
theorem foldl_of_total {left right : List β} (same : total op unit left = total op unit right)
    (nonempty : left ≠ [])
    : left.foldl op unit = right.foldl op unit := by
  have given : left.isEmpty = false := by simpa using nonempty
  simp only [total, given, Bool.false_eq_true, if_false] at same
  split at same
  · cases same
  · exact Option.some.inj same

/-- When the order of two items does not matter, that of all does not. -/
theorem total_perm [RightCommutative op] {left right : List β} (perm : left.Perm right)
    : total op unit left = total op unit right := by
  rw [total, total, perm.foldl_eq, perm.isEmpty_eq]

end

section
variable (op : α → α → α) (unit : α) [Std.Associative op] [Std.LawfulIdentity op unit]

/-- The start of a fold can be joined on last. -/
theorem foldl_start (values : List α) (start : α)
    : values.foldl op start = op start (values.foldl op unit) := by
  have fromUnit : op start unit = start := Std.LawfulRightIdentity.right_id start
  conv_lhs => rw [← fromUnit]
  exact List.foldl_assoc

/-- Combining what each part combines to is combining everything. -/
theorem foldl_flatMap_total {ι : Type} (parts : List ι) (values : ι → List α)
    : (parts.flatMap values).foldl op unit
      = (parts.filterMap (fun part => total op unit (values part))).foldl op unit := by
  induction parts with
  | nil => rfl
  | cons part parts ih =>
      rw [List.flatMap_cons, List.foldl_append, foldl_start op unit, ih]
      cases given : values part with
      | nil => simp [total, given, Std.LawfulLeftIdentity.left_id]
      | cons value more =>
          have nonempty : total op unit (values part) = some ((values part).foldl op unit) := by
            simp [total, given]
          have first : op unit ((values part).foldl op unit) = (values part).foldl op unit :=
            Std.LawfulLeftIdentity.left_id _
          rw [List.filterMap_cons, nonempty, ← given, List.foldl_cons, first]
          exact (foldl_start op unit _ _).symm

/-- A total of parts is the total of the parts' totals. -/
theorem total_flatMap {ι : Type} (parts : List ι) (values : ι → List α)
    : total op unit (parts.flatMap values)
      = total op unit (parts.filterMap (fun part => total op unit (values part))) := by
  have empty : (parts.flatMap values).isEmpty
      = (parts.filterMap (fun part => total op unit (values part))).isEmpty := by
    induction parts with
    | nil => rfl
    | cons part parts ih =>
        cases given : values part <;> simp [total, given, ih]
  rw [total, total, empty, foldl_flatMap_total]

end

end Dict

end Kumf.Library
