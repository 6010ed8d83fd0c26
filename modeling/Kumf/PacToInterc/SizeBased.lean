import Kumf.Library.PrefixCut
import Kumf.PacToInterc.RangeConf

/-! `generate_interc_conf_size_based`: a size threshold from the largest ranges, and which tiers
the rule for larger allocations is about.
-/

namespace Kumf.PacToInterc

open Kumf.Library PyText

/-- `end - start` -/
def PageRange.size {F : Type} (range : PageRange F) : Nat := (range.stop - range.start).toNat

section
variable {F : Type} [PyReal F]

/-- `f"{bytes/1024/1024:.1f}"` -/
def inMegabytes (bytes : Nat) : List Char :=
  PyReal.format1 (PyFloat.divide (PyFloat.quotient bytes 1024) 1024 : F)

omit [PyReal F] in
/-- `sum(e - s for ...)` -/
def memoryOf (ranges : List (PageRange F)) : Nat := (ranges.map PageRange.size).sum

omit [PyReal F] in
/-- `all_ranges_sorted` -/
def sortedRanges (ranges : List (PageRange F)) : List (PageRange F) :=
  ranges.insertionSort (fun range other => other.size ≤ range.size)

variable (F) in
/-- `cumulative >= total_mem * 0.7` -/
def reachesMost (totalMem cumulative : Nat) : Bool :=
  PyReal.reaches cumulative (PyReal.mul (PyFloat.ofNat totalMem) (PyFloat.decimal 7 1) : F)

/-- `size_threshold`: the size at which the loop over the sorted ranges breaks. -/
def sizeThreshold (ranges : List (PageRange F)) : Option Nat :=
  let sorted := sortedRanges ranges
  let index := cutAfter (reachesMost F (memoryOf sorted)) 0 (sorted.map PageRange.size)
  index.bind (fun index => sorted[index - 1]?.map PageRange.size)

/-- The rule for the allocations above a threshold. -/
def sizeGtRule (threshold : Nat) (fastNode : Node) : List Char :=
  "size_gt:".toList ++ str threshold ++ " = ".toList ++ fastNode.text
    ++ "  # HOT: large allocations".toList

/-- The lines in front of the threshold. -/
def sizeHeadLines (ranges : List (PageRange F)) (fastNode slowNode : Node) (now : Stamp)
    : List (List Char) :=
  ["# KUMF interc configuration (size-based, estimated from PAC)".toList,
    "# Generated: ".toList ++ now.text,
    "# Fast node: ".toList ++ fastNode.text ++ " | Slow node: ".toList ++ slowNode.text,
    "# HOT memory: ".toList ++ inMegabytes (F := F) (memoryOf (rangesOf "HOT" ranges))
      ++ " MB in ".toList ++ str (rangesOf "HOT" ranges).length ++ " ranges".toList,
    "# COLD memory: ".toList ++ inMegabytes (F := F) (memoryOf (rangesOf "COLD" ranges))
      ++ " MB in ".toList ++ str (rangesOf "COLD" ranges).length ++ " ranges".toList,
    []]

variable (F) in
/-- The lines of the threshold: with a rule from 100 MB on. -/
def thresholdLines (threshold : Option Nat) (fastNode : Node) : List (List Char) :=
  let size := threshold.getD 0
  if 100 * 1024 * 1024 ≤ size then
    ["# Auto-detected hot/cold size threshold: ".toList ++ inMegabytes (F := F) size
        ++ " MB".toList,
      "# Allocations larger than this → fast node (hot data)".toList,
      "# Smaller allocations stay local via L1 thread affinity".toList,
      [],
      sizeGtRule size fastNode]
  else
    ["# No large hot allocation detected (threshold=".toList
        ++ (if size = 0 then "N/A".toList else inMegabytes (F := F) size ++ "MB".toList)
        ++ ")".toList,
      "# Using L1 thread affinity only (no L2 routing rules)".toList]

/-- `generate_interc_conf_size_based`: the text that it writes to its output file. -/
def generateIntercConfSizeBased (ranges : List (PageRange F)) (fastNode slowNode : Node)
    (now : Stamp)
    : List Char :=
  unlines (sizeHeadLines ranges fastNode slowNode now
    ++ thresholdLines F (sizeThreshold ranges) fastNode)

-----------------------------------------------------------------------------------------
-- The rule in the text
-----------------------------------------------------------------------------------------

omit [PyReal F] in
/-- A line of the text is the rule for a threshold. -/
def EmitsSizeGt (text : List Char) (threshold : Nat) (fastNode : Node) : Prop :=
  sizeGtRule threshold fastNode ∈ text.splitOn '\n'

/-- A comment or an empty line. -/
structure Remark (line : List Char) : Prop where
  oneLine : '\n' ∉ line
  first : line.head? = none ∨ line.head? = some '#'

omit [PyReal F] in
/-- A comment without the rule's mark is a remark. -/
theorem Remark.of_unmarked {line : List Char} (comment : line.head? = some '#')
    (unmarked : Spe.Unmarked line)
    : Remark line :=
  ⟨fun member => (unmarked _ member).2 rfl, .inr comment⟩

theorem Remark.empty : Remark [] := ⟨List.not_mem_nil, .inl rfl⟩

/-- A remark is not the rule. -/
theorem Remark.ne_rule {line : List Char} (remark : Remark line) (threshold : Nat) (node : Node)
    : line ≠ sizeGtRule threshold node := by
  rintro rfl
  have first : (sizeGtRule threshold node).head? = some 's' := rfl
  rcases remark.first with none | comment
  · rw [first] at none
    cases none
  · rw [first] at comment
    exact absurd comment (by decide)

section
variable (format : ∀ x : F, Spe.Unmarked (PyReal.format1 x))
include format

/-- A number of megabytes does not spell the rule's mark. -/
theorem inMegabytes_unmarked (bytes : Nat) : Spe.Unmarked (inMegabytes (F := F) bytes) := format _

/-- The head of the file holds remarks only. -/
theorem sizeHeadLines_remarks (ranges : List (PageRange F)) (fastNode slowNode : Node)
    (now : Stamp)
    : ∀ line ∈ sizeHeadLines ranges fastNode slowNode now, Remark line := by
  have size (bytes : Nat) := inMegabytes_unmarked format bytes
  have literal {text : List Char} (checked : text.all (fun c => c ≠ 'x' && c ≠ '\n') = true) :=
    Spe.unmarked_of_check checked
  simp only [sizeHeadLines, List.forall_mem_cons]
  refine ⟨.of_unmarked rfl (literal rfl), .of_unmarked rfl ?date, .of_unmarked rfl ?nodes,
    .of_unmarked rfl ?hot, .of_unmarked rfl ?cold, .empty, nofun⟩
  case date => exact (literal rfl).append (Spe.unmarked_stamp now)
  case nodes =>
    exact (((literal rfl).append fastNode.unmarked_text).append (literal rfl)).append
      slowNode.unmarked_text
  case hot =>
    exact ((((literal rfl).append (size _)).append (literal rfl)).append
      (Spe.unmarked_str _)).append (literal rfl)
  case cold =>
    exact ((((literal rfl).append (size _)).append (literal rfl)).append
      (Spe.unmarked_str _)).append (literal rfl)

/-- Only the last line of the threshold can be a rule. -/
theorem thresholdLines_eq (threshold : Option Nat) (fastNode : Node)
    : ∃ remarks : List (List Char),
        (∀ line ∈ remarks, Remark line)
        ∧ thresholdLines F threshold fastNode
          = remarks
            ++ (if 100 * 1024 * 1024 ≤ threshold.getD 0 then
                [sizeGtRule (threshold.getD 0) fastNode]
              else
                []) := by
  have size (bytes : Nat) := inMegabytes_unmarked format bytes
  have literal {text : List Char} (checked : text.all (fun c => c ≠ 'x' && c ≠ '\n') = true) :=
    Spe.unmarked_of_check checked
  unfold thresholdLines
  dsimp only
  split
  case isTrue =>
    refine ⟨[_, _, _, _], ?_, rfl⟩
    simp only [List.forall_mem_cons]
    refine ⟨.of_unmarked rfl ?_, .of_unmarked rfl (literal rfl), .of_unmarked rfl (literal rfl),
      .empty, nofun⟩
    exact ((literal rfl).append (size _)).append (literal rfl)
  case isFalse =>
    refine ⟨[_, _], ?_, rfl⟩
    simp only [List.forall_mem_cons]
    refine ⟨.of_unmarked rfl (((literal rfl).append ?_).append (literal rfl)),
      .of_unmarked rfl (literal rfl), nofun⟩
    split
    · exact literal rfl
    · exact (size _).append (literal rfl)

end

omit [PyReal F] in
/-- The rule is one line. -/
theorem sizeGtRule_oneLine (threshold : Nat) (node : Node) : '\n' ∉ sizeGtRule threshold node :=
  fun member =>
    ((((((Spe.unmarked_of_check rfl).append (Spe.unmarked_str threshold)).append
      (Spe.unmarked_of_check rfl)).append node.unmarked_text).append
      (Spe.unmarked_of_check rfl)) _ member).2 rfl

omit [PyReal F] in
/-- The rule shows its threshold. -/
theorem sizeGtRule_injective {threshold other : Nat} {node : Node}
    (same : sizeGtRule threshold node = sizeGtRule other node)
    : threshold = other := by
  have digits (n : Nat)
      : ((sizeGtRule n node).drop 8).takeWhile (isDigitOf 10) = (Numeral.dec n).digits := by
    have shape : sizeGtRule n node
        = "size_gt:".toList ++ ((Numeral.dec n).digits
          ++ (" = ".toList ++ (node.text ++ "  # HOT: large allocations".toList))) := by
      unfold sizeGtRule
      rw [str_natCast, List.append_assoc, List.append_assoc, List.append_assoc]
      rfl
    have front : "size_gt:".toList.length = 8 := rfl
    rw [shape, List.drop_left' front]
    refine takeWhile_token (Numeral.dec n).valid ?_
    rintro c ⟨⟩
    decide
  have agree := digits threshold
  rw [same, digits other] at agree
  have values := congrArg (numeralValue 10) agree
  have value (n : Nat) : numeralValue 10 (Numeral.dec n).digits = n := Numeral.value_dec n
  rwa [value, value, eq_comm] at values

/-- The generator writes the rule for its threshold if that is at least 100 MB. -/
theorem emitsSizeGt_iff (format : ∀ x : F, Spe.Unmarked (PyReal.format1 x))
    (ranges : List (PageRange F)) (fastNode slowNode : Node) (now : Stamp) (threshold : Nat)
    : EmitsSizeGt (generateIntercConfSizeBased ranges fastNode slowNode now) threshold fastNode
      ↔ 100 * 1024 * 1024 ≤ threshold ∧ sizeThreshold ranges = some threshold := by
  obtain ⟨remarks, isRemark, lines⟩ := thresholdLines_eq format (sizeThreshold ranges) fastNode
  have head := sizeHeadLines_remarks format ranges fastNode slowNode now
  have plain : ∀ line ∈ sizeHeadLines ranges fastNode slowNode now
        ++ thresholdLines F (sizeThreshold ranges) fastNode,
      '\n' ∉ line := by
    rw [lines]
    simp only [List.forall_mem_append]
    refine ⟨fun line member => (head line member).oneLine,
      fun line member => (isRemark line member).oneLine, fun line member => ?_⟩
    split at member
    · rw [List.mem_singleton.mp member]
      exact sizeGtRule_oneLine _ _
    · cases member
  rw [EmitsSizeGt, generateIntercConfSizeBased, splitOn_unlines plain, lines]
  simp only [List.mem_append]
  constructor
  · rintro ((inHead | inRemarks | rule) | last)
    · exact absurd rfl ((head _ inHead).ne_rule threshold fastNode)
    · exact absurd rfl ((isRemark _ inRemarks).ne_rule threshold fastNode)
    · split at rule
      case isTrue large =>
        have same := sizeGtRule_injective (List.mem_singleton.mp rule)
        rw [same]
        refine ⟨large, ?_⟩
        cases found : sizeThreshold ranges with
        | none =>
            rw [found] at large
            exact absurd large (by decide)
        | some size => rfl
      case isFalse => cases rule
    · exact absurd (List.mem_singleton.mp last).symm (Remark.empty.ne_rule threshold fastNode)
  · rintro ⟨large, found⟩
    rw [found]
    refine .inl (.inr (.inr ?_))
    rw [Option.getD_some, if_pos large]
    exact List.mem_singleton_self _

end

-----------------------------------------------------------------------------------------
-- The search for the threshold, in exact arithmetic
-----------------------------------------------------------------------------------------

/-- What the ranges of at least a size hold together. -/
def memoryFrom (ranges : List (PageRange ℚ)) (size : Nat) : Nat :=
  weightWhere PageRange.size (fun range => decide (size ≤ range.size)) ranges

/-- What the ranges beyond a size hold together. -/
def memoryAbove (ranges : List (PageRange ℚ)) (size : Nat) : Nat :=
  weightWhere PageRange.size (fun range => decide (size < range.size)) ranges

/-- Some memory is 70% of all of it, or more. -/
def IsMost (ranges : List (PageRange ℚ)) (memory : Nat) : Prop :=
  7 * memoryOf ranges ≤ 10 * memory

instance (ranges : List (PageRange ℚ)) (memory : Nat) : Decidable (IsMost ranges memory) :=
  inferInstanceAs (Decidable (_ ≤ _))

/-- The test for 70 % in whole numbers. -/
theorem reachesMost_iff {totalMem cumulative : Nat}
    : reachesMost ℚ totalMem cumulative = true ↔ 7 * totalMem ≤ 10 * cumulative := by
  simp only [reachesMost, PyReal.reaches, PyReal.mul, PyFloat.ofNat, PyFloat.decimal,
    decide_eq_true_eq, Nat.cast_ofNat, pow_one]
  rw [mul_div_assoc', div_le_iff₀ (by norm_num)]
  constructor
  · intro le
    have whole : totalMem * 7 ≤ cumulative * 10 := by exact_mod_cast le
    omega
  · intro le
    have whole : totalMem * 7 ≤ cumulative * 10 := by omega
    exact_mod_cast whole

section
variable {ranges : List (PageRange ℚ)}

/-- Sorting loses no range. -/
theorem sortedRanges_perm (ranges : List (PageRange ℚ)) : (sortedRanges ranges).Perm ranges :=
  List.perm_insertionSort _ _

/-- The ranges stand from the largest to the smallest. -/
theorem sortedRanges_falling (ranges : List (PageRange ℚ))
    : (sortedRanges ranges).Pairwise (fun a b => b.size ≤ a.size) :=
  pairwise_sortedBy (fun range : PageRange ℚ => OrderDual.toDual range.size) ranges

/-- Sorting changes no total. -/
theorem memoryOf_sorted (ranges : List (PageRange ℚ))
    : memoryOf (sortedRanges ranges) = memoryOf ranges :=
  ((sortedRanges_perm ranges).map PageRange.size).sum_eq

/-- The threshold is the size of a range. -/
theorem exists_of_sizeThreshold {threshold : Nat}
    (found : sizeThreshold ranges = some threshold)
    : ∃ range ∈ ranges, range.size = threshold := by
  obtain ⟨cut, _, here⟩ := Option.bind_eq_some_iff.mp found
  obtain ⟨range, listed, same⟩ := Option.map_eq_some_iff.mp here
  exact ⟨range, (sortedRanges_perm ranges).subset (List.mem_of_getElem? listed), same⟩

/-- Of ranges that hold memory, the ranges from a size on hold most of it exactly up to the
threshold.
-/
theorem sizeThreshold_found (holds : 0 < memoryOf ranges)
    : ∃ threshold,
        sizeThreshold ranges = some threshold
        ∧ ∀ size, IsMost ranges (memoryFrom ranges size) ↔ size ≤ threshold := by
  have nonempty : (sortedRanges ranges).map PageRange.size ≠ [] := by
    intro empty
    rw [← memoryOf_sorted, memoryOf, empty] at holds
    exact absurd holds (by decide)
  have all : reachesMost ℚ (memoryOf (sortedRanges ranges))
      (0 + ((sortedRanges ranges).map PageRange.size).sum) = true := by
    rw [reachesMost_iff, memoryOf]
    omega
  obtain ⟨cut, found⟩ := cutAfter_isSome nonempty all
  obtain ⟨positive, bound, _⟩ := cutAfter_some found
  rw [List.length_map] at bound
  have inside : cut - 1 < (sortedRanges ranges).length := by omega
  refine ⟨(sortedRanges ranges)[cut - 1].size, ?_, fun size => ?_⟩
  · simp only [sizeThreshold, found, Option.bind_some, List.getElem?_eq_getElem inside,
      Option.map_some]
  · rw [memoryFrom, ← weightWhere_perm PageRange.size (sortedRanges_perm ranges), IsMost,
      ← memoryOf_sorted, ← reachesMost_iff]
    refine reached_from_iff PageRange.size ?_ ?_ (sortedRanges_falling ranges) found inside rfl
      size
    · intro m n le reached
      rw [reachesMost_iff] at reached ⊢
      omega
    · rw [← Bool.not_eq_true, reachesMost_iff, memoryOf_sorted]
      omega

theorem memoryAbove_eq (ranges : List (PageRange ℚ)) (size : Nat)
    : memoryAbove ranges size = memoryFrom ranges (size + 1) := rfl

-----------------------------------------------------------------------------------------
-- The tiers behind the rule
-----------------------------------------------------------------------------------------

/-- The rule for a threshold is about hot data and no cold data. -/
def TargetsHot (ranges : List (PageRange ℚ)) (threshold : Nat) : Prop :=
  (∃ range ∈ ranges, range.tier = "HOT".toList ∧ threshold ≤ range.size)
  ∧ ∀ range ∈ ranges, range.tier = "COLD".toList → range.size < threshold

/-- Some hot range is among the largest ranges up to 70% of the memory, and no cold one is. -/
def LargestAreHot (ranges : List (PageRange ℚ)) : Prop :=
  (∃ range ∈ ranges,
    range.tier = "HOT".toList ∧ ¬ IsMost ranges (memoryAbove ranges range.size))
  ∧ ∀ range ∈ ranges,
      range.tier = "COLD".toList → IsMost ranges (memoryAbove ranges range.size)

/-- Where the sizes from the threshold on are the first to reach 70 %, the rule is for HOT memory
exactly when the largest ranges are HOT.
-/
theorem targetsHot_iff {threshold : Nat}
    (found : ∀ size, IsMost ranges (memoryFrom ranges size) ↔ size ≤ threshold)
    : TargetsHot ranges threshold ↔ LargestAreHot ranges := by
  have above (size : Nat) : IsMost ranges (memoryAbove ranges size) ↔ size < threshold := by
    rw [memoryAbove_eq, found]
    exact Iff.rfl
  simp only [TargetsHot, LargestAreHot, above, not_lt]

/-- Every rule that the generator writes is about hot data exactly if the ranges of 100 MB and
more hold too little memory for a rule, or the largest ranges are hot.
-/
theorem sizeBased_targetsHot_iff (ranges : List (PageRange ℚ)) (fastNode slowNode : Node)
    (now : Stamp)
    : (∀ threshold,
          EmitsSizeGt (generateIntercConfSizeBased ranges fastNode slowNode now) threshold
            fastNode
          → TargetsHot ranges threshold)
      ↔ ((∀ range ∈ ranges, range.size < 100 * 1024 * 1024)
          ∨ ¬ IsMost ranges (memoryFrom ranges (100 * 1024 * 1024)))
        ∨ LargestAreHot ranges := by
  have format : ∀ x : ℚ, Spe.Unmarked (PyReal.format1 x) := fun _ => Spe.unmarked_tenths _
  simp only [emitsSizeGt_iff format]
  by_cases small : ∀ range ∈ ranges, range.size < 100 * 1024 * 1024
  · refine iff_of_true ?_ (.inl (.inl small))
    rintro threshold ⟨large, found⟩
    obtain ⟨range, member, rfl⟩ := exists_of_sizeThreshold found
    exact absurd (small range member) (not_lt.mpr large)
  have holds : 0 < memoryOf ranges := by
    simp only [not_forall, not_lt] at small
    obtain ⟨range, member, large⟩ := small
    have part : range.size ≤ memoryOf ranges :=
      List.single_le_sum (fun _ _ => Nat.zero_le _) _ (List.mem_map_of_mem member)
    omega
  obtain ⟨threshold, found, spec⟩ := sizeThreshold_found holds
  rw [or_iff_right small, spec, ← targetsHot_iff spec, found]
  constructor
  · intro targets
    by_cases large : 100 * 1024 * 1024 ≤ threshold
    · exact .inr (targets threshold ⟨large, rfl⟩)
    · exact .inl large
  · rintro holds other ⟨large, same⟩
    cases same
    exact holds.resolve_left (not_not_intro large)

end

/-- A cold range of 200 MB. -/
def coldRange : PageRange ℚ := pagesAt 0x400000 51200 "COLD"

/-- The rule for it is labelled as one for hot allocations. -/
theorem coldRange_countsAsHot
    : EmitsSizeGt
        (generateIntercConfSizeBased [coldRange] (.id 0) (.id 1) ⟨2026, 1, 1, 0, 0, 0⟩)
        209715200 (.id 0)
      ∧ ¬ TargetsHot [coldRange] 209715200 := by
  have format : ∀ x : ℚ, Spe.Unmarked (PyReal.format1 x) := fun _ => Spe.unmarked_tenths _
  constructor
  · refine (emitsSizeGt_iff format _ _ _ _ _).mpr ⟨by decide, ?_⟩
    obtain ⟨threshold, found, _⟩ := sizeThreshold_found (by decide : 0 < memoryOf [coldRange])
    obtain ⟨range, member, size⟩ := exists_of_sizeThreshold found
    rw [List.mem_singleton.mp member] at size
    rw [found, ← size]
    rfl
  · rintro ⟨⟨range, member, hot, _⟩, _⟩
    rw [List.mem_singleton.mp member] at hot
    exact absurd hot (by decide)

end Kumf.PacToInterc
