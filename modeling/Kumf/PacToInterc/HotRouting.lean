import Kumf.Interc.ConfLines
import Kumf.Interc.SizeFiles
import Kumf.PacToInterc.ConfComments

/-! The generated configuration read back by `load_rules`: one half-open interval of sizes,
which leaves out the largest hot size and takes in every size between two hot ones.
-/

namespace Kumf.PacToInterc

open Kumf.Library PyText

variable {F : Type} [PyFloat F]

/-- The size rules after `load_rules` has read a configuration, in a process without rules. -/
def loadedSizeRules (stale conf : List Char) : List Interc.SizeRule :=
  (Interc.loadRules stale (some (utf8 conf)) Interc.RuleState.initial).tables.sizeRules

/-- The node that `load_rules` stores for a node argument. -/
def Node.stored (node : Node) : Int := Interc.nodeOf (node.text.take 31)

/-- Every line of the configuration fits the line buffer of `load_rules`. The names that prof
prints have at most 127 bytes.
-/
def ShortLines (allocPac : List (AllocPac F)) (fastNode slowNode : Node) (now : Stamp) : Prop :=
  ∀ line ∈ confLines allocPac fastNode slowNode now, (utf8 line).length < 511

/-- What the texts of node arguments consist of. -/
theorem Node.text_plain (node : Node)
    : node.text ≠ [] ∧ ∀ c ∈ node.text, isCSpace c = false ∧ c ≠ nul := by
  have digits (n : Nat) : ∀ c ∈ Nat.toDigits 10 n, isCSpace c = false ∧ c ≠ nul := by
    intro c member
    have digit := isDigitOf_toDigits (by omega) (by omega) n c member
    exact ⟨(isDigitOf_ten_ne digit).1, digit_ne_nul digit⟩
  cases node with
  | home => exact ⟨List.cons_ne_nil _ _, by simp [text, isCSpace, nul]⟩
  | id n =>
      rw [text, str]
      split
      · refine ⟨List.cons_ne_nil _ _, List.forall_mem_cons.mpr ⟨by decide, digits _⟩⟩
      · exact ⟨Nat.toDigits_ne_nil, digits _⟩

theorem Comment.skipped {line : List Char} (comment : line = [] ∨ Comment line)
    : Interc.Skipped (utf8 line) := by
  rcases comment with rfl | comment
  · exact .inl rfl
  · cases line with
    | nil => exact .inl rfl
    | cons c line =>
        have mark : c = '#' := Option.some.inj comment.mark
        have encoded : utf8Char '#' = ['#'] := utf8Char_ascii (by decide)
        rw [mark, utf8, List.flatMap_cons, encoded]
        exact .inr rfl

/-- The rule line loads as the half-open interval between the two sizes. -/
theorem loadLine_rangeLine {hotMin hotMax : Nat} (fastNode : Node) (stale : List Char)
    (minFits : hotMin < 2 ^ 64) (maxFits : hotMax < 2 ^ 64)
    : (Interc.loadLine {} (fgetsStore stale (rangeLine hotMin hotMax fastNode ++ ['\n']))).sizeRules
      = [⟨hotMin, hotMax, fastNode.stored⟩] := by
  obtain ⟨nonempty, plain⟩ := fastNode.text_plain
  have whole : rangeLine hotMin hotMax fastNode ++ ['\n']
      = "size_range:".toList
        ++ (((Numeral.dec hotMin).digits ++ '-' :: (Numeral.dec hotMax).digits)
          ++ (" = ".toList
            ++ (fastNode.text ++ ("  # HOT data -> fast node".toList ++ ['\n'])))) := by
    have dash : "-".toList = ['-'] := rfl
    unfold rangeLine
    simp only [str_natCast, dash, Numeral.dec, List.append_assoc, List.cons_append,
      List.nil_append]
  have column : sscanf [.blank, .word 31] (' ' :: cString
        (fastNode.text ++ ("  # HOT data -> fast node".toList ++ ['\n'])))
      = [.str (fastNode.text.take 31)] := by
    have content : cString (fastNode.text ++ ("  # HOT data -> fast node".toList ++ ['\n']))
        = fastNode.text ++ ' ' :: " # HOT data -> fast node\n".toList := by
      rw [cString_append _ (fun member => (plain _ member).2 rfl)]
      rfl
    rw [content]
    exact Interc.sscanf_column nonempty (fun c member => (plain c member).1)
  rw [Interc.loadLine_rangeColumn (Numeral.dec hotMin) (Numeral.dec hotMax) stale {}
    (by rwa [Numeral.value_dec]) (by rwa [Numeral.value_dec]) column whole,
    Interc.RuleTables.addSizeRule_of_room (by decide), Numeral.value_dec, Numeral.value_dec]
  rfl

-----------------------------------------------------------------------------------------
-- The whole file leaves one rule at most
-----------------------------------------------------------------------------------------

omit [PyFloat F] in
theorem hotSizes_bounds {allocPac : List (AllocPac F)} {size : Nat}
    (member : size ∈ hotSizes allocPac)
    : 4096 ≤ size ∧ size < 2 ^ 64 := by
  obtain ⟨a, _, rfl⟩ := List.mem_map.mp member
  exact ⟨a.large, a.fits⟩

/-- The bounds of the rule are hot sizes. -/
theorem bounds_mem {sizes : List Nat} (nonempty : sizes ≠ [])
    : (sizes.min?.getD 0 ∈ sizes ∧ ∀ size ∈ sizes, sizes.min?.getD 0 ≤ size)
      ∧ (sizes.max?.getD 0 ∈ sizes ∧ ∀ size ∈ sizes, size ≤ sizes.max?.getD 0) := by
  obtain ⟨low, isMin⟩ := Option.isSome_iff_exists.mp (List.isSome_min?_of_ne_nil nonempty)
  obtain ⟨high, isMax⟩ := Option.isSome_iff_exists.mp (List.isSome_max?_of_ne_nil nonempty)
  rw [isMin, isMax]
  exact ⟨List.min?_eq_some_iff.mp isMin, List.max?_eq_some_iff.mp isMax⟩

/-- A line without a newline that is short in UTF-8 is read whole. -/
theorem fitsBuffer_utf8 {line : List Char} (oneLine : '\n' ∉ line)
    (short : (utf8 line).length < 511)
    : Interc.FitsBuffer (utf8 line) where
  oneLine := fun member => oneLine (mem_of_mem_utf8 (by decide) member)
  short := short

theorem fitsBuffer_comment {line : List Char} (comment : line = [] ∨ Comment line)
    (short : (utf8 line).length < 511)
    : Interc.FitsBuffer (utf8 line) := by
  rcases comment with rfl | comment
  · exact fitsBuffer_utf8 List.not_mem_nil short
  · exact fitsBuffer_utf8 comment.oneLine short

theorem loadedSizeRules_lines (stale : List Char) (lines : List (List Char))
    : loadedSizeRules stale (unlines lines)
      = (Interc.loadText stale {} (unlines (lines.map utf8))).sizeRules := by
  rw [loadedSizeRules, utf8_unlines]
  rfl

/-- The table that the configuration leaves: one rule if there is a hot size, else none. -/
theorem loadedSizeRules_eq {allocPac : List (AllocPac F)} {fastNode slowNode : Node}
    {now : Stamp} (short : ShortLines allocPac fastNode slowNode now) (stale : List Char)
    : loadedSizeRules stale (generateIntercConfAllocBased allocPac fastNode slowNode now)
      = if hotSizes allocPac = [] then []
        else [⟨(hotSizes allocPac).min?.getD 0, (hotSizes allocPac).max?.getD 0,
          fastNode.stored⟩] := by
  rw [generateIntercConfAllocBased, loadedSizeRules_lines]
  rw [ShortLines] at short
  rcases confLines_eq allocPac fastNode slowNode now with ⟨none, lines⟩
    | ⟨comment, isComment, some, lines⟩
  · rw [lines] at short ⊢
    have comments : ∀ line ∈ headLines allocPac fastNode slowNode now ++ restLines allocPac,
        line = [] ∨ Comment line := by
      intro line member
      rcases List.mem_append.mp member with head | rest
      · exact headLines_comments allocPac fastNode slowNode now line head
      · exact restLines_comments allocPac line rest
    rw [if_pos none, Interc.loadText_skipped stale {}]
    · exact List.forall_mem_map.mpr
        (fun line member => fitsBuffer_comment (comments line member) (short line member))
    · exact List.forall_mem_map.mpr
        (fun line member => Comment.skipped (comments line member))
  · rw [lines] at short ⊢
    let rule := rangeLine ((hotSizes allocPac).min?.getD 0) ((hotSizes allocPac).max?.getD 0)
      fastNode
    have before : ∀ line ∈ headLines allocPac fastNode slowNode now ++ [comment],
        line = [] ∨ Comment line := by
      intro line member
      rcases List.mem_append.mp member with head | last
      · exact headLines_comments allocPac fastNode slowNode now line head
      · rw [List.mem_singleton.mp last]
        exact .inr isComment
    have behind := restLines_comments allocPac
    have tidy : Tidy rule := tidy_rangeLine _ _ fastNode
    have fits : ∀ line ∈ (headLines allocPac fastNode slowNode now ++ [comment])
        ++ rule :: restLines allocPac, Interc.FitsBuffer (utf8 line) := by
      intro line member
      rcases List.mem_append.mp member with front | back
      · exact fitsBuffer_comment (before line front) (short line member)
      · rcases List.mem_cons.mp back with rfl | rest
        · exact fitsBuffer_utf8 tidy.oneLine (short rule member)
        · exact fitsBuffer_comment (behind line rest) (short line member)
    obtain ⟨⟨minMem, _⟩, maxMem, _⟩ := bounds_mem some
    have encoded := List.forall_mem_map.mpr fits
    rw [List.map_append, List.map_cons, utf8_ascii tidy.ascii] at encoded
    obtain ⟨buffer, loaded⟩ := Interc.loadText_oneRule stale {} encoded
      (List.forall_mem_map.mpr (fun line member => Comment.skipped (before line member)))
      (List.forall_mem_map.mpr (fun line member => Comment.skipped (behind line member)))
    rw [List.map_append, List.map_cons, utf8_ascii tidy.ascii, loaded, if_neg some]
    exact loadLine_rangeLine fastNode buffer (hotSizes_bounds minMem).2 (hotSizes_bounds maxMem).2

/-- A size is routed exactly when it lies from some hot size on and below another one. -/
theorem matchSize_loaded {allocPac : List (AllocPac F)} {fastNode slowNode : Node} {now : Stamp}
    (short : ShortLines allocPac fastNode slowNode now) (stale : List Char) (sz : Nat)
    : Interc.matchSize
        (loadedSizeRules stale (generateIntercConfAllocBased allocPac fastNode slowNode now)) sz
      = if (∃ hot ∈ hotSizes allocPac, hot ≤ sz)
        ∧ (∃ hot ∈ hotSizes allocPac, sz < hot) then
          fastNode.stored
        else
          -1 := by
  rw [loadedSizeRules_eq short]
  by_cases none : hotSizes allocPac = []
  · rw [if_pos none, if_neg (by simp [none])]
    rfl
  · obtain ⟨⟨minMem, least⟩, maxMem, greatest⟩ := bounds_mem none
    have minLarge := (hotSizes_bounds minMem).1
    have maxLarge := (hotSizes_bounds maxMem).1
    have low : (∃ hot ∈ hotSizes allocPac, hot ≤ sz)
        ↔ (hotSizes allocPac).min?.getD 0 ≤ sz := by
      constructor
      · intro found
        obtain ⟨hot, member, le⟩ := found
        exact Nat.le_trans (least hot member) le
      · intro le
        exact ⟨_, minMem, le⟩
    have high
        : (∃ hot ∈ hotSizes allocPac, sz < hot) ↔ sz < (hotSizes allocPac).max?.getD 0 := by
      constructor
      · intro found
        obtain ⟨hot, member, lt⟩ := found
        exact Nat.lt_of_lt_of_le lt (greatest hot member)
      · intro lt
        exact ⟨_, maxMem, lt⟩
    have covers : (Interc.SizeRule.covers ⟨(hotSizes allocPac).min?.getD 0,
          (hotSizes allocPac).max?.getD 0, fastNode.stored⟩ sz = true)
        ↔ (hotSizes allocPac).min?.getD 0 ≤ sz ∧ sz < (hotSizes allocPac).max?.getD 0 := by
      rw [Interc.SizeRule.covers_iff]
      dsimp only
      omega
    rw [if_neg none, Interc.matchSize, Interc.matchSize]
    exact if_congr (covers.trans (and_congr low high).symm) rfl rfl

-----------------------------------------------------------------------------------------
-- Hot and cold sizes against that rule
-----------------------------------------------------------------------------------------

omit [PyFloat F] in
theorem mem_hotSizes {allocPac : List (AllocPac F)} {size : Nat}
    : size ∈ hotSizes allocPac ↔ ∃ a ∈ allocPac, a.tier = .hot ∧ a.size = size := by
  simp [hotSizes, sizesOf, and_assoc]

/-- The largest hot allocations are never routed, so no configuration routes all hot sizes to
the fast node. Witness: the upper bound of the rule is exclusive, and it is a hot size.
-/
theorem generated_misses_hot {allocPac : List (AllocPac F)} {k : Int} {slowNode : Node}
    {now : Stamp} (hot : ∃ a ∈ allocPac, a.tier = .hot) (nonneg : 0 ≤ k)
    (short : ShortLines allocPac (.id k) slowNode now) (stale : List Char)
    : ¬ ∀ a ∈ allocPac, a.tier = .hot →
        Interc.matchSize
          (loadedSizeRules stale (generateIntercConfAllocBased allocPac (.id k) slowNode now))
          a.size
        = k := by
  intro routed
  obtain ⟨a, member, isHot⟩ := hot
  have nonempty : hotSizes allocPac ≠ [] :=
    List.ne_nil_of_mem (mem_hotSizes.mpr ⟨a, member, isHot, rfl⟩)
  obtain ⟨_, maxMem, greatest⟩ := bounds_mem nonempty
  obtain ⟨largest, inList, largestHot, isMax⟩ := mem_hotSizes.mp maxMem
  have missed := routed largest inList largestHot
  rw [matchSize_loaded short] at missed
  have above : ¬ ∃ hot ∈ hotSizes allocPac, largest.size < hot := by
    intro found
    obtain ⟨other, inSizes, larger⟩ := found
    have bound := greatest other inSizes
    omega
  rw [if_neg (fun both => above both.2)] at missed
  omega

/-- An allocation of a size and tier, with plain other fields. -/
def plainAlloc (size : Nat) (tier : Tier) (large : 4096 ≤ size) (fits : size < 2 ^ 64)
    : AllocPac ℚ where
  callerSym := "main+0x34".toList
  callerAddr := 0
  size
  addr := 0
  totalPac := 100
  avgPac := 100
  totalAccess := 1
  hotPages := 1
  coldPages := 0
  totalPages := 1
  hotRatio := 1
  tier
  word := by simp [PyText.isSpace]
  large
  fits

def noon : Stamp := ⟨2024, 5, 1, 12, 0, 0⟩

/-- One hot allocation of 200 MB. -/
def oneHot : List (AllocPac ℚ) := [plainAlloc 209715200 .hot (by omega) (by omega)]

theorem oneHot_short : ShortLines oneHot (.id 1) (.id 0) noon := by
  unfold ShortLines
  decide +kernel

theorem generated_misses_hot_oneHot
    : ¬ ∀ a ∈ oneHot, a.tier = .hot →
        Interc.matchSize
          (loadedSizeRules [] (generateIntercConfAllocBased oneHot (.id 1) (.id 0) noon)) a.size
        = 1 :=
  generated_misses_hot ⟨_, List.mem_cons_self, rfl⟩ (by decide) oneHot_short []

/-- The only hot size is not routed: its interval is empty. -/
theorem oneHot_unrouted
    : (∃ a ∈ oneHot, a.tier = .hot ∧ a.size = 209715200)
      ∧ Interc.matchSize
          (loadedSizeRules [] (generateIntercConfAllocBased oneHot (.id 1) (.id 0) noon))
          209715200
        = -1 := by
  refine ⟨⟨_, List.mem_cons_self, rfl, rfl⟩, ?_⟩
  rw [matchSize_loaded oneHot_short, if_neg]
  intro both
  obtain ⟨hot, member, larger⟩ := both.2
  obtain rfl := List.mem_singleton.mp member
  exact Nat.lt_irrefl _ larger

/-- No cold allocation has a size between two hot ones. -/
def ColdApart (allocPac : List (AllocPac F)) : Prop :=
  ∀ a ∈ allocPac, a.tier = .cold → a.size ∉ hotSizes allocPac →
    ¬ ((∃ hot ∈ hotSizes allocPac, hot < a.size) ∧ ∃ hot ∈ hotSizes allocPac,
      a.size < hot)

/-- The configuration routes no cold data exactly when no cold size lies between two hot ones,
unless the fast node itself is stored as -1.
-/
theorem generated_spares_cold_iff {allocPac : List (AllocPac F)} {fastNode slowNode : Node}
    {now : Stamp} (short : ShortLines allocPac fastNode slowNode now) (stale : List Char)
    : (∀ a ∈ allocPac, a.tier = .cold → a.size ∉ hotSizes allocPac →
        Interc.matchSize
          (loadedSizeRules stale (generateIntercConfAllocBased allocPac fastNode slowNode now))
          a.size
        = -1)
      ↔ fastNode.stored = -1 ∨ ColdApart allocPac := by
  constructor
  · intro spared
    by_cases inactive : fastNode.stored = -1
    · exact .inl inactive
    · refine .inr (fun a member cold notHot between => inactive ?_)
      obtain ⟨⟨low, inSizes, below⟩, above⟩ := between
      have same := spared a member cold notHot
      rwa [matchSize_loaded short,
        if_pos ⟨⟨low, inSizes, Nat.le_of_lt below⟩, above⟩] at same
  · intro apart a member cold notHot
    rw [matchSize_loaded short]
    split
    case isFalse => rfl
    case isTrue inside =>
        rcases apart with inactive | coldApart
        · exact inactive
        · obtain ⟨⟨low, inSizes, le⟩, above⟩ := inside
          have differ : low ≠ a.size := fun same => notHot (same ▸ inSizes)
          exact absurd ⟨⟨low, inSizes, by omega⟩, above⟩ (coldApart a member cold notHot)

/-- A cold allocation of 100 MB between hot ones of 50 MB and 200 MB. -/
def coldBetween : List (AllocPac ℚ) :=
  [plainAlloc 52428800 .hot (by omega) (by omega),
    plainAlloc 104857600 .cold (by omega) (by omega),
    plainAlloc 209715200 .hot (by omega) (by omega)]

theorem coldBetween_short : ShortLines coldBetween (.id 0) (.id 1) noon := by
  unfold ShortLines
  decide +kernel

theorem generated_spares_cold_iff_between
    : (∀ a ∈ coldBetween, a.tier = .cold → a.size ∉ hotSizes coldBetween →
        Interc.matchSize
          (loadedSizeRules [] (generateIntercConfAllocBased coldBetween (.id 0) (.id 1) noon))
          a.size
        = -1)
      ↔ (Node.id 0).stored = -1 ∨ ColdApart coldBetween :=
  generated_spares_cold_iff coldBetween_short []

/-- The cold allocation in the middle is routed to the fast node. -/
theorem coldBetween_routed
    : (∃ a ∈ coldBetween,
      a.tier = .cold ∧ a.size = 104857600 ∧ a.size ∉ hotSizes coldBetween)
      ∧ Interc.matchSize
          (loadedSizeRules [] (generateIntercConfAllocBased coldBetween (.id 0) (.id 1) noon))
          104857600
        = 0 := by
  refine ⟨⟨_, List.mem_cons_of_mem _ List.mem_cons_self, rfl, rfl, by decide⟩, ?_⟩
  have stored : (Node.id 0).stored = 0 := by decide
  rw [matchSize_loaded coldBetween_short, if_pos, stored]
  exact ⟨⟨52428800, by decide, by omega⟩, 209715200, by decide, by omega⟩

end Kumf.PacToInterc
