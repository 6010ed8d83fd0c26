import Kumf.Interc.Affinity
import Mathlib.Data.List.DropRight
import Mathlib.Data.List.Infix

/-! `KUMF_NODES` as a list of nodes: the tokens that `init_affinity` reads, against the numbers
that they denote.
-/

namespace Kumf.Interc

open Kumf.Library

/-- The number that a token denotes: decimal digits behind at most one sign, between blanks. -/
def denoted (tok : List Char) : Option Int :=
  let (negative, digits) := splitSign ((tok.dropWhile isCSpace).rdropWhile isCSpace)
  if digits ≠ [] ∧ digits.all (isDigitOf 10) = true then
    some (if negative then -(numeralValue 10 digits : Int) else numeralValue 10 digits)
  else
    none

/-- `numa_node_size` takes the node, an `int`, and finds it. -/
def Topology.Accepts (topology : Topology) (node : Int) : Prop :=
  (-2 ^ 31 ≤ node ∧ node < 2 ^ 31) ∧ 0 ≤ topology.nodeSize node

/-- The test of the loop on a token. -/
def Topology.takes (topology : Topology) (tok : List Char) : Bool :=
  0 ≤ topology.nodeSize (atoi tok)

/-- `affinity_nodes` once the loop is through with some tokens. -/
def collected (topology : Topology) (read : List (List Char)) : List Int :=
  namedNodes topology read []

/-- What the parsing of `KUMF_NODES` is for. -/
structure ListsNodes (topology : Topology) (text : List Char) : Prop where
  distinct : (affinityNodes { nodes := some text } topology).Nodup
  /-- While there was room for the last token, the list is that of the numerals so far. -/
  exact
    : ∀ read tok,
        read ++ [tok] <+: strtok ',' text
        → (collected topology read).length < maxNumaNodes
        → ∀ node,
            node ∈ collected topology (read ++ [tok])
            ↔ ∃ token ∈ read ++ [tok], denoted token = some node ∧ topology.Accepts node
  silent
    : ∀ read tok,
        read ++ [tok] <+: strtok ',' text
        → denoted tok = none
        → collected topology (read ++ [tok]) = collected topology read

/-- Every token that the loop takes is the numeral of the node that it is taken for, and the
first one for that node.
-/
def CleanTokens (topology : Topology) (text : List Char) : Prop :=
  ∀ read tok,
    read ++ [tok] <+: strtok ',' text
    → (read.filter topology.takes).length < maxNumaNodes
    → topology.takes tok = true
    → denoted tok = some (atoi tok) ∧ ∀ earlier ∈ read, atoi earlier ≠ atoi tok

-----------------------------------------------------------------------------------------
-- `atoi` on numerals
-----------------------------------------------------------------------------------------

theorem splitSign_append {front : List Char} (nonempty : front ≠ []) (back : List Char)
    : splitSign (front ++ back) = ((splitSign front).1, (splitSign front).2 ++ back) := by
  obtain ⟨c, front, rfl⟩ := List.exists_cons_of_ne_nil nonempty
  simp only [List.cons_append, splitSign]
  split
  · rfl
  split
  · rfl
  · rfl

theorem atoi_bounds (tok : List Char) : -2 ^ 31 ≤ atoi tok ∧ atoi tok < 2 ^ 31 :=
  toInt32_bounds _

/-- Blanks behind a numeral end it. -/
theorem isDigitOf_ten_of_isCSpace {c : Char} (space : isCSpace c = true)
    : isDigitOf 10 c = false := by
  by_contra digit
  rw [(isDigitOf_ten_ne (Bool.eq_true_of_not_eq_false digit)).1] at space
  cases space

/-- `atoi` reads a numeral that an `int` holds. -/
theorem atoi_of_denoted {tok : List Char} {n : Int} (numeral : denoted tok = some n)
    (low : -2 ^ 31 ≤ n) (high : n < 2 ^ 31)
    : atoi tok = n := by
  have parts : tok.dropWhile isCSpace
      = (tok.dropWhile isCSpace).rdropWhile isCSpace
        ++ (tok.dropWhile isCSpace).rtakeWhile isCSpace :=
    List.rdropWhile_append_rtakeWhile.symm
  have blank : ∀ c ∈ ((tok.dropWhile isCSpace).rtakeWhile isCSpace).head?,
      isDigitOf 10 c = false := fun c first =>
    isDigitOf_ten_of_isCSpace (List.mem_rtakeWhile_imp (List.mem_of_mem_head? first))
  unfold denoted at numeral
  generalize (tok.dropWhile isCSpace).rdropWhile isCSpace = body at numeral parts
  generalize (tok.dropWhile isCSpace).rtakeWhile isCSpace = behind at parts blank
  have solid : body ≠ [] := by
    rintro rfl
    simp [splitSign] at numeral
  have sign := splitSign_append solid behind
  rw [← parts] at sign
  rw [atoi, sign]
  generalize splitSign body = signed at numeral
  obtain ⟨negative, digits⟩ := signed
  dsimp only at numeral ⊢
  split at numeral
  case isFalse => cases numeral
  case isTrue found =>
      rw [takeWhile_token (List.all_eq_true.mp found.2) blank]
      have value := Option.some.inj numeral
      split at value
      case isTrue minus =>
          rw [if_pos minus, max_eq_right (by omega), value]
          exact toInt32_eq low high
      case isFalse plus =>
          rw [if_neg plus, min_eq_left (by omega), value]
          exact toInt32_eq low high

-----------------------------------------------------------------------------------------
-- What the loop collects
-----------------------------------------------------------------------------------------

section
variable {topology : Topology} {read : List (List Char)} {tok : List Char}

/-- The loop collects the values of the tokens that it takes, up to the end of the table. -/
theorem namedNodes_eq (topology : Topology) (tokens : List (List Char)) {nodes : List Int}
    (few : nodes.length ≤ maxNumaNodes)
    : namedNodes topology tokens nodes
      = nodes ++ ((tokens.filter topology.takes).map atoi).take (maxNumaNodes - nodes.length) := by
  induction tokens generalizing nodes with
  | nil => simp [namedNodes]
  | cons tok rest ih =>
      unfold namedNodes
      split
      case isTrue room =>
          dsimp only
          by_cases taken : topology.takes tok = true
          · have longer : (nodes ++ [atoi tok]).length ≤ maxNumaNodes := by
              simpa [List.length_append] using Nat.succ_le_of_lt room
            obtain ⟨left, rooms⟩ := Nat.exists_eq_succ_of_ne_zero
              (Nat.sub_ne_zero_of_lt room)
            have fewer : maxNumaNodes - (nodes ++ [atoi tok]).length = left := by
              rw [List.length_append, List.length_singleton]
              omega
            rw [if_pos (of_decide_eq_true taken), ih longer, fewer, List.filter_cons_of_pos taken,
              rooms, List.map_cons, List.take_succ_cons, List.append_assoc]
            rfl
          · have skipped : ¬ 0 ≤ topology.nodeSize (atoi tok) := fun accepted =>
              taken (decide_eq_true accepted)
            rw [if_neg skipped, ih few, List.filter_cons_of_neg taken]
      case isFalse full =>
          rw [Nat.sub_eq_zero_of_le (Nat.le_of_not_lt full), List.take_zero, List.append_nil]

theorem collected_eq (topology : Topology) (read : List (List Char))
    : collected topology read = ((read.filter topology.takes).map atoi).take maxNumaNodes :=
  namedNodes_eq topology read (Nat.zero_le _)

/-- There is room exactly while fewer tokens than nodes of the table have been taken. -/
theorem room_iff
    : (collected topology read).length < maxNumaNodes
      ↔ (read.filter topology.takes).length < maxNumaNodes := by
  rw [collected_eq, List.length_take, List.length_map]
  omega

theorem collected_of_room (room : (read.filter topology.takes).length ≤ maxNumaNodes)
    : collected topology read = (read.filter topology.takes).map atoi := by
  rw [collected_eq]
  exact List.take_of_length_le (by rwa [List.length_map])

theorem length_filter_concat_le (room : (read.filter topology.takes).length < maxNumaNodes)
    : ((read ++ [tok]).filter topology.takes).length ≤ maxNumaNodes := by
  have last := List.length_filter_le topology.takes [tok]
  rw [List.length_singleton] at last
  rw [List.filter_append, List.length_append]
  omega

/-- A token that the loop takes with room left is added. -/
theorem collected_concat (room : (read.filter topology.takes).length < maxNumaNodes)
    (taken : topology.takes tok = true)
    : collected topology (read ++ [tok]) = collected topology read ++ [atoi tok] := by
  rw [collected_of_room (length_filter_concat_le room), collected_of_room (Nat.le_of_lt room),
    List.filter_append, List.filter_cons_of_pos taken, List.map_append]
  rfl

/-- The list only grows. -/
theorem collected_upTo {tokens : List (List Char)} (front : read <+: tokens)
    : collected topology read <+: collected topology tokens := by
  rw [collected_eq, collected_eq]
  exact ((front.filter topology.takes).map atoi).take maxNumaNodes

/-- Any other token is passed over. -/
theorem collected_concat_skip
    (skipped : ¬ ((read.filter topology.takes).length < maxNumaNodes
      ∧ topology.takes tok = true))
    : collected topology (read ++ [tok]) = collected topology read := by
  rw [collected_eq, collected_eq, List.filter_append, List.map_append]
  by_cases taken : topology.takes tok = true
  · have full : maxNumaNodes ≤ ((read.filter topology.takes).map atoi).length := by
      rw [List.length_map]
      exact Nat.le_of_not_lt (fun room => skipped ⟨room, taken⟩)
    exact List.take_append_of_le_length full
  · rw [List.filter_cons_of_neg taken, List.filter_nil, List.map_nil, List.append_nil]

end

-----------------------------------------------------------------------------------------
-- The list against the tokens
-----------------------------------------------------------------------------------------

section
variable {topology : Topology} {text : List Char} {read : List (List Char)}

/-- In a clean text the tokens taken while there is room are numerals. -/
theorem CleanTokens.denoted_eq (clean : CleanTokens topology text)
    (front : read <+: strtok ',' text)
    (room : (read.filter topology.takes).length ≤ maxNumaNodes)
    : ∀ token ∈ read, topology.takes token = true → denoted token = some (atoi token) := by
  intro token member taken
  obtain ⟨before, behind, rfl⟩ := List.append_of_mem member
  have upTo : before ++ [token] <+: before ++ token :: behind :=
    ⟨behind, by rw [List.append_assoc, List.singleton_append]⟩
  have shorter := (upTo.filter topology.takes).length_le
  rw [List.filter_append, List.filter_cons_of_pos taken, List.length_append, List.length_cons]
    at shorter
  exact (clean before token (upTo.trans front) (by omega) taken).1

/-- In a clean text no node is collected twice, by induction on the tokens. -/
theorem CleanTokens.nodup (clean : CleanTokens topology text) (front : read <+: strtok ',' text)
    : (collected topology read).Nodup := by
  induction read using List.reverseRecOn with
  | nil => exact List.nodup_nil
  | append_singleton read tok ih =>
      have distinct := ih ((List.prefix_append read [tok]).trans front)
      by_cases added : (read.filter topology.takes).length < maxNumaNodes
          ∧ topology.takes tok = true
      · obtain ⟨room, taken⟩ := added
        rw [collected_concat room taken]
        refine distinct.append (List.nodup_singleton _) ?_
        rw [List.disjoint_singleton, collected_of_room (Nat.le_of_lt room)]
        intro again
        obtain ⟨earlier, inRead, same⟩ := List.mem_map.mp again
        exact (clean read tok front room taken).2 earlier (List.mem_of_mem_filter inRead) same
      · rw [collected_concat_skip added]
        exact distinct

/-- An accepted numeral is taken for its node. -/
theorem Topology.Accepts.takes {node : Int} {token : List Char}
    (accepts : topology.Accepts node) (numeral : denoted token = some node)
    : atoi token = node ∧ topology.takes token = true := by
  obtain ⟨⟨low, high⟩, found⟩ := accepts
  have value := atoi_of_denoted numeral low high
  exact ⟨value, by rwa [Topology.takes, value, decide_eq_true_iff]⟩

theorem CleanTokens.listsNodes (clean : CleanTokens topology text)
    : ListsNodes topology text where
  distinct := clean.nodup (List.prefix_refl _)
  exact := by
    intro read tok front room node
    have whole : ((read ++ [tok]).filter topology.takes).length ≤ maxNumaNodes :=
      length_filter_concat_le (room_iff.mp room)
    rw [collected_of_room whole, List.mem_map]
    constructor
    · rintro ⟨token, inFilter, rfl⟩
      obtain ⟨member, taken⟩ := List.mem_filter.mp inFilter
      exact ⟨token, member, clean.denoted_eq front whole token member taken, atoi_bounds token,
        of_decide_eq_true taken⟩
    · rintro ⟨token, member, numeral, accepts⟩
      obtain ⟨value, taken⟩ := accepts.takes numeral
      exact ⟨token, List.mem_filter.mpr ⟨member, taken⟩, value⟩
  silent := by
    intro read tok front unknown
    refine collected_concat_skip (fun added => ?_)
    rw [(clean read tok front added.1 added.2).1] at unknown
    cases unknown

end

/-- The list is right exactly for clean tokens: `atoi` also makes a node of a token that is no
numeral, and nothing looks whether a node is listed already.
-/
theorem listsNodes_iff (topology : Topology) (text : List Char)
    : ListsNodes topology text ↔ CleanTokens topology text := by
  refine ⟨fun lists => ?_, CleanTokens.listsNodes⟩
  intro read tok front room taken
  have grown := collected_concat room taken
  have distinct : (collected topology (read ++ [tok])).Nodup :=
    lists.distinct.sublist (collected_upTo front).sublist
  have exact := lists.exact read tok front (room_iff.mpr room) (atoi tok)
  rw [grown] at distinct exact
  have first : ∀ earlier ∈ read, atoi earlier ≠ atoi tok := by
    intro earlier inRead same
    have earlierTaken : topology.takes earlier = true := by rwa [Topology.takes, same]
    have again : atoi tok ∈ collected topology read := by
      rw [collected_of_room (Nat.le_of_lt room), ← same]
      exact List.mem_map_of_mem (List.mem_filter.mpr ⟨inRead, earlierTaken⟩)
    exact (List.nodup_append.mp distinct).2.2 _ again _ (List.mem_singleton_self _) rfl
  obtain ⟨token, member, numeral, accepts⟩ :=
    exact.mp (List.mem_append_right _ List.mem_cons_self)
  rcases List.mem_append.mp member with inRead | last
  · exact absurd (accepts.takes numeral).1 (first token inRead)
  · rw [List.mem_singleton.mp last] at numeral
    exact ⟨numeral, first⟩

/-- Nodes 0 to 3. -/
def fourNodes : Topology where
  available := 0
  maxNode := 3
  nodeSize node := if 0 ≤ node ∧ node < 4 then 1 else -1
  distance _ _ := 10
  nodeCpus _ := 1

/-- The second node is listed once more for a range, and a word stands for node 0. -/
theorem rangeAndWord_listed
    : ¬ ListsNodes fourNodes "2-3,2,all".toList
      ∧ affinityNodes { nodes := some "2-3,2,all".toList } fourNodes = [2, 2, 0]
      ∧ denoted "2-3".toList = none
      ∧ denoted "all".toList = none := by
  have listed : affinityNodes { nodes := some "2-3,2,all".toList } fourNodes = [2, 2, 0] := by
    decide
  refine ⟨fun lists => ?_, listed, by decide, by decide⟩
  have distinct := lists.distinct
  rw [listed] at distinct
  exact absurd distinct (by decide)

example : affinityNodes { nodes := some " 3,0 ,9,,+1".toList } fourNodes = [3, 0, 1] := by decide

end Kumf.Interc
