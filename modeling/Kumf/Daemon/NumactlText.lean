import Kumf.Cli.Nearness
import Kumf.Daemon.NumaTopology

/-! The text of `numactl -H` and the two scanners that read it. The rows of its matrix start
with blanks and a number, so the daemon, which looks for `node `, stops in front of the first
one; the command looks for lines with `distance:`, and there are none.
-/

namespace Kumf.Daemon

open Kumf.Library PyText Kumf.Cli

/-- What `numactl -H` prints about a node. -/
structure NumactlNode where
  id : Nat
  cpus : List Nat
  sizeMb : Nat
  freeMb : Nat
  distances : List Nat

/-- A report on one or more nodes with their matrix, in columns of a given width. The first
line, where it is printed, lists the nodes with digits, hyphens and commas.
-/
structure NumactlReport where
  available : Option (List Char)
  width : Nat
  nodes : List NumactlNode
  listing : ∀ text ∈ available, ∀ c ∈ text, isDigitOf 10 c = true ∨ c = '-' ∨ c = ','
  nonempty : nodes ≠ []
  square : ∀ node ∈ nodes, node.distances.length = nodes.length
  positive : ∀ node ∈ nodes, ∀ d ∈ node.distances, 0 < d

/-- A number in a column, right-aligned. -/
def column (width n : Nat) : List Char :=
  List.replicate (width - (Nat.toDigits 10 n).length) ' ' ++ Nat.toDigits 10 n

namespace NumactlNode

variable (node : NumactlNode)

/-- The start of the three lines of a node. -/
def label : List Char := "node ".toList ++ Nat.toDigits 10 node.id

def cpusLine : List Char :=
  node.label ++ " cpus:".toList ++ node.cpus.flatMap (fun cpu => ' ' :: Nat.toDigits 10 cpu)

def sizeLine : List Char :=
  node.label ++ " size: ".toList ++ Nat.toDigits 10 node.sizeMb ++ " MB".toList

def freeLine : List Char :=
  node.label ++ " free: ".toList ++ Nat.toDigits 10 node.freeMb ++ " MB".toList

def lines : List (List Char) := [node.cpusLine, node.sizeLine, node.freeLine]

/-- A row of the matrix. -/
def row (width : Nat) : List Char :=
  column width node.id ++ ": ".toList
    ++ node.distances.flatMap (fun d => column width d ++ [' '])

/-- What the daemon makes of the size line. -/
def read : NumaNode := ⟨node.id, node.sizeMb⟩

end NumactlNode

/-- The line above the matrix. -/
def distancesLine : List Char := "node distances:".toList

namespace NumactlReport

variable (report : NumactlReport)

def availableLine (listing : List Char) : List Char :=
  "available: ".toList ++ Nat.toDigits 10 report.nodes.length ++ " nodes (".toList ++ listing
    ++ [')']

def header : List Char :=
  "node ".toList
    ++ report.nodes.flatMap (fun node => column report.width node.id ++ [' '])

/-- The lines in front of the matrix. -/
def nodeLines : List (List Char) :=
  (report.available.map report.availableLine).toList
    ++ report.nodes.flatMap NumactlNode.lines

def lines : List (List Char) :=
  report.nodeLines ++ distancesLine :: report.header
    :: report.nodes.map (fun node => node.row report.width)

/-- The output of `numactl -H`. -/
def text : List Char := unlines report.lines

/-- Both scanners find the nodes and the whole matrix. -/
structure Recovered : Prop where
  daemon
    : ∃ topology,
        detectNumaTopology (some report.text) = some topology
        ∧ topology.nodes.map NumaNode.id = report.nodes.map (fun node => (node.id : Int))
        ∧ topology.distances = report.nodes.map (fun node => node.distances.map Int.ofNat)
  command
    : ∃ distances,
        showNearnessMatrix (some report.text) = .matrix distances
        ∧ ∀ node ∈ report.nodes, ∀ j (inside : j < node.distances.length),
            distances.get? (node.id, j) = some (node.distances[j] : Int)

end NumactlReport

-----------------------------------------------------------------------------------------
-- The characters of each line
-----------------------------------------------------------------------------------------

/-- A text of digits and the given other characters. -/
def Spelled (letters text : List Char) : Prop :=
  ∀ c ∈ text, isDigitOf 10 c = true ∨ c ∈ letters

namespace Spelled

variable {letters front back : List Char}

theorem append (left : Spelled letters front) (right : Spelled letters back)
    : Spelled letters (front ++ back) := by
  intro c member
  exact (List.mem_append.mp member).elim (left c) (right c)

theorem cons {c : Char} (first : c ∈ letters) (rest : Spelled letters back)
    : Spelled letters (c :: back) := by
  intro d member
  rcases List.mem_cons.mp member with rfl | inRest
  · exact .inr first
  · exact rest d inRest

theorem word (checked : front.all (fun c => c ∈ letters) = true) : Spelled letters front :=
  fun c member => .inr (List.all_iff_forall_prop.mp checked c member)

theorem number (n : Nat) : Spelled letters (Nat.toDigits 10 n) :=
  fun c member => .inl (isDigitOf_toDigits (by omega) (by omega) n c member)

theorem flatMap {α : Type} {items : List α} {text : α → List Char}
    (each : ∀ item, Spelled letters (text item))
    : Spelled letters (items.flatMap text) := by
  intro c member
  obtain ⟨item, _, inText⟩ := List.mem_flatMap.mp member
  exact each item c inText

theorem column (blank : ' ' ∈ letters) (width n : Nat)
    : Spelled letters (column width n) := by
  refine append (fun c member => .inr ?_) (number n)
  rw [List.eq_of_mem_replicate member]
  exact blank

/-- Columns of numbers with a blank behind each. -/
theorem columns {α : Type} (blank : ' ' ∈ letters) (width : Nat) (items : List α)
    (number : α → Nat)
    : Spelled letters (items.flatMap
        (fun item => Kumf.Daemon.column width (number item) ++ [' '])) :=
  flatMap (fun item => append (column blank width (number item)) (cons blank (word (by simp))))

/-- A spelled text has no other characters. -/
theorem notMem {c : Char} (spelled : Spelled letters front) (other : isDigitOf 10 c = false)
    (outside : c ∉ letters)
    : c ∉ front := by
  intro member
  rcases spelled c member with digit | inside
  · rw [other] at digit
    cases digit
  · exact outside inside

end Spelled

namespace NumactlNode

variable (node : NumactlNode)

/-- The characters of a line with CPUs. -/
theorem cpusLine_spelled : Spelled "node cpus:".toList node.cpusLine :=
  .append (.append (.append (.word (by decide)) (.number _)) (.word (by decide)))
    (.flatMap (fun cpu => .cons (by decide) (.number cpu)))

/-- The characters of a line with a size. -/
theorem sizeLine_spelled : Spelled "node size: MB".toList node.sizeLine :=
  .append (.append (.append (.append (.word (by decide)) (.number _)) (.word (by decide)))
    (.number _)) (.word (by decide))

theorem freeLine_spelled : Spelled "node free: MB".toList node.freeLine :=
  .append (.append (.append (.append (.word (by decide)) (.number _)) (.word (by decide)))
    (.number _)) (.word (by decide))

/-- The characters of a row of distances. -/
theorem row_spelled (width : Nat) : Spelled " :".toList (node.row width) := by
  have blank : ' ' ∈ " :".toList := by decide
  exact .append (.append (.column blank width _) (.word (by decide)))
    (.columns blank width _ (fun d => d))

end NumactlNode

namespace NumactlReport

variable (report : NumactlReport)

/-- The characters of the header of the distances. -/
theorem header_spelled : Spelled "node ".toList report.header :=
  .append (.word (by decide)) (.columns (by decide) report.width _ _)

theorem availableLine_spelled {listing : List Char} (given : listing ∈ report.available)
    : Spelled "available: nodes ()-,".toList (report.availableLine listing) := by
  have listed : Spelled "available: nodes ()-,".toList listing := by
    intro c member
    rcases report.listing listing given c member with digit | rfl | rfl
    · exact .inl digit
    · exact .inr (by decide)
    · exact .inr (by decide)
  exact .append (.append (.append (.append (.word (by decide)) (.number _)) (.word (by decide)))
    listed) (.word (by decide))

end NumactlReport

-----------------------------------------------------------------------------------------
-- The daemon's scan
-----------------------------------------------------------------------------------------

/-- A text does not start with what has a character that it lacks. -/
theorem startsWith_eq_false {text front : List Char} {c : Char} (inFront : c ∈ front)
    (outside : c ∉ text)
    : startsWith text front = false :=
  Bool.eq_false_iff.mpr
    (fun found => outside ((List.isPrefixOf_iff_prefix.mp found).subset inFront))

/-- A line without `z` and `t` is passed over. -/
theorem scanLines_skip {lines rest : List (List Char)} {line : List Char}
    (topology : NumaTopology) (noSize : 'z' ∉ line) (noDistances : 't' ∉ line)
    : scanLines lines (line :: rest) topology = scanLines lines rest topology := by
  have size := contains_eq_false (by decide : 'z' ∈ "size".toList) noSize
  have distances := startsWith_eq_false (by decide : 't' ∈ "node distances:".toList) noDistances
  rw [scanLines, size, distances, Bool.and_false]
  rfl

/-- Lines without a size and without distances are passed over. -/
theorem scanLines_skip_all {lines rest skipped : List (List Char)} (topology : NumaTopology)
    (plain : ∀ line ∈ skipped, 'z' ∉ line ∧ 't' ∉ line)
    : scanLines lines (skipped ++ rest) topology = scanLines lines rest topology := by
  induction skipped with
  | nil => rfl
  | cons line skipped ih =>
      obtain ⟨noSize, noDistances⟩ := plain line List.mem_cons_self
      rw [List.cons_append, scanLines_skip topology noSize noDistances]
      exact ih (fun other member => plain other (List.mem_cons_of_mem line member))

/-- Such lines alone change nothing. -/
theorem scanLines_plain {lines skipped : List (List Char)} (topology : NumaTopology)
    (plain : ∀ line ∈ skipped, 'z' ∉ line ∧ 't' ∉ line)
    : scanLines lines skipped topology = topology := by
  have whole : scanLines lines (skipped ++ []) topology = topology :=
    scanLines_skip_all topology plain
  rwa [List.append_nil] at whole

theorem toDigits_solid (n : Nat) : ∀ c ∈ Nat.toDigits 10 n, isSpace c = false :=
  fun c member => isSpace_hex
    (isDigitOf_hex_of_ten (isDigitOf_toDigits (by omega) (by omega) n c member))

/-- The words of a size line. -/
theorem NumactlNode.splitBlanks_sizeLine (node : NumactlNode)
    : splitBlanks node.sizeLine
      = ["node".toList, Nat.toDigits 10 node.id, "size:".toList,
        Nat.toDigits 10 node.sizeMb, "MB".toList] := by
  have line : node.sizeLine
      = "node".toList ++ ' ' :: (Nat.toDigits 10 node.id ++ ' ' :: ("size:".toList
        ++ ' ' :: (Nat.toDigits 10 node.sizeMb ++ ' ' :: "MB".toList))) := by
    unfold sizeLine label
    simp only [List.append_assoc]
    rfl
  have node_solid : ∀ c ∈ "node".toList, isSpace c = false :=
    List.all_iff_forall_prop.mp (by decide)
  have size_solid : ∀ c ∈ "size:".toList, isSpace c = false :=
    List.all_iff_forall_prop.mp (by decide)
  have mb_solid : ∀ c ∈ "MB".toList, isSpace c = false :=
    List.all_iff_forall_prop.mp (by decide)
  rw [line, splitBlanks_cons (by decide) node_solid,
    splitBlanks_cons Nat.toDigits_ne_nil (toDigits_solid _),
    splitBlanks_cons (by decide) size_solid,
    splitBlanks_cons Nat.toDigits_ne_nil (toDigits_solid _),
    splitBlanks_word (by decide) mb_solid]

/-- The line with the size of a node reads as node and size. -/
theorem NumactlNode.readSizeLine_eq (node : NumactlNode)
    : readSizeLine node.sizeLine = some node.read := by
  simp [readSizeLine, node.splitBlanks_sizeLine, parseInt_toDigits, NumactlNode.read]

/-- A line with a size adds its node. -/
theorem scanLines_sizeLine {lines rest : List (List Char)} (node : NumactlNode)
    (topology : NumaTopology)
    : scanLines lines (node.sizeLine :: rest) topology
      = scanLines lines rest { topology with nodes := topology.nodes ++ [node.read] } := by
  have label : startsWith node.sizeLine "node ".toList = true := by
    unfold NumactlNode.sizeLine NumactlNode.label
    simp only [List.append_assoc]
    exact List.isPrefixOf_iff_prefix.mpr (List.prefix_append _ _)
  have size : contains node.sizeLine "size".toList = true := by
    refine contains_iff.mpr ⟨node.label ++ " ".toList, ": ".toList
      ++ Nat.toDigits 10 node.sizeMb ++ " MB".toList, ?_⟩
    simp [NumactlNode.sizeLine]
  rw [scanLines, label, size, node.readSizeLine_eq]
  rfl

/-- The three lines of each node give the node. -/
theorem scanLines_nodes {lines rest : List (List Char)} (nodes : List NumactlNode)
    (topology : NumaTopology)
    : scanLines lines (nodes.flatMap NumactlNode.lines ++ rest) topology
      = scanLines lines rest
          { topology with nodes := topology.nodes ++ nodes.map NumactlNode.read } := by
  induction nodes generalizing topology with
  | nil => simp
  | cons node nodes ih =>
      have cpus := node.cpusLine_spelled
      have free := node.freeLine_spelled
      rw [List.flatMap_cons, NumactlNode.lines, List.append_assoc, List.cons_append,
        List.cons_append, List.cons_append, List.nil_append,
        scanLines_skip topology (cpus.notMem (by decide) (by decide))
          (cpus.notMem (by decide) (by decide)),
        scanLines_sizeLine,
        scanLines_skip _ (free.notMem (by decide) (by decide))
          (free.notMem (by decide) (by decide)), ih]
      simp

/-- The rows are not reached: the first of them does not start with `node `. -/
theorem readRows_header {header : List Char} {rows : List (List Char)}
    (label : startsWith header "node ".toList = true) (noColon : ':' ∉ header)
    (plain : ∀ row ∈ rows, 'n' ∉ row)
    : readRows (header :: rows) [] = ([], true) := by
  rw [readRows, if_pos label, List.splitOn_eq_singleton noColon]
  cases rows with
  | nil => rfl
  | cons row rows =>
      have other := startsWith_eq_false (by decide : 'n' ∈ "node ".toList)
        (plain row List.mem_cons_self)
      rw [readRows, if_neg (Bool.eq_false_iff.mp other)]

namespace NumactlReport

variable (report : NumactlReport)

/-- The lines of the nodes are no headline of the distances. -/
theorem nodeLines_plain {line : List Char} (member : line ∈ report.nodeLines)
    : 't' ∉ line ∧ '\n' ∉ line ∧ ∃ c rest, line = c :: rest ∧ isSpace c = false := by
  rcases List.mem_append.mp member with first | inNode
  · obtain ⟨listing, given, rfl⟩ := Option.mem_map.mp (Option.mem_toList.mp first)
    have spelled := report.availableLine_spelled given
    exact ⟨spelled.notMem (by decide) (by decide), spelled.notMem (by decide) (by decide),
      'a', _, rfl, by decide⟩
  · obtain ⟨node, _, inLines⟩ := List.mem_flatMap.mp inNode
    have cpus := node.cpusLine_spelled
    have size := node.sizeLine_spelled
    have free := node.freeLine_spelled
    simp only [NumactlNode.lines, List.mem_cons, List.not_mem_nil, or_false] at inLines
    rcases inLines with rfl | rfl | rfl
    · exact ⟨cpus.notMem (by decide) (by decide), cpus.notMem (by decide) (by decide),
        'n', _, rfl, by decide⟩
    · exact ⟨size.notMem (by decide) (by decide), size.notMem (by decide) (by decide),
        'n', _, rfl, by decide⟩
    · exact ⟨free.notMem (by decide) (by decide), free.notMem (by decide) (by decide),
        'n', _, rfl, by decide⟩

/-- The lines that both scanners work on. -/
theorem splitOn_text
    : ∃ rows : List (List Char),
        (∀ row ∈ rows, Spelled " :".toList row)
        ∧ (strip report.text).splitOn '\n'
          = report.nodeLines ++ distancesLine :: report.header :: rows := by
  obtain ⟨front, last, nodes⟩ :=
    (List.eq_nil_or_concat report.nodes).resolve_left report.nonempty
  rw [List.concat_eq_append] at nodes
  obtain ⟨lines, built⟩ : ∃ lines, lines = report.nodeLines ++ distancesLine :: report.header
      :: front.map (fun node => node.row report.width) := ⟨_, rfl⟩
  have whole : report.text = unlines (lines ++ [last.row report.width]) := by
    simp [text, NumactlReport.lines, built, nodes]
  have plain : ∀ line ∈ lines, '\n' ∉ line := by
    intro line member
    rw [built] at member
    rcases List.mem_append.mp member with inNodes | member
    · exact (report.nodeLines_plain inNodes).2.1
    · rcases List.mem_cons.mp member with rfl | member
      · decide
      · rcases List.mem_cons.mp member with rfl | inRows
        · exact report.header_spelled.notMem (by decide) (by decide)
        · obtain ⟨node, _, rfl⟩ := List.mem_map.mp inRows
          exact (node.row_spelled report.width).notMem (by decide) (by decide)
  obtain ⟨c, others, start, solid⟩
      : ∃ c others, unlines lines = c :: others ∧ isSpace c = false := by
    rw [built]
    cases nodeLines : report.nodeLines with
    | nil => exact ⟨'n', _, rfl, by decide⟩
    | cons line rest =>
        have member : line ∈ report.nodeLines := by simp [nodeLines]
        obtain ⟨_, _, d, others, rfl, solid⟩ := report.nodeLines_plain member
        exact ⟨d, _, rfl, solid⟩
  have first : ∀ c ∈ (unlines lines ++ last.row report.width).head?, isSpace c = false := by
    rw [start]
    rintro _ ⟨⟩
    exact solid
  have visible : ∃ c ∈ last.row report.width, isSpace c = false :=
    ⟨':', by simp [NumactlNode.row], by decide⟩
  refine ⟨front.map (fun node => node.row report.width)
    ++ [(last.row report.width).rdropWhile isSpace], ?_, ?_⟩
  · intro row member
    rcases List.mem_append.mp member with inFront | isLast
    · obtain ⟨node, _, rfl⟩ := List.mem_map.mp inFront
      exact node.row_spelled report.width
    · rw [List.mem_singleton.mp isLast]
      intro c inRow
      exact last.row_spelled report.width c ((List.rdropWhile_prefix isSpace _).subset inRow)
  · rw [whole, splitOn_strip plain ((last.row_spelled report.width).notMem (by decide) (by decide))
      first visible]
    simp [built]

/-- What stands behind the headline of the distances. -/
theorem behind_distancesLine (rows : List (List Char))
    : behind (report.nodeLines ++ distancesLine :: report.header :: rows) distancesLine
      = report.header :: rows := by
  have before : ∀ line ∈ report.nodeLines, decide (line ≠ distancesLine) = true := by
    intro line member
    refine decide_eq_true (fun same => (report.nodeLines_plain member).1 ?_)
    rw [same]
    decide
  rw [behind, List.dropWhile_append_of_pos before, List.dropWhile_cons_of_neg (by simp)]
  rfl

/-- The daemon finds the nodes and an empty matrix. -/
theorem detectNumaTopology_text
    : detectNumaTopology (some report.text)
      = some { nodes := report.nodes.map NumactlNode.read } := by
  obtain ⟨rows, spelled, split⟩ := report.splitOn_text
  have available : ∀ line ∈ (report.available.map report.availableLine).toList,
      'z' ∉ line ∧ 't' ∉ line := by
    intro line member
    obtain ⟨listing, given, rfl⟩ := Option.mem_map.mp (Option.mem_toList.mp member)
    have spelled := report.availableLine_spelled given
    exact ⟨spelled.notMem (by decide) (by decide), spelled.notMem (by decide) (by decide)⟩
  have header := report.header_spelled
  have label : startsWith report.header "node ".toList = true := by
    unfold NumactlReport.header
    exact List.isPrefixOf_iff_prefix.mpr (List.prefix_append _ _)
  have matrix : ∀ line ∈ report.header :: rows, 'z' ∉ line ∧ 't' ∉ line := by
    intro line member
    rcases List.mem_cons.mp member with rfl | inRows
    · exact ⟨header.notMem (by decide) (by decide), header.notMem (by decide) (by decide)⟩
    · have row := spelled line inRows
      exact ⟨row.notMem (by decide) (by decide), row.notMem (by decide) (by decide)⟩
  have stopped := readRows_header label (header.notMem (by decide) (by decide))
    (fun row member => (spelled row member).notMem (by decide) (by decide))
  have scanned : scanLines ((strip report.text).splitOn '\n') ((strip report.text).splitOn '\n')
      {} = { nodes := report.nodes.map NumactlNode.read } := by
    have noSize : contains distancesLine "size".toList = false :=
      contains_eq_false (by decide : 'z' ∈ "size".toList) (by decide)
    have found : startsWith distancesLine "node distances:".toList = true := by decide
    rw [split]
    nth_rewrite 2 [nodeLines]
    rw [List.append_assoc, scanLines_skip_all {} available, scanLines_nodes, scanLines,
      noSize, Bool.and_false, found, report.behind_distancesLine]
    dsimp only
    rw [stopped]
    exact scanLines_plain _ matrix
  rw [detectNumaTopology]
  dsimp only
  rw [scanned, if_pos rfl]

/-- The command finds no data. -/
theorem showNearnessMatrix_text : showNearnessMatrix (some report.text) = .noData := by
  obtain ⟨rows, spelled, split⟩ := report.splitOn_text
  have other : ∀ line ∈ report.nodeLines ++ distancesLine :: report.header :: rows,
      contains line "distance:".toList = false := by
    have letter : 't' ∈ "distance:".toList := by decide
    intro line member
    rcases List.mem_append.mp member with inNodes | member
    · exact contains_eq_false letter (report.nodeLines_plain inNodes).1
    · rcases List.mem_cons.mp member with rfl | member
      · decide +kernel
      · refine contains_eq_false letter ?_
        rcases List.mem_cons.mp member with rfl | inRows
        · exact report.header_spelled.notMem (by decide) (by decide)
        · exact (spelled line inRows).notMem (by decide) (by decide)
  rw [showNearnessMatrix, split, readNearness_skips _ other]
  rfl

/-- On no report do the scanners find the matrix. Witness: the daemon stops at the header
line, and the command knows another wording.
-/
theorem not_recovered : ¬ report.Recovered := by
  intro recovered
  obtain ⟨topology, found, _, distances⟩ := recovered.daemon
  rw [report.detectNumaTopology_text] at found
  cases found
  exact report.nonempty (List.map_eq_nil_iff.mp distances.symm)

/-- The report of a machine with two sockets of one node each. -/
def twoSockets : NumactlReport where
  available := some "0-1".toList
  width := 3
  nodes := [⟨0, [0, 1], 1024, 512, [10, 32]⟩, ⟨1, [2, 3], 1024, 768, [32, 10]⟩]
  listing := by
    rintro _ ⟨⟩
    exact List.all_iff_forall_prop.mp (by decide)
  nonempty := by simp
  square := by simp
  positive := by decide

theorem twoSockets_not_recovered
    : twoSockets.lines
        = [ "available: 2 nodes (0-1)".toList,
            "node 0 cpus: 0 1".toList, "node 0 size: 1024 MB".toList, "node 0 free: 512 MB".toList,
            "node 1 cpus: 2 3".toList, "node 1 size: 1024 MB".toList, "node 1 free: 768 MB".toList,
            "node distances:".toList,
            "node   0   1 ".toList,
            "  0:  10  32 ".toList,
            "  1:  32  10 ".toList ]
      ∧ detectNumaTopology (some twoSockets.text)
        = some { nodes := [⟨0, 1024⟩, ⟨1, 1024⟩] }
      ∧ ¬ twoSockets.Recovered := by
  have detected : detectNumaTopology (some twoSockets.text)
      = some { nodes := [⟨0, 1024⟩, ⟨1, 1024⟩] } := by
    decide +kernel
  refine ⟨by decide +kernel, detected, fun recovered => ?_⟩
  obtain ⟨topology, found, _, distances⟩ := recovered.daemon
  rw [detected] at found
  cases found
  cases distances

end NumactlReport

end Kumf.Daemon
