import Kumf.PacToInterc.AllocBased

/-! The lines of the generated configuration: comments without newlines inside, around at most
one rule.
-/

namespace Kumf.PacToInterc

open Kumf.Library PyText

variable {F : Type} [PyFloat F]

/-- A node is written without a blank or a line end in it. -/
theorem Node.tidy_text (node : Node) : Tidy node.text := by
  cases node with
  | id n => exact tidy_str n
  | home => exact .of_check rfl

/-- A time of day is written tidily as well. -/
theorem Stamp.tidy_text (stamp : Stamp) : Tidy stamp.text := by
  have dash : Tidy "-".toList := .of_check rfl
  have blank : Tidy " ".toList := .of_check rfl
  have colon : Tidy ":".toList := .of_check rfl
  have part (width n : Nat) : Tidy (padded width n) := tidy_padded width n
  exact ((((((((((part _ _).append dash).append (part _ _)).append dash).append (part _ _)).append
    blank).append (part _ _)).append colon).append (part _ _)).append colon).append (part _ _)

/-- The rule of a size range is one tidy line. -/
theorem tidy_rangeLine (hotMin hotMax : Nat) (fastNode : Node)
    : Tidy (rangeLine hotMin hotMax fastNode) := by
  have form : Tidy "size_range:".toList := .of_check rfl
  have dash : Tidy "-".toList := .of_check rfl
  have equals : Tidy " = ".toList := .of_check rfl
  have note : Tidy "  # HOT data -> fast node".toList := .of_check rfl
  exact (((((form.append (tidy_str _)).append dash).append (tidy_str _)).append equals).append
    fastNode.tidy_text).append note

/-- A number is written on one line. -/
@[simp]
theorem newline_not_mem_str (n : Int) : '\n' ∉ str n := (tidy_str n).oneLine

@[simp]
theorem Node.newline_not_mem_text (node : Node) : '\n' ∉ node.text := node.tidy_text.oneLine

@[simp]
theorem Stamp.newline_not_mem_text (stamp : Stamp) : '\n' ∉ stamp.text := stamp.tidy_text.oneLine

/-- A rounded float is written on one line. -/
@[simp]
theorem newline_not_mem_format0 (x : F) : '\n' ∉ PyFloat.format0 x :=
  (PyFloat.tidy_format0 x).oneLine

/-- So is a number of megabytes. -/
@[simp]
theorem newline_not_mem_megabytes (n : Nat) : '\n' ∉ megabytes F n := newline_not_mem_format0 _

/-- A comment line without a newline. -/
structure Comment (line : List Char) : Prop where
  mark : line.head? = some '#'
  oneLine : '\n' ∉ line

omit [PyFloat F] in
/-- The head of the file holds comments and empty lines only. -/
theorem headLines_comments (allocPac : List (AllocPac F)) (fastNode slowNode : Node)
    (now : Stamp)
    : ∀ line ∈ headLines allocPac fastNode slowNode now, line = [] ∨ Comment line := by
  unfold headLines
  simp only [List.forall_mem_cons]
  refine ⟨.inr ⟨?_, ?_⟩, .inr ⟨?_, ?_⟩, .inr ⟨?_, ?_⟩, .inr ⟨?_, ?_⟩,
    .inl trivial, ?_⟩ <;> simp

/-- The line that counts the HOT allocations is a comment. -/
theorem hotComment (F : Type) [PyFloat F] (sizes : List Nat)
    : Comment ("# HOT allocations (".toList ++ str sizes.length ++ "): ".toList
        ++ megabytes F (sizes.min?.getD 0) ++ "-".toList ++ megabytes F (sizes.max?.getD 0)
        ++ " MB".toList) where
  mark := by simp
  oneLine := by simp

/-- The lines on the COLD sizes are comments. -/
theorem coldLines_comments (F : Type) [PyFloat F] (sizes : List Nat)
    : ∀ line ∈ coldLines F sizes, line = [] ∨ Comment line := by
  unfold coldLines
  split
  · simp
  · simp only [List.forall_mem_cons]
    refine ⟨.inl trivial, .inr ⟨?_, ?_⟩, .inr ⟨?_, ?_⟩, .inr ⟨?_, ?_⟩, ?_⟩ <;> simp

/-- Where no size is HOT, the lines that say so are comments. -/
theorem idleLines_comments (hot cold : List Nat)
    : ∀ line ∈ idleLines hot cold, line = [] ∨ Comment line := by
  unfold idleLines
  split
  · exact List.forall_mem_singleton.mpr (.inr ⟨by simp, by simp⟩)
  · simp

/-- The line of one caller is a comment. -/
theorem callerLine_comment {caller : List Char} (word : ∀ c ∈ caller, PyText.isSpace c = false)
    (info : CallerInfo F)
    : Comment (callerLine caller info) := by
  -- The names of a log are split at blanks, so they hold no newline.
  have name : '\n' ∉ caller := fun member => Bool.noConfusion (word _ member)
  unfold callerLine
  constructor
  · simp
  · simp [name]

/-- The table of the callers is one of comments. -/
theorem detailLines_comments (allocPac : List (AllocPac F))
    : ∀ line ∈ detailLines allocPac, line = [] ∨ Comment line := by
  rw [detailLines, List.forall_mem_cons, List.forall_mem_cons]
  refine ⟨.inl rfl, .inr ⟨by simp, by simp⟩, fun line member => .inr ?_⟩
  obtain ⟨⟨caller, info⟩, sorted, rfl⟩ := List.mem_map.mp member
  have entry : (caller, info) ∈ (byCaller allocPac).entries :=
    (List.mem_insertionSort _).mp sorted
  obtain ⟨item, inItems, same⟩ := Dict.exists_item_of_mem _ _ entry
  obtain ⟨a, _, rfl⟩ := List.mem_map.mp inItems
  have named : a.callerSym = caller := same
  exact callerLine_comment (named ▸ a.word) info

/-- The lines behind the rule. -/
def restLines (allocPac : List (AllocPac F)) : List (List Char) :=
  coldLines F (coldSizes allocPac) ++ idleLines (hotSizes allocPac) (coldSizes allocPac)
    ++ detailLines allocPac

/-- All that follows the rule is comments. -/
theorem restLines_comments (allocPac : List (AllocPac F))
    : ∀ line ∈ restLines allocPac, line = [] ∨ Comment line := by
  intro line member
  rcases List.mem_append.mp member with inFront | detail
  · rcases List.mem_append.mp inFront with cold | idle
    · exact coldLines_comments F _ line cold
    · exact idleLines_comments _ _ line idle
  · exact detailLines_comments allocPac line detail

/-- The lines of the configuration: comments around at most one rule. -/
theorem confLines_eq (allocPac : List (AllocPac F)) (fastNode slowNode : Node) (now : Stamp)
    : (hotSizes allocPac = []
        ∧ confLines allocPac fastNode slowNode now
          = headLines allocPac fastNode slowNode now ++ restLines allocPac)
      ∨ ∃ comment, Comment comment
        ∧ hotSizes allocPac ≠ []
        ∧ confLines allocPac fastNode slowNode now
          = (headLines allocPac fastNode slowNode now ++ [comment])
            ++ rangeLine ((hotSizes allocPac).min?.getD 0) ((hotSizes allocPac).max?.getD 0)
              fastNode
            :: restLines allocPac := by
  by_cases none : hotSizes allocPac = []
  · refine .inl ⟨none, ?_⟩
    have nothing : hotLines F (hotSizes allocPac) fastNode = [] := if_pos none
    rw [confLines, nothing, restLines, List.append_nil, List.append_assoc, List.append_assoc,
      List.append_assoc]
  · refine .inr ⟨_, hotComment F (hotSizes allocPac), none, ?_⟩
    have lines : hotLines F (hotSizes allocPac) fastNode = [_, _] := if_neg none
    rw [confLines, lines, restLines]
    simp only [List.append_assoc, List.cons_append, List.nil_append]

end Kumf.PacToInterc
