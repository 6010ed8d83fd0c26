import Mathlib.Data.List.Chain

/-! Regular expressions as backtracking matchers, and unanchored search with them. A match
is found by following the greedy choices; that there is none is shown by a pair of letters
which every match starts with and the text does not contain.
-/

namespace Kumf.Library

/-- A regular expression with its groups: the matches at the front of a text in the order
in which a backtracking engine tries them, each with what is captured and what is left.
-/
def Pattern (α : Type) : Type := List Char → List (α × List Char)

namespace Pattern

variable {α β : Type}

instance : Monad Pattern where
  pure captured := fun text => [(captured, text)]
  bind first next := fun text =>
    List.flatMap (fun found => next found.1 found.2) (first text)

/-- A literal. -/
def word (w : List Char) : Pattern (List Char) := fun text =>
  if w <+: text then [(w, text.drop w.length)] else []

/-- `[..]*`, the longest run first. -/
def many (accepts : Char → Bool) : Pattern (List Char)
  | [] => [([], [])]
  | c :: rest =>
      if accepts c then
        (many accepts rest).map (fun (taken, left) => (c :: taken, left)) ++ [([], c :: rest)]
      else
        [([], c :: rest)]

/-- `[..]+` -/
def many1 (accepts : Char → Bool) : Pattern (List Char)
  | [] => []
  | c :: rest =>
      if accepts c then
        (many accepts rest).map (fun (taken, left) => (c :: taken, left))
      else
        []

/-- `(a|b)` -/
def either (first second : Pattern α) : Pattern α := fun text => first text ++ second text

/-- `(..)?` -/
def optional (inner : Pattern α) : Pattern (Option α) := fun text =>
  (inner text).map (fun (captured, left) => (some captured, left)) ++ [(none, text)]

/-- `re.search`: the first match at the first position that has one. -/
def search (pattern : Pattern α) : List Char → Option α
  | [] => (pattern []).head?.map Prod.fst
  | c :: rest =>
      match (pattern (c :: rest)).head? with
      | some (captured, _) => some captured
      | none => search pattern rest

-----------------------------------------------------------------------------------------
-- The first result of a pattern, combinator by combinator
-----------------------------------------------------------------------------------------

/-- One pattern behind another. -/
theorem bind_apply (first : Pattern α) (next : α → Pattern β) (text : List Char)
    : (first >>= next) text
      = List.flatMap (fun found => next found.1 found.2) (first text) :=
  rfl

/-- The results of the first alternative come first. -/
theorem either_apply (first second : Pattern α) (text : List Char)
    : first.either second text = first text ++ second text :=
  rfl

theorem optional_apply (inner : Pattern α) (text : List Char)
    : inner.optional text
      = (inner text).map (fun (captured, left) => (some captured, left)) ++ [(none, text)] :=
  rfl

/-- A word is found in front of anything. -/
theorem word_append (w rest : List Char) : word w (w ++ rest) = [(w, rest)] := by
  simp [word]

/-- A word is not found where something else stands. -/
theorem word_nil_of_not_front {w text : List Char} (different : ¬ w <+: text)
    : word w text = [] := by
  simp [word, different]

theorem word_nil_of_isPrefixOf {w text : List Char} (different : w.isPrefixOf text = false)
    : word w text = [] := by
  refine word_nil_of_not_front (fun front => ?_)
  rw [List.isPrefixOf_iff_prefix.mpr front] at different
  cases different

/-- The greedy run comes first. -/
theorem many_append {accepts : Char → Bool} {taken rest : List Char}
    (accepted : ∀ c ∈ taken, accepts c = true) (stops : ∀ c ∈ rest.head?, accepts c = false)
    : ∃ others, many accepts (taken ++ rest) = (taken, rest) :: others := by
  induction taken with
  | nil =>
      cases rest with
      | nil => exact ⟨[], rfl⟩
      | cons c rest =>
          have refused : accepts c = false := stops c rfl
          exact ⟨[], by simp [many, refused]⟩
  | cons c taken ih =>
      obtain ⟨others, tail⟩ := ih (fun d member => accepted d (List.mem_cons_of_mem c member))
      have head : accepts c = true := accepted c List.mem_cons_self
      simp only [List.cons_append, many, head, if_true, tail, List.map_cons]
      exact ⟨_, rfl⟩

/-- The first result behind a word. -/
theorem head_word_bind {w rest : List Char} {next : List Char → Pattern β}
    {found : β × List Char} (follows : (next w rest).head? = some found)
    : ((word w >>= next) (w ++ rest)).head? = some found := by
  simpa [bind_apply, word_append] using follows

/-- The first result behind as many characters as there are. -/
theorem head_many_bind {accepts : Char → Bool} {taken rest : List Char}
    {next : List Char → Pattern β} {found : β × List Char}
    (accepted : ∀ c ∈ taken, accepts c = true) (stops : ∀ c ∈ rest.head?, accepts c = false)
    (follows : (next taken rest).head? = some found)
    : ((many accepts >>= next) (taken ++ rest)).head? = some found := by
  obtain ⟨others, greedy⟩ := many_append accepted stops
  rw [bind_apply, greedy, List.flatMap_cons, List.head?_append, follows]
  rfl

/-- As many characters as there are come first. -/
theorem head_many1 {accepts : Char → Bool} {taken rest : List Char} (nonempty : taken ≠ [])
    (accepted : ∀ c ∈ taken, accepts c = true) (stops : ∀ c ∈ rest.head?, accepts c = false)
    : (many1 accepts (taken ++ rest)).head? = some (taken, rest) := by
  cases taken with
  | nil => exact absurd rfl nonempty
  | cons c taken =>
      have head : accepts c = true := accepted c List.mem_cons_self
      obtain ⟨others, greedy⟩ :=
        many_append (fun d member => accepted d (List.mem_cons_of_mem c member)) stops
      simp [many1, head, greedy]

theorem head_many1_bind {accepts : Char → Bool} {taken rest : List Char}
    {next : List Char → Pattern β} {found : β × List Char} (nonempty : taken ≠ [])
    (accepted : ∀ c ∈ taken, accepts c = true) (stops : ∀ c ∈ rest.head?, accepts c = false)
    (follows : (next taken rest).head? = some found)
    : ((many1 accepts >>= next) (taken ++ rest)).head? = some found := by
  cases taken with
  | nil => exact absurd rfl nonempty
  | cons c taken =>
      have head : accepts c = true := accepted c List.mem_cons_self
      have tail : ∀ d ∈ taken, accepts d = true :=
        fun d member => accepted d (List.mem_cons_of_mem c member)
      obtain ⟨others, greedy⟩ := many_append tail stops
      simp only [bind_apply, List.cons_append, many1, head, if_true, greedy, List.map_cons,
        List.flatMap_cons, List.head?_append]
      rw [follows]
      rfl

/-- The first result of an alternative that matches. -/
theorem head_either_left {first second : Pattern α} {next : α → Pattern β} {text : List Char}
    {found : β × List Char} (follows : ((first >>= next) text).head? = some found)
    : ((first.either second >>= next) text).head? = some found := by
  rw [bind_apply] at follows
  rw [bind_apply, either_apply, List.flatMap_append, List.head?_append, follows]
  rfl

/-- The first result where the first alternative fails. -/
theorem head_either_right {first second : Pattern α} {next : α → Pattern β} {text : List Char}
    {found : β × List Char} (fails : first text = [])
    (follows : ((second >>= next) text).head? = some found)
    : ((first.either second >>= next) text).head? = some found := by
  rw [bind_apply] at follows
  rw [bind_apply, either_apply, fails, List.nil_append, follows]

/-- A result at the start of a text is the one of the search. -/
theorem search_of_head {pattern : Pattern α} {text rest : List Char} {captured : α}
    (found : (pattern text).head? = some (captured, rest))
    : pattern.search text = some captured := by
  cases text with
  | nil => simp [search, found]
  | cons c text => simp [search, found]

/-- What a search captures, the pattern captures at some position. -/
theorem exists_of_search {pattern : Pattern α} {text : List Char} {captured : α}
    (found : pattern.search text = some captured)
    : ∃ suffix rest, (captured, rest) ∈ pattern suffix := by
  induction text with
  | nil =>
      obtain ⟨⟨value, rest⟩, head, rfl⟩ := Option.map_eq_some_iff.mp found
      exact ⟨[], rest, List.mem_of_head? head⟩
  | cons c text ih =>
      cases head : (pattern (c :: text)).head? with
      | none =>
          simp only [search, head] at found
          exact ih found
      | some first =>
          simp only [search, head, Option.some.injEq] at found
          subst found
          exact ⟨c :: text, first.2, List.mem_of_head? head⟩

theorem eq_of_mem_word {w text : List Char} {found : List Char × List Char}
    (member : found ∈ word w text)
    : found.1 = w := by
  unfold word at member
  split at member
  · rw [List.mem_singleton.mp member]
  · cases member

/-- A run consists of accepted characters. -/
theorem forall_of_mem_many {accepts : Char → Bool} {text : List Char}
    {found : List Char × List Char} (member : found ∈ many accepts text)
    : ∀ c ∈ found.1, accepts c = true := by
  induction text generalizing found with
  | nil => simp [List.mem_singleton.mp member]
  | cons c rest ih =>
      rw [many] at member
      split at member
      case isTrue accepted =>
          rcases List.mem_append.mp member with longer | stop
          · obtain ⟨shorter, inMany, rfl⟩ := List.mem_map.mp longer
            intro d inTaken
            rcases List.mem_cons.mp inTaken with rfl | inShorter
            · exact accepted
            · exact ih inMany d inShorter
          · simp [List.mem_singleton.mp stop]
      case isFalse => simp [List.mem_singleton.mp member]

/-- What is captured is not empty and has accepted characters only. -/
theorem forall_of_mem_many1 {accepts : Char → Bool} {text : List Char}
    {found : List Char × List Char} (member : found ∈ many1 accepts text)
    : found.1 ≠ [] ∧ ∀ c ∈ found.1, accepts c = true := by
  cases text with
  | nil => cases member
  | cons c rest =>
      rw [many1] at member
      split at member
      case isTrue accepted =>
          obtain ⟨run, inMany, rfl⟩ := List.mem_map.mp member
          refine ⟨List.cons_ne_nil _ _, fun d inTaken => ?_⟩
          rcases List.mem_cons.mp inTaken with rfl | inRun
          · exact accepted
          · exact forall_of_mem_many inMany d inRun
      case isFalse => cases member

-----------------------------------------------------------------------------------------
-- Patterns that start with known letters, and texts without them
-----------------------------------------------------------------------------------------

/-- Every match starts with one of the letter pairs. -/
def StartsWith (pattern : Pattern α) (pairs : List (Char × Char)) : Prop :=
  ∀ text, pattern text ≠ [] → ∃ a b rest, text = a :: b :: rest ∧ (a, b) ∈ pairs

/-- A pattern with a word in front begins as the word does. -/
theorem startsWith_word_bind {a b : Char} {letters : List Char} {next : List Char → Pattern β}
    : StartsWith (word (a :: b :: letters) >>= next) [(a, b)] := by
  intro text matched
  by_cases here : a :: b :: letters <+: text
  · obtain ⟨rest, rfl⟩ := here
    exact ⟨a, b, letters ++ rest, rfl, List.mem_singleton.mpr rfl⟩
  · rw [bind_apply, word_nil_of_not_front here] at matched
    exact absurd rfl matched

theorem startsWith_word {a b : Char} {letters : List Char}
    : StartsWith (word (a :: b :: letters)) [(a, b)] := by
  intro text matched
  by_cases here : a :: b :: letters <+: text
  · obtain ⟨rest, rfl⟩ := here
    exact ⟨a, b, letters ++ rest, rfl, List.mem_singleton.mpr rfl⟩
  · rw [word_nil_of_not_front here] at matched
    exact absurd rfl matched

/-- A pattern with alternatives in front begins as one of them does. -/
theorem startsWith_either_bind {first second : Pattern α} {next : α → Pattern β}
    {left right : List (Char × Char)} (onLeft : StartsWith (first >>= next) left)
    (onRight : StartsWith (second >>= next) right)
    : StartsWith (first.either second >>= next) (left ++ right) := by
  intro text matched
  rw [bind_apply, either, List.flatMap_append] at matched
  by_cases here : (first >>= next) text = []
  · have there : (second >>= next) text ≠ [] := by
      intro none
      rw [bind_apply] at here none
      rw [here, none] at matched
      exact absurd rfl matched
    obtain ⟨a, b, rest, same, member⟩ := onRight text there
    exact ⟨a, b, rest, same, List.mem_append_right _ member⟩
  · obtain ⟨a, b, rest, same, member⟩ := onLeft text here
    exact ⟨a, b, rest, same, List.mem_append_left _ member⟩

/-- None of the letter pairs occurs in a text. -/
def Clear (pairs : List (Char × Char)) (text : List Char) : Prop :=
  text.IsChain (fun a b => (a, b) ∉ pairs)

instance (pairs : List (Char × Char)) (text : List Char) : Decidable (Clear pairs text) :=
  inferInstanceAs (Decidable (text.IsChain (fun a b => (a, b) ∉ pairs)))

/-- A pattern is not found in a text without its beginnings. -/
theorem Clear.search_none {pattern : Pattern α} {pairs : List (Char × Char)}
    {text : List Char} (clear : Clear pairs text) (starts : pattern.StartsWith pairs)
    : pattern.search text = none := by
  induction text with
  | nil =>
      cases found : (pattern []).head? with
      | none => simp [search, found]
      | some head =>
          obtain ⟨a, b, rest, same, _⟩ := starts [] (by rintro empty; simp [empty] at found)
          cases same
  | cons c text ih =>
      have empty : pattern (c :: text) = [] := by
        by_contra matched
        obtain ⟨a, b, rest, same, member⟩ := starts _ matched
        obtain ⟨rfl, rfl⟩ := List.cons.inj same
        exact (List.isChain_cons_cons.mp clear).1 member
      simp only [search, empty, List.head?_nil]
      exact ih clear.tail

/-- A lead without first letters is passed over. -/
theorem StartsWith.search_append {pattern : Pattern α} {pairs : List (Char × Char)}
    (starts : pattern.StartsWith pairs) {lead : List Char}
    (plain : ∀ c ∈ lead, ∀ pair ∈ pairs, pair.1 ≠ c) (text : List Char)
    : pattern.search (lead ++ text) = pattern.search text := by
  induction lead with
  | nil => rfl
  | cons c lead ih =>
      have empty : pattern (c :: (lead ++ text)) = [] := by
        by_contra matched
        obtain ⟨a, b, rest, same, member⟩ := starts _ matched
        obtain ⟨rfl, _⟩ := List.cons.inj same
        exact plain c List.mem_cons_self _ member rfl
      simp only [List.cons_append, search, empty, List.head?_nil]
      exact ih (fun d member => plain d (List.mem_cons_of_mem c member))

theorem Clear.mono {more pairs : List (Char × Char)} {text : List Char}
    (clear : Clear more text) (fewer : pairs ⊆ more)
    : Clear pairs text :=
  clear.imp (fun _ _ absent member => absent (fewer member))

/-- A text that lacks a letter of each pair is clear. -/
theorem clear_of_lacks {pairs : List (Char × Char)} {text : List Char}
    (lacks : ∀ pair ∈ pairs, pair.1 ∉ text ∨ pair.2 ∉ text)
    : Clear pairs text := by
  refine List.Pairwise.isChain (List.pairwise_of_forall_mem_list (fun a inText b inText' => ?_))
  intro member
  rcases lacks _ member with noFirst | noSecond
  · exact noFirst inText
  · exact noSecond inText'

/-- No letter pair across the joint. -/
theorem Clear.append {pairs : List (Char × Char)} {front back : List Char}
    (left : Clear pairs front) (right : Clear pairs back)
    (joint : (∀ c ∈ front.getLast?, ∀ pair ∈ pairs, pair.1 ≠ c)
      ∨ ∀ c ∈ back.head?, ∀ pair ∈ pairs, pair.2 ≠ c)
    : Clear pairs (front ++ back) := by
  refine List.IsChain.append left right ?_
  intro a inFront b inBack member
  rcases joint with noFirst | noSecond
  · exact noFirst a inFront _ member rfl
  · exact noSecond b inBack _ member rfl

end Pattern

end Kumf.Library
