import Kumf.Interc.Rules

/-! `load_rules` and the lines of its file. It parses what one `fgets` call reads: a long line
comes in pieces, and one form reads behind its piece, where an earlier one may stand.
-/

namespace Kumf.Interc

open Kumf.Library

-----------------------------------------------------------------------------------------
-- What a line buffer says, and where it goes
-----------------------------------------------------------------------------------------

/-- A rule of the forms behind the address form. -/
inductive OtherRule where
  | size (rule : SizeRule)
  | name (rule : NameRule)
  deriving DecidableEq, Repr

/-- The address form. -/
def addrRule? (line : List Char) : Option AddrRule :=
  match sscanf addrFormat (cString line) with
  | [.num start, .num stop, .str nodeStr] => some ⟨start, stop, nodeOf nodeStr⟩
  | _ => none

/-- The other forms; the first keyword that fits decides. -/
def otherRule? (line : List Char) : Option OtherRule :=
  if strncmpEq line "size_gt:".toList 9 then
    match sscanf thresholdFormat (cString (line.drop 9)) with
    | [.num threshold, .str nodeStr] => some (.size ⟨threshold, 0, nodeOf nodeStr⟩)
    | _ => none
  else if strncmpEq line "size_lt:".toList 9 then
    match sscanf thresholdFormat (cString (line.drop 9)) with
    | [.num threshold, .str nodeStr] => some (.size ⟨0, threshold, nodeOf nodeStr⟩)
    | _ => none
  else if strncmpEq line "size_range:".toList 11 then
    match sscanf rangeFormat (cString (line.drop 11)) with
    | [.num minS, .num maxS, .str nodeStr] => some (.size ⟨minS, maxS, nodeOf nodeStr⟩)
    | _ => none
  else
    match sscanf nameFormat (cString line) with
    | [.str pat, .str nodeStr] => some (.name ⟨pat, nodeOf nodeStr⟩)
    | _ => none

/-- What a line buffer says: as an address rule, and as a rule of another form. -/
def rulesOf (line : List Char) : Option AddrRule × Option OtherRule :=
  if line.head? = some '#' ∨ line.head? = some '\n' then (none, none)
  else (addrRule? line, otherRule? line)

namespace RuleTables

/-- Into its table, if there is room. -/
def putOther (tables : RuleTables) : Option OtherRule → RuleTables
  | none => tables
  | some (.size rule) =>
      if tables.sizeRules.length < maxNameRules then
        { tables with sizeRules := tables.sizeRules ++ [rule] }
      else
        tables
  | some (.name rule) =>
      if tables.nameRules.length < maxNameRules then
        { tables with nameRules := tables.nameRules ++ [rule] }
      else
        tables

/-- An address rule that finds no room is tried as another one. -/
def put (tables : RuleTables) (found : Option AddrRule × Option OtherRule) : RuleTables :=
  match found.1 with
  | some rule =>
      if tables.addrRules.length < maxAddrRules then
        { tables with addrRules := tables.addrRules ++ [rule] }
      else
        tables.putOther found.2
  | none => tables.putOther found.2

end RuleTables

/-- The forms other than `addr_range` are one rule at most, and where it goes. -/
theorem loadOtherForm_eq (tables : RuleTables) (line : List Char)
    : loadOtherForm tables line = tables.putOther (otherRule? line) := by
  unfold loadOtherForm otherRule?
  split
  case isTrue =>
      generalize sscanf thresholdFormat (cString (line.drop 9)) = args
      rcases args with _ | ⟨_ | _, _ | ⟨_ | _, _ | _⟩⟩ <;> rfl
  split
  case isTrue =>
      generalize sscanf thresholdFormat (cString (line.drop 9)) = args
      rcases args with _ | ⟨_ | _, _ | ⟨_ | _, _ | _⟩⟩ <;> rfl
  split
  case isTrue =>
      generalize sscanf rangeFormat (cString (line.drop 11)) = args
      rcases args with _ | ⟨_ | _, _ | ⟨_ | _, _ | ⟨_ | _, _ | _⟩⟩⟩ <;> rfl
  case isFalse =>
      generalize sscanf nameFormat (cString line) = args
      rcases args with _ | ⟨_ | _, _ | ⟨_ | _, _ | _⟩⟩ <;> rfl

/-- A turn of the loop is to read the buffer, and to put what it says into the tables. -/
theorem loadLine_eq (tables : RuleTables) (line : List Char)
    : loadLine tables line = tables.put (rulesOf line) := by
  unfold loadLine rulesOf
  split
  case isTrue => rfl
  case isFalse =>
      rw [loadOtherForm_eq, addrRule?]
      generalize sscanf addrFormat (cString line) = args
      rcases args with _ | ⟨_ | _, _ | ⟨_ | _, _ | ⟨_ | _, _ | _⟩⟩⟩ <;> rfl

-----------------------------------------------------------------------------------------
-- Tables one behind the other
-----------------------------------------------------------------------------------------

namespace RuleTables

/-- The rules of one table behind those of another. -/
def append (front back : RuleTables) : RuleTables where
  addrRules := front.addrRules ++ back.addrRules
  nameRules := front.nameRules ++ back.nameRules
  sizeRules := front.sizeRules ++ back.sizeRules

/-- Both together keep the limits of the tables. -/
structure FitsBehind (front back : RuleTables) : Prop where
  addr : front.addrRules.length + back.addrRules.length ≤ maxAddrRules
  name : front.nameRules.length + back.nameRules.length ≤ maxNameRules
  size : front.sizeRules.length + back.sizeRules.length ≤ maxNameRules

/-- Rules are only added. -/
structure Grows (before after : RuleTables) : Prop where
  addr : before.addrRules.length ≤ after.addrRules.length
  name : before.nameRules.length ≤ after.nameRules.length
  size : before.sizeRules.length ≤ after.sizeRules.length

theorem Grows.refl (tables : RuleTables) : Grows tables tables :=
  ⟨Nat.le_refl _, Nat.le_refl _, Nat.le_refl _⟩

theorem Grows.trans {first second third : RuleTables} (left : Grows first second)
    (right : Grows second third)
    : Grows first third :=
  ⟨left.addr.trans right.addr, left.name.trans right.name, left.size.trans right.size⟩

/-- Tables that end with room for more had room all the time. -/
theorem FitsBehind.of_grows {front before after : RuleTables} (fits : FitsBehind front after)
    (grows : Grows before after)
    : FitsBehind front before :=
  ⟨(Nat.add_le_add_left grows.addr _).trans fits.addr,
    (Nat.add_le_add_left grows.name _).trans fits.name,
    (Nat.add_le_add_left grows.size _).trans fits.size⟩

variable {front tables : RuleTables}

theorem putOther_grows (tables : RuleTables) (found : Option OtherRule)
    : Grows tables (tables.putOther found) := by
  unfold putOther
  split
  case h_1 => exact .refl tables
  all_goals
    split
    case isTrue => constructor <;> simp
    case isFalse => exact .refl tables

/-- A line only adds to the tables. -/
theorem put_grows (tables : RuleTables) (found : Option AddrRule × Option OtherRule)
    : Grows tables (tables.put found) := by
  unfold put
  split
  case h_1 =>
      split
      case isTrue => constructor <;> simp
      case isFalse => exact putOther_grows tables found.2
  case h_2 => exact putOther_grows tables found.2

/-- A rule finds room behind other rules if it does so in a table of its own that fits there. -/
theorem putOther_append {found : Option OtherRule} (fits : FitsBehind front (tables.putOther found))
    : (front.append tables).putOther found = front.append (tables.putOther found) := by
  unfold putOther at fits ⊢
  split
  case h_1 => rfl
  all_goals
    dsimp only at fits ⊢
    split at fits
    case isTrue room =>
        have named := fits.name
        have sized := fits.size
        simp only [List.length_append, List.length_singleton] at *
        rw [if_pos (by simp only [append, List.length_append]; omega), if_pos room]
        simp [append]
    case isFalse full =>
        have named := fits.name
        have sized := fits.size
        rw [if_neg (by simp only [append, List.length_append]; omega), if_neg full]

/-- Rules that fit behind others are added behind them. -/
theorem put_append {found : Option AddrRule × Option OtherRule}
    (fits : FitsBehind front (tables.put found))
    : (front.append tables).put found = front.append (tables.put found) := by
  obtain ⟨addr, other⟩ := found
  cases addr with
  | none => exact putOther_append fits
  | some rule =>
      unfold put at fits ⊢
      dsimp only at fits ⊢
      split at fits
      case isTrue room =>
          have together := fits.addr
          rw [List.length_append, List.length_singleton] at together
          rw [if_pos (by simp only [append, List.length_append]; omega), if_pos room]
          simp [append]
      case isFalse full =>
          have alone := (putOther_grows tables other).addr
          have together := fits.addr
          rw [if_neg (by simp only [append, List.length_append]; omega), if_neg full]
          exact putOther_append fits

@[simp] theorem put_none (tables : RuleTables) : tables.put (none, none) = tables := rfl

/-- A line without a size rule leaves the size rules alone. -/
theorem put_sizeRules {found : Option AddrRule × Option OtherRule}
    (other : ∀ rule, found.2 ≠ some (.size rule))
    : (tables.put found).sizeRules = tables.sizeRules := by
  have kept : (tables.putOther found.2).sizeRules = tables.sizeRules := by
    unfold putOther
    split
    case h_1 => rfl
    case h_2 rule size => exact absurd size (other rule)
    case h_3 =>
        split <;> rfl
  unfold put
  split
  case h_1 =>
      split
      case isTrue => rfl
      case isFalse => exact kept
  case h_2 => exact kept

/-- In empty tables every rule leaves something. -/
theorem put_empty_ne {found : Option AddrRule × Option OtherRule} (rule : found ≠ (none, none))
    : ({} : RuleTables).put found ≠ {} := by
  obtain ⟨addr, other⟩ := found
  rcases addr with _ | addr
  · rcases other with _ | ⟨_ | _⟩
    · exact absurd rfl rule
    · simp [put, putOther, maxNameRules]
    · simp [put, putOther, maxNameRules]
  · simp [put, maxAddrRules]

/-- Tables that grow to empty ones were empty. -/
theorem Grows.eq_empty {before : RuleTables} (grows : Grows before {}) : before = {} := by
  obtain ⟨addr, name, size⟩ := before
  have addrEmpty := List.eq_nil_of_length_eq_zero (Nat.le_zero.mp grows.addr)
  have nameEmpty := List.eq_nil_of_length_eq_zero (Nat.le_zero.mp grows.name)
  have sizeEmpty := List.eq_nil_of_length_eq_zero (Nat.le_zero.mp grows.size)
  simp only at addrEmpty nameEmpty sizeEmpty
  rw [addrEmpty, nameEmpty, sizeEmpty]

end RuleTables

-----------------------------------------------------------------------------------------
-- What stands behind a piece in the buffer
-----------------------------------------------------------------------------------------

/-- A piece that consists of a threshold keyword alone: its columns are read behind its end. -/
def Bare (piece : List Char) : Prop := piece = "size_gt:".toList ∨ piece = "size_lt:".toList

instance (piece : List Char) : Decidable (Bare piece) := inferInstanceAs (Decidable (_ ∨ _))

/-- A piece that is not bare goes on behind a threshold keyword. -/
theorem length_of_threshold {piece : List Char} (closed : ¬ Bare piece)
    (same
      : strncmpEq piece "size_gt:".toList 9 = true ∨ strncmpEq piece "size_lt:".toList 9 = true)
    : 9 ≤ piece.length := by
  rcases same with gt | lt
  · exact (eq_or_length_of_strncmpEq (by decide) gt).resolve_left (fun bare => closed (.inl bare))
  · exact (eq_or_length_of_strncmpEq (by decide) lt).resolve_left (fun bare => closed (.inr bare))

theorem length_of_range {piece : List Char}
    (same : strncmpEq piece "size_range:".toList 11 = true)
    : 11 ≤ piece.length :=
  (length_le_of_strncmpEq (by decide) (Nat.le_refl _) same).trans (cString_length_le piece)

/-- What a piece says does not depend on the buffer, unless it is bare. -/
theorem rulesOf_fgetsStore {piece : List Char} (buffer : List Char) (nonempty : piece ≠ [])
    (closed : ¬ Bare piece)
    : rulesOf (fgetsStore buffer piece) = rulesOf piece := by
  have addr : addrRule? (fgetsStore buffer piece) = addrRule? piece := by
    rw [addrRule?, cString_fgetsStore, addrRule?]
  have other : otherRule? (fgetsStore buffer piece) = otherRule? piece := by
    unfold otherRule?
    simp only [strncmpEq_fgetsStore, cString_fgetsStore]
    split
    case isTrue gt =>
        rw [cString_drop_fgetsStore buffer (length_of_threshold closed (.inl gt))]
    split
    case isTrue lt =>
        rw [cString_drop_fgetsStore buffer (length_of_threshold closed (.inr lt))]
    split
    case isTrue range => rw [cString_drop_fgetsStore buffer (length_of_range range)]
    case isFalse => rfl
  rw [rulesOf, head?_fgetsStore buffer nonempty, addr, other, rulesOf]

/-- Two buffers with the same text behind the keyword say the same. -/
theorem rulesOf_congr {piece left right : List Char} (nonempty : piece ≠ [])
    (agree : Bare piece → cString (left.drop 9) = cString (right.drop 9))
    : rulesOf (fgetsStore left piece) = rulesOf (fgetsStore right piece) := by
  by_cases bare : Bare piece
  · have short : piece.length < 9 := by rcases bare with rfl | rfl <;> decide
    have behind
        : cString ((fgetsStore left piece).drop 9) = cString ((fgetsStore right piece).drop 9) := by
      rw [drop_fgetsStore left short, drop_fgetsStore right short, agree bare]
    have threshold
        : strncmpEq piece "size_gt:".toList 9 = true
          ∨ strncmpEq piece "size_lt:".toList 9 = true := by
      rcases bare with rfl | rfl
      · exact .inl (by decide)
      · exact .inr (by decide)
    have other : otherRule? (fgetsStore left piece) = otherRule? (fgetsStore right piece) := by
      unfold otherRule?
      simp only [strncmpEq_fgetsStore, behind]
      split
      case isTrue => rfl
      case isFalse notGt =>
          have isLt := threshold.resolve_left notGt
          rw [if_pos isLt, if_pos isLt]
    rw [rulesOf, rulesOf, head?_fgetsStore left nonempty, head?_fgetsStore right nonempty, other,
      addrRule?, addrRule?, cString_fgetsStore, cString_fgetsStore]
  · rw [rulesOf_fgetsStore left nonempty bare, rulesOf_fgetsStore right nonempty bare]

/-- A short piece that is not bare is no size rule. -/
theorem sizeRule_length {piece : List Char} {rule : SizeRule} (closed : ¬ Bare piece)
    (found : (rulesOf piece).2 = some (.size rule))
    : 9 ≤ piece.length := by
  unfold rulesOf at found
  split at found
  case isTrue => cases found
  case isFalse =>
      dsimp only at found
      unfold otherRule? at found
      split at found
      case isTrue gt => exact length_of_threshold closed (.inl gt)
      split at found
      case isTrue lt => exact length_of_threshold closed (.inr lt)
      split at found
      case isTrue range =>
          have inside := length_of_range range
          omega
      case isFalse =>
          split at found <;> cases found

-----------------------------------------------------------------------------------------
-- The pieces of a file
-----------------------------------------------------------------------------------------

/-- Only the last piece can be bare. -/
theorem not_bare_of_more {input piece : List Char} {before after : List (List Char)}
    (pieces : fgetsAll lineSize input = before ++ piece :: after) (more : after ≠ [])
    : ¬ Bare piece := by
  intro bare
  rcases fgetsAll_closed pieces more with ended | full
  · rcases bare with rfl | rfl <;> exact absurd ended (by decide)
  · rcases bare with rfl | rfl <;> exact absurd full (by decide)

-----------------------------------------------------------------------------------------
-- Runs of the loop over pieces
-----------------------------------------------------------------------------------------

/-- A turn of `load_rules` stores a chunk and puts the rules that the buffer then has. -/
theorem loadChunk_eq (state : List Char × RuleTables) (piece : List Char)
    : loadChunk state piece
      = (fgetsStore state.1 piece, state.2.put (rulesOf (fgetsStore state.1 piece))) := by
  rw [loadChunk, loadLine_eq]

/-- Reading on only adds to the tables. -/
theorem loadChunks_grow (pieces : List (List Char)) (state : List Char × RuleTables)
    : RuleTables.Grows state.2 (pieces.foldl loadChunk state).2 := by
  induction pieces generalizing state with
  | nil => exact .refl state.2
  | cons piece pieces ih =>
      rw [List.foldl_cons, loadChunk_eq]
      exact (RuleTables.put_grows state.2 _).trans
        (ih (fgetsStore state.1 piece, state.2.put (rulesOf (fgetsStore state.1 piece))))

/-- Pieces that say nothing leave the tables alone. -/
theorem loadChunks_inert {pieces : List (List Char)} (state : List Char × RuleTables)
    (whole : ∀ piece ∈ pieces, piece ≠ [] ∧ ¬ Bare piece)
    (inert : ∀ piece ∈ pieces, rulesOf piece = (none, none))
    : (pieces.foldl loadChunk state).2 = state.2 := by
  induction pieces generalizing state with
  | nil => rfl
  | cons piece pieces ih =>
      obtain ⟨nonempty, closed⟩ := whole piece List.mem_cons_self
      rw [List.foldl_cons, loadChunk_eq, rulesOf_fgetsStore state.1 nonempty closed,
        inert piece List.mem_cons_self]
      exact ih (fgetsStore state.1 piece, state.2)
        (fun other member => whole other (List.mem_cons_of_mem piece member))
        (fun other member => inert other (List.mem_cons_of_mem piece member))

/-- When nothing is loaded into empty tables, no piece said anything. -/
theorem inert_of_loadChunks {pieces : List (List Char)} {buffer : List Char}
    (whole : ∀ piece ∈ pieces, piece ≠ [] ∧ ¬ Bare piece)
    (nothing : (pieces.foldl loadChunk (buffer, {})).2 = {})
    : ∀ piece ∈ pieces, rulesOf piece = (none, none) := by
  induction pieces generalizing buffer with
  | nil => exact List.forall_mem_nil _
  | cons piece pieces ih =>
      obtain ⟨nonempty, closed⟩ := whole piece List.mem_cons_self
      rw [List.foldl_cons, loadChunk_eq, rulesOf_fgetsStore buffer nonempty closed] at nothing
      have first : ({} : RuleTables).put (rulesOf piece) = {} := by
        have grows := loadChunks_grow pieces
          (fgetsStore buffer piece, ({} : RuleTables).put (rulesOf piece))
        rw [nothing] at grows
        exact grows.eq_empty
      have silent : rulesOf piece = (none, none) := by
        by_contra rule
        exact RuleTables.put_empty_ne rule first
      dsimp only at nothing
      rw [first] at nothing
      exact List.forall_mem_cons.mpr
        ⟨silent,
          ih (fun other member => whole other (List.mem_cons_of_mem piece member)) nothing⟩

/-- The pieces of a file go behind the tables of another one, when a bare piece finds the same text
in both buffers.
-/
theorem loadChunks_append {front tables : RuleTables} {pieces : List (List Char)}
    {left right : List Char}
    (fits : RuleTables.FitsBehind front (pieces.foldl loadChunk (right, tables)).2)
    (nonempty : ∀ piece ∈ pieces, piece ≠ [])
    (same
      : ∀ before bare after,
          pieces = before ++ bare :: after
          → Bare bare
          → (∃ piece ∈ before, 9 ≤ piece.length)
            ∨ cString (left.drop 9) = cString (right.drop 9))
    : (pieces.foldl loadChunk (left, front.append tables)).2
      = front.append (pieces.foldl loadChunk (right, tables)).2 := by
  induction pieces generalizing tables left right with
  | nil => rfl
  | cons piece pieces ih =>
      rw [List.foldl_cons, List.foldl_cons, loadChunk_eq, loadChunk_eq]
      rw [List.foldl_cons, loadChunk_eq] at fits
      have agree : rulesOf (fgetsStore left piece) = rulesOf (fgetsStore right piece) := by
        refine rulesOf_congr (nonempty piece List.mem_cons_self) (fun bare => ?_)
        rcases same [] piece pieces rfl bare with ⟨_, none, _⟩ | agree
        · cases none
        · exact agree
      dsimp only
      have room : front.FitsBehind (tables.put (rulesOf (fgetsStore right piece))) :=
        fits.of_grows (loadChunks_grow pieces
          (fgetsStore right piece, tables.put (rulesOf (fgetsStore right piece))))
      rw [agree, RuleTables.put_append room]
      refine ih fits (fun other member => nonempty other (List.mem_cons_of_mem piece member)) ?_
      intro before bare after split bareLast
      rcases Nat.lt_or_ge piece.length 9 with short | long
      · rcases same (piece :: before) bare after (by rw [split]; rfl) bareLast with
          ⟨other, member, long⟩ | agree
        · rcases List.mem_cons.mp member with rfl | later
          · omega
          · exact .inl ⟨other, later, long⟩
        · rw [drop_fgetsStore left short, drop_fgetsStore right short]
          exact .inr agree
      · rw [cString_drop_fgetsStore left long, cString_drop_fgetsStore right long]
        exact .inr rfl

-----------------------------------------------------------------------------------------
-- Comments and files one behind the other
-----------------------------------------------------------------------------------------

/-- The tables after `load_rules` of a file, with what was in the line buffer before. -/
def tablesOf (stale text : List Char) : RuleTables :=
  (loadRules stale (some text) RuleState.initial).tables

/-- The tables of a text are what the loop over its chunks makes of empty ones. -/
theorem tablesOf_eq (stale text : List Char)
    : tablesOf stale text = ((fgetsAll lineSize text).foldl loadChunk (stale, {})).2 :=
  rfl

/-- A comment line adds no rule, wherever it stands. -/
def CommentIgnored (comment : List Char) : Prop :=
  ∀ stale before,
    LineEnds before
    → tablesOf stale (before ++ '#' :: (comment ++ ['\n'])) = tablesOf stale before

/-- What stands of a comment line behind the first piece is no rule, piece by piece. -/
def CommentInert (comment : List Char) : Prop :=
  ∀ piece ∈ fgetsAll lineSize (('#' :: (comment ++ ['\n'])).drop (lineSize - 1)),
    rulesOf piece = (none, none)

/-- The tables of two files one behind the other are those of both. -/
def Appends (front back : List Char) : Prop :=
  ∀ stale other,
    tablesOf stale (front ++ back) = (tablesOf stale front).append (tablesOf other back)

/-- A file does not end in a bare keyword, unless an earlier piece has overwritten what stands
behind it in the buffer.
-/
def EndsClean (back : List Char) : Prop :=
  ∀ before bare,
    fgetsAll lineSize back = before ++ [bare] → Bare bare
      → ∃ piece ∈ before, 9 ≤ piece.length

/-- The pieces of a complete line are not bare. -/
theorem whole_of_line {line piece : List Char} (plain : '\n' ∉ line)
    (member : piece ∈ fgetsAll lineSize (line ++ ['\n']))
    : piece ≠ [] ∧ ¬ Bare piece := by
  refine ⟨ne_nil_of_mem_fgetsAll member, ?_⟩
  have space : 1 < lineSize := by decide
  have closed
      : (∀ k, ¬ Bare (((line ++ ['\n']).drop (k * (lineSize - 1))).take (lineSize - 1)))
        → ∀ piece ∈ fgetsAll lineSize (line ++ ['\n']), ¬ Bare piece :=
    fun pieces => forall_fgetsAll_line space plain pieces (List.forall_mem_nil _)
  refine closed (fun k bare => ?_) piece member
  generalize k * (lineSize - 1) = place at bare
  have short : (((line ++ ['\n']).drop place).take (lineSize - 1)).length = 8 := by
    rcases bare with same | same <;> rw [same] <;> rfl
  have rest : ((line ++ ['\n']).drop place).take (lineSize - 1) = (line ++ ['\n']).drop place := by
    refine List.take_of_length_le ?_
    rw [List.length_take] at short
    have size : lineSize - 1 = 511 := rfl
    omega
  rw [rest] at bare short
  have ended : ((line ++ ['\n']).drop place).getLast? = some '\n' := by
    rw [List.getLast?_drop, List.getLast?_concat, if_neg]
    intro behind
    rw [List.drop_eq_nil_of_le behind] at short
    cases short
  rcases bare with same | same <;> rw [same] at ended <;> exact absurd ended (by decide)

/-- A comment line is ignored exactly if what is read of it has no rule. -/
theorem commentIgnored_iff {comment : List Char} (plain : '\n' ∉ comment)
    : CommentIgnored comment ↔ CommentInert comment := by
  have plainLine : '\n' ∉ '#' :: comment := by
    rw [List.mem_cons, not_or]
    exact ⟨by decide, plain⟩
  have pieces : fgetsAll lineSize ('#' :: (comment ++ ['\n']))
      = ('#' :: (comment ++ ['\n'])).take (lineSize - 1)
        :: fgetsAll lineSize (('#' :: (comment ++ ['\n'])).drop (lineSize - 1)) :=
    fgetsAll_first (by decide) plainLine
  have whole
      : ∀ piece ∈ fgetsAll lineSize ('#' :: (comment ++ ['\n'])), piece ≠ []
        ∧ ¬ Bare piece :=
    fun piece member => whole_of_line plainLine member
  rw [pieces] at whole
  have first : rulesOf (('#' :: (comment ++ ['\n'])).take (lineSize - 1)) = (none, none) := rfl
  constructor
  · intro ignored
    have nothing := ignored [] [] (.inl rfl)
    rw [List.nil_append, tablesOf_eq, pieces] at nothing
    exact (List.forall_mem_cons.mp (inert_of_loadChunks whole nothing)).2
  · intro inert stale before lines
    rw [tablesOf_eq, fgetsAll_append (by decide) lines, List.foldl_append, pieces, tablesOf_eq]
    exact loadChunks_inert _ whole (List.forall_mem_cons.mpr ⟨first, inert⟩)

theorem RuleTables.append_empty (tables : RuleTables) : tables.append {} = tables := by
  simp [append]

/-- Short pieces leave the text behind the keywords in the buffer, and add no size rule. -/
theorem loadChunks_short {pieces : List (List Char)} (state : List Char × RuleTables)
    (whole : ∀ piece ∈ pieces, piece ≠ [] ∧ ¬ Bare piece)
    (short : ∀ piece ∈ pieces, piece.length < 9)
    : (pieces.foldl loadChunk state).1.drop 9 = state.1.drop 9
      ∧ (pieces.foldl loadChunk state).2.sizeRules = state.2.sizeRules := by
  induction pieces generalizing state with
  | nil => exact ⟨rfl, rfl⟩
  | cons piece pieces ih =>
      obtain ⟨nonempty, closed⟩ := whole piece List.mem_cons_self
      have shortPiece := short piece List.mem_cons_self
      have unsized : (state.2.put (rulesOf piece)).sizeRules = state.2.sizeRules := by
        refine RuleTables.put_sizeRules (fun rule size => ?_)
        have long := sizeRule_length closed size
        omega
      rw [List.foldl_cons, loadChunk_eq, rulesOf_fgetsStore state.1 nonempty closed]
      obtain ⟨behind, sizes⟩ := ih (fgetsStore state.1 piece, state.2.put (rulesOf piece))
        (fun other member => whole other (List.mem_cons_of_mem piece member))
        (fun other member => short other (List.mem_cons_of_mem piece member))
      exact ⟨behind.trans (drop_fgetsStore state.1 shortPiece), sizes.trans unsized⟩

/-- A buffer with a rule behind the keywords. -/
def ruleBehind : List Char := "xxxxxxxxx1 = 1".toList

/-- A bare keyword has no rule in a fresh buffer, and one where a rule stood before. -/
theorem rulesOf_bare {bare : List Char} (isBare : Bare bare)
    : rulesOf (fgetsStore [] bare) = (none, none)
      ∧ ∃ rule, rulesOf (fgetsStore ruleBehind bare) = (none, some (.size rule)) := by
  rcases isBare with rfl | rfl
  · exact ⟨by decide, ⟨1, 0, 1⟩, by decide⟩
  · exact ⟨by decide, ⟨0, 1, 1⟩, by decide⟩

/-- The rules of a file that ends in an open keyword depend on the buffer before. -/
theorem sizeRules_open {back bare : List Char} {before : List (List Char)}
    (pieces : fgetsAll lineSize back = before ++ [bare]) (isBare : Bare bare)
    (short : ∀ piece ∈ before, piece.length < 9)
    : (tablesOf [] back).sizeRules = []
      ∧ (tablesOf ruleBehind back).sizeRules ≠ [] := by
  have whole : ∀ piece ∈ before, piece ≠ [] ∧ ¬ Bare piece := by
    intro piece member
    refine ⟨ne_nil_of_mem_fgetsAll (pieces ▸ List.mem_append_left [bare] member), ?_⟩
    obtain ⟨front, later, rfl⟩ := List.append_of_mem member
    rw [List.append_assoc, List.cons_append] at pieces
    exact not_bare_of_more pieces
      (List.append_ne_nil_of_right_ne_nil later (List.cons_ne_nil bare []))
  have last (buffer : List Char)
      : (tablesOf buffer back).sizeRules
        = ((before.foldl loadChunk (buffer, {})).2.put
            (rulesOf (fgetsStore buffer bare))).sizeRules
        ∧ (before.foldl loadChunk (buffer, {})).2.sizeRules = [] := by
    -- the pieces before are too short to overwrite what stands behind the keyword
    obtain ⟨behind, sizes⟩ := loadChunks_short (buffer, {}) whole short
    have nonempty : bare ≠ [] := by rcases isBare with rfl | rfl <;> decide
    have same := rulesOf_congr nonempty (fun _ => congrArg cString behind)
    refine ⟨?_, sizes⟩
    rw [tablesOf_eq, pieces, List.foldl_append, List.foldl_cons, List.foldl_nil, loadChunk_eq, same]
  obtain ⟨silent, rule, speaks⟩ := rulesOf_bare isBare
  constructor
  · obtain ⟨tables, sizes⟩ := last []
    rw [tables, silent, RuleTables.put_none, sizes]
  · obtain ⟨tables, sizes⟩ := last ruleBehind
    rw [tables, speaks]
    simp [RuleTables.put, RuleTables.putOther, sizes, maxNameRules]

/-- A file may be appended exactly if its own end is clean. -/
theorem appends_iff {front back : List Char} (lines : LineEnds front)
    (fits : ∀ stale other, (tablesOf stale front).FitsBehind (tablesOf other back))
    : Appends front back ↔ EndsClean back := by
  constructor
  · intro appends before bare pieces isBare
    by_contra short
    push Not at short
    obtain ⟨silent, speaks⟩ := sizeRules_open pieces isBare short
    have same := (appends [] ruleBehind).symm.trans (appends [] [])
    have sizes := congrArg RuleTables.sizeRules same
    simp only [RuleTables.append, silent, List.append_nil] at sizes
    exact speaks (List.append_right_eq_self.mp sizes)
  · intro clean stale other
    have same
        : ∀ before bare after,
            fgetsAll lineSize back = before ++ bare :: after
            → Bare bare
            → (∃ piece ∈ before, 9 ≤ piece.length)
              ∨ cString (((fgetsAll lineSize front).foldl loadChunk (stale, {})).1.drop 9)
                = cString (other.drop 9) := by
      intro before bare after pieces isBare
      have none : after = [] := by
        by_contra more
        exact not_bare_of_more pieces more isBare
      rw [none] at pieces
      exact .inl (clean before bare pieces isBare)
    have run := loadChunks_append (fits stale other)
      (fun piece member => ne_nil_of_mem_fgetsAll member) same
    have reached
        : (tablesOf stale front).append RuleState.initial.tables = tablesOf stale front :=
      RuleTables.append_empty _
    rw [reached] at run
    rw [tablesOf_eq, fgetsAll_append (by decide) lines, List.foldl_append]
    exact run

/-- Line by line `load_rules` treats just the comments without a rule behind their first piece, and
just the files whose last piece leaves no keyword open.
-/
theorem loadRules_lineByLine_iff {comment front back : List Char} (plain : '\n' ∉ comment)
    (lines : LineEnds front)
    (fits : ∀ stale other, (tablesOf stale front).FitsBehind (tablesOf other back))
    : (CommentIgnored comment ↔ CommentInert comment)
      ∧ (Appends front back ↔ EndsClean back) :=
  ⟨commentIgnored_iff plain, appends_iff lines fits⟩

-----------------------------------------------------------------------------------------
-- A long comment, and an open keyword
-----------------------------------------------------------------------------------------

/-- A short line is read with one call. -/
theorem fgetsAll_shortLine {line : List Char} (plain : '\n' ∉ line) (short : line.length < 511)
    : fgetsAll lineSize (line ++ ['\n']) = [line ++ ['\n']] := by
  rw [fgetsAll_cons (fgetsChunk_line [] plain short) (by simp)]
  rfl

/-- A file of one short line, with whatever was in the buffer. -/
theorem tablesOf_shortLine {line : List Char} (stale : List Char) (plain : '\n' ∉ line)
    (short : line.length < 511)
    : tablesOf stale (line ++ ['\n']) = ({} : RuleTables).put (rulesOf (line ++ ['\n'])) := by
  obtain ⟨nonempty, closed⟩ := whole_of_line plain
    (fgetsAll_shortLine plain short ▸ List.mem_singleton_self _)
  rw [tablesOf_eq, fgetsAll_shortLine plain short, List.foldl_cons, List.foldl_nil, loadChunk_eq,
    rulesOf_fgetsStore stale nonempty closed]

def mainLine : List Char := "main = 1".toList

def mainRule : RuleTables := { nameRules := [⟨"main".toList, 1⟩] }

theorem rulesOf_mainLine
    : rulesOf (mainLine ++ ['\n']) = (none, some (.name ⟨"main".toList, 1⟩)) := by
  decide

theorem tablesOf_mainLine (stale : List Char)
    : tablesOf stale (mainLine ++ ['\n']) = mainRule := by
  rw [tablesOf_shortLine stale (by decide) (by decide), rulesOf_mainLine]
  rfl

/-- A line with the name `main` behind itself. -/
theorem loadRules_lineByLine_mainLine
    : (CommentIgnored mainLine ↔ CommentInert mainLine)
      ∧ (Appends (mainLine ++ ['\n']) (mainLine ++ ['\n'])
        ↔ EndsClean (mainLine ++ ['\n'])) := by
  refine loadRules_lineByLine_iff (by decide) (.inr List.getLast?_concat) (fun stale other => ?_)
  rw [tablesOf_mainLine, tablesOf_mainLine]
  constructor <;> decide

/-- The rest of a comment line that fills the buffer is read as a line of its own. -/
theorem tablesOf_longLine {front line : List Char} (stale : List Char)
    (comment : front.head? = some '#') (full : front.length = 511) (plainFront : '\n' ∉ front)
    (plain : '\n' ∉ line) (short : line.length < 511)
    : tablesOf stale (front ++ (line ++ ['\n']))
      = ({} : RuleTables).put (rulesOf (line ++ ['\n'])) := by
  have chunk : fgetsChunk 511 (front ++ (line ++ ['\n'])) = (front, line ++ ['\n']) := by
    rw [fgetsChunk_full _ plainFront (Nat.le_of_eq full.symm),
      List.take_of_length_le (Nat.le_of_eq full), List.drop_eq_nil_of_le (Nat.le_of_eq full),
      List.nil_append]
  have nonempty : front ≠ [] := by
    rintro rfl
    cases comment
  have pieces : fgetsAll lineSize (front ++ (line ++ ['\n'])) = [front, line ++ ['\n']] := by
    rw [fgetsAll_cons chunk nonempty, fgetsAll_shortLine plain short]
  have first : loadChunk (stale, {}) front = (fgetsStore stale front, {}) := by
    rw [loadChunk, loadLine_comment]
    obtain ⟨c, rest, rfl⟩ := List.exists_cons_of_ne_nil nonempty
    exact comment
  obtain ⟨lineNonempty, closed⟩ := whole_of_line plain
    (fgetsAll_shortLine plain short ▸ List.mem_singleton_self _)
  rw [tablesOf_eq, pieces, List.foldl_cons, first, List.foldl_cons, List.foldl_nil, loadChunk_eq,
    rulesOf_fgetsStore _ lineNonempty closed]

/-- A comment of 518 characters behind its `#`: a rule stands where the second piece starts. -/
def longComment : List Char := List.replicate 510 '-' ++ mainLine

/-- Behind its first nine characters stands what a size rule needs. -/
def ruleComment : List Char := "#--------1 = 1".toList

theorem rulesOf_ruleComment : rulesOf (ruleComment ++ ['\n']) = (none, none) := rfl

/-- A file that is an open keyword and nothing else. -/
def openKeyword : List Char := "size_gt:".toList

theorem tablesOf_openKeyword : tablesOf [] openKeyword = {} := by
  have keyword : Bare openKeyword := .inl rfl
  rw [tablesOf_eq, fgetsAll_last (by decide) (by decide) (by decide), List.foldl_cons,
    List.foldl_nil, loadChunk_eq, (rulesOf_bare keyword).1]
  rfl

/-- The long comment becomes a rule for `main`, and the open keyword reads the rule in the comment
of the file before.
-/
theorem longComment_loaded
    : tablesOf [] ('#' :: (longComment ++ ['\n'])) = mainRule
      ∧ (tablesOf [] (ruleComment ++ ['\n'])).append (tablesOf [] openKeyword) = {}
      ∧ tablesOf [] (ruleComment ++ ['\n'] ++ openKeyword)
        = { sizeRules := [⟨1, 0, 1⟩] } := by
  refine ⟨?_, ?_, ?_⟩
  · have split : '#' :: (longComment ++ ['\n'])
        = '#' :: List.replicate 510 '-' ++ (mainLine ++ ['\n']) := by
      rw [longComment, List.append_assoc, List.cons_append]
    have dashes : '\n' ∉ '#' :: List.replicate 510 '-' := by
      intro member
      rcases List.mem_cons.mp member with same | dash
      · cases same
      · cases List.eq_of_mem_replicate dash
    rw [split, tablesOf_longLine [] rfl (by rw [List.length_cons, List.length_replicate]) dashes
      (by decide) (by decide), rulesOf_mainLine]
    rfl
  · rw [tablesOf_shortLine [] (by decide) (by decide), rulesOf_ruleComment, tablesOf_openKeyword]
    rfl
  · have pieces
        : fgetsAll lineSize (ruleComment ++ ['\n'] ++ openKeyword)
          = [ruleComment ++ ['\n'], openKeyword] := by
      rw [fgetsAll_append (by decide) (.inr List.getLast?_concat),
        fgetsAll_shortLine (by decide) (by decide), fgetsAll_last (by decide) (by decide)
          (by decide)]
      rfl
    have read
        : rulesOf (fgetsStore (fgetsStore [] (ruleComment ++ ['\n'])) openKeyword)
          = (none, some (.size ⟨1, 0, 1⟩)) := by
      decide
    rw [tablesOf_eq, pieces, List.foldl_cons, loadChunk_eq, List.foldl_cons, List.foldl_nil,
      loadChunk_eq, read]
    rfl

end Kumf.Interc
