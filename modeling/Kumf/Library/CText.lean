import Kumf.Library.Numerals

/-! C strings in character buffers, with the reading functions of the C library that work
on them. A buffer is a list of bytes written as characters; a string ends at its first NUL.
-/

namespace Kumf.Library

def nul : Char := Char.ofNat 0

/-- `isspace` in the C locale. -/
def isCSpace (c : Char) : Bool := c = ' ' || (9 ≤ c.toNat && c.toNat ≤ 13)

/-- The string that starts at the front of a buffer. -/
def cString (buffer : List Char) : List Char := buffer.takeWhile (· ≠ nul)

/-- What `snprintf` leaves of a text in a buffer of some size. -/
def snprintf (size : Nat) (text : List Char) : List Char := text.take (size - 1)

/-- `strncmp(left, right, count) == 0`: the terminating NUL takes part in the comparison. -/
def strncmpEq (left right : List Char) (count : Nat) : Bool :=
  (cString left ++ [nul]).take count == (cString right ++ [nul]).take count

/-- The characters one `fgets` call takes when the buffer has room for `room` of them,
and the input left: it stops after a newline, at the end of input, or when full.
-/
def fgetsChunk : Nat → List Char → List Char × List Char
  | 0, input => ([], input)
  | _ + 1, [] => ([], [])
  | room + 1, c :: input =>
      if c = '\n' then
        ([c], input)
      else
        let (chunk, rest) := fgetsChunk room input
        (c :: chunk, rest)

/-- The chunks that `while (fgets(..))` sees, with fuel for the number of calls. -/
def fgetsLoop (room : Nat) : Nat → List Char → List (List Char)
  | 0, _ => []
  | fuel + 1, input =>
      match fgetsChunk room input with
      | ([], _) => []
      | (chunk, rest) => chunk :: fgetsLoop room fuel rest

/-- All chunks of an input read into a buffer of `size` bytes, one of them for the NUL.
Every call but the last consumes a character, so the input length is fuel enough.
-/
def fgetsAll (size : Nat) (input : List Char) : List (List Char) :=
  fgetsLoop (size - 1) input.length input

/-- The buffer after `fgets` stored a chunk: what lies behind the NUL is stale. -/
def fgetsStore (buffer chunk : List Char) : List Char :=
  chunk ++ nul :: buffer.drop (chunk.length + 1)

/-- An optional sign: whether it is a minus, and the text behind it. -/
def splitSign : List Char → Bool × List Char
  | [] => (false, [])
  | c :: rest =>
      if c = '-' then (true, rest)
      else if c = '+' then (false, rest)
      else (false, c :: rest)

/-- Conversion to a 32-bit `int`, wrapping as gcc does. -/
def toInt32 (n : Int) : Int := (n + 2 ^ 31) % 2 ^ 32 - 2 ^ 31

/-- A 32-bit number is between its bounds. -/
theorem toInt32_bounds (n : Int) : -2 ^ 31 ≤ toInt32 n ∧ toInt32 n < 2 ^ 31 := by
  rw [toInt32]
  omega

/-- A number that fits 32 bits is stored as it is. -/
theorem toInt32_eq {n : Int} (low : -2 ^ 31 ≤ n) (high : n < 2 ^ 31) : toInt32 n = n := by
  rw [toInt32]
  omega

theorem toInt32_toInt32 (n : Int) : toInt32 (toInt32 n) = toInt32 n :=
  toInt32_eq (toInt32_bounds n).1 (toInt32_bounds n).2

/-- `atoi`, as glibc has it: `strtol` saturates, and the result is cut to an `int`. -/
def atoi (text : List Char) : Int :=
  let (negative, text) := splitSign (text.dropWhile isCSpace)
  let value : Int := numeralValue 10 (text.takeWhile (isDigitOf 10))
  toInt32 (if negative then max (-2 ^ 63) (-value) else min value (2 ^ 63 - 1))

/-- The tokens of `strtok` with one separator: it skips empty ones. -/
def strtok (sep : Char) (text : List Char) : List (List Char) :=
  (text.splitOn sep).filter (· ≠ [])

/-- The optional `0x` of a hexadecimal conversion. -/
def dropHexPrefix : List Char → List Char
  | '0' :: c :: rest => if c = 'x' ∨ c = 'X' then rest else '0' :: c :: rest
  | text => text

/-- An unsigned 64-bit conversion (`%zu`, `%lx`) of an input item without leading blanks:
overflow gives the largest value, a minus sign negates modulo the word size.
-/
def scanUnsigned (base : Nat) (text : List Char) : Option (Nat × List Char) :=
  let (negative, text) := splitSign text
  let text := if base = 16 then dropHexPrefix text else text
  let digits := text.takeWhile (isDigitOf base)
  let value := numeralValue base digits
  if digits = [] then
    none
  else
    some
      (if 2 ^ 64 ≤ value then 2 ^ 64 - 1
        else if negative then (2 ^ 64 - value) % 2 ^ 64
        else value,
        text.drop digits.length)

inductive Directive where
  | blank
  | lit (c : Char)
  | unsigned (base : Nat)
  | word (width : Nat)

/-- One assigned argument of a `sscanf` call. -/
inductive ScanArg where
  | num (value : Nat)
  | str (text : List Char)
  deriving DecidableEq, Repr

/-- The arguments `sscanf` assigns before the first directive that fails. -/
def sscanf : List Directive → List Char → List ScanArg
  | [], _ => []
  | .blank :: format, text => sscanf format (text.dropWhile isCSpace)
  | .lit _ :: _, [] => []
  | .lit c :: format, d :: text => if d = c then sscanf format text else []
  | .unsigned base :: format, text =>
      match scanUnsigned base (text.dropWhile isCSpace) with
      | none => []
      | some (value, rest) => .num value :: sscanf format rest
  | .word width :: format, text =>
      let text := text.dropWhile isCSpace
      let word := (text.take width).takeWhile (fun c => !isCSpace c)
      if word = [] then [] else .str word :: sscanf format (text.drop word.length)

-----------------------------------------------------------------------------------------
-- Tokens and strings inside a buffer
-----------------------------------------------------------------------------------------

/-- What is taken from the front does not depend on a text behind that stops at once. -/
theorem takeWhile_append_boundary {p : Char → Bool} {front back : List Char}
    (boundary : ∀ c ∈ back.head?, p c = false)
    : (front ++ back).takeWhile p = front.takeWhile p := by
  induction front with
  | nil =>
      cases back with
      | nil => rfl
      | cons c back => simp [boundary c (by simp)]
  | cons c front ih => simp only [List.cons_append, List.takeWhile_cons, ih]

/-- A token is taken whole where a boundary follows it. -/
theorem takeWhile_token {p : Char → Bool} {token rest : List Char}
    (accepted : ∀ c ∈ token, p c = true) (boundary : ∀ c ∈ rest.head?, p c = false)
    : (token ++ rest).takeWhile p = token := by
  rw [takeWhile_append_boundary boundary]
  have whole : (token ++ []).takeWhile p = token ++ [].takeWhile p :=
    List.takeWhile_append_of_pos accepted
  simpa only [List.append_nil, List.takeWhile_nil] using whole

/-- A buffer reads back the stored chunk up to its first NUL, whatever was stale. -/
@[simp] theorem cString_fgetsStore (buffer chunk : List Char)
    : cString (fgetsStore buffer chunk) = cString chunk :=
  takeWhile_append_boundary (by simp [nul])

/-- A front without NUL belongs to the string. -/
theorem cString_append {front : List Char} (back : List Char) (plain : nul ∉ front)
    : cString (front ++ back) = front ++ cString back := by
  refine List.takeWhile_append_of_pos ?_
  intro c member
  simpa using fun (same : c = nul) => plain (same ▸ member)

theorem cString_eq {text : List Char} (plain : nul ∉ text) : cString text = text := by
  simpa [cString] using cString_append [] plain

/-- A text that fits is printed whole. -/
theorem snprintf_eq {size : Nat} {text : List Char} (fits : text.length < size)
    : snprintf size text = text :=
  List.take_of_length_le (by omega)

/-- Two strings that differ within the compared length are told apart. -/
theorem strncmpEq_of_ne {left right : List Char} {count : Nat} (index : Nat)
    (inside : index < count)
    (differ : (cString left ++ [nul])[index]? ≠ (cString right ++ [nul])[index]?)
    : strncmpEq left right count = false := by
  refine beq_eq_false_iff_ne.mpr (fun same => differ ?_)
  have here := congrArg (fun text => text[index]?) same
  simpa only [List.getElem?_take_of_lt inside] using here

theorem cString_length_le (line : List Char) : (cString line).length ≤ line.length :=
  (List.takeWhile_prefix _).length_le

/-- A string that agrees with a word without NULs is at least as long. -/
theorem length_le_of_strncmpEq {line word : List Char} {count : Nat} (plain : nul ∉ word)
    (whole : word.length ≤ count) (same : strncmpEq line word count = true)
    : word.length ≤ (cString line).length := by
  by_contra short
  have inside : (cString line).length < word.length := Nat.lt_of_not_le short
  have wordString := cString_eq plain
  have differ : (cString line ++ [nul])[(cString line).length]?
      ≠ (cString word ++ [nul])[(cString line).length]? := by
    rw [wordString, List.getElem?_append_right (Nat.le_refl _), Nat.sub_self,
      List.getElem?_append_left inside, List.getElem?_eq_getElem inside]
    intro ended
    exact plain (Option.some.inj ended ▸ List.getElem_mem inside)
  rw [strncmpEq_of_ne _ (Nat.lt_of_lt_of_le inside whole) differ] at same
  cases same

/-- Compared up to its NUL, a word is the whole text, or the NUL stands in the text. -/
theorem eq_or_length_of_strncmpEq {text word : List Char} (plain : nul ∉ word)
    (same : strncmpEq text word (word.length + 1) = true)
    : text = word ∨ word.length + 1 ≤ text.length := by
  have whole := length_le_of_strncmpEq plain (Nat.le_succ _) same
  rcases Nat.lt_or_ge word.length text.length with longer | within
  · exact .inr longer
  · have ownString : cString text = text :=
      (List.takeWhile_prefix _).eq_of_length_le (within.trans whole)
    have lengths : text.length = word.length := by
      rw [ownString] at whole
      exact Nat.le_antisymm within whole
    rw [strncmpEq, ownString, cString_eq plain, beq_iff_eq,
      List.take_of_length_le (by simp; omega), List.take_of_length_le (by simp)] at same
    exact .inl (List.append_cancel_right same)

/-- A comparison with the buffer sees the last chunk only. -/
theorem strncmpEq_fgetsStore (buffer chunk word : List Char) (count : Nat)
    : strncmpEq (fgetsStore buffer chunk) word count = strncmpEq chunk word count := by
  simp only [strncmpEq, cString_fgetsStore]

theorem head?_fgetsStore {chunk : List Char} (buffer : List Char) (nonempty : chunk ≠ [])
    : (fgetsStore buffer chunk).head? = chunk.head? := by
  obtain ⟨c, rest, rfl⟩ := List.exists_cons_of_ne_nil nonempty
  rfl

/-- Behind a prefix that the chunk really has, the buffer reads the rest of the chunk. -/
theorem cString_drop_fgetsStore {count : Nat} {chunk : List Char} (buffer : List Char)
    (inside : count ≤ chunk.length)
    : cString ((fgetsStore buffer chunk).drop count) = cString (chunk.drop count) := by
  rw [fgetsStore, List.drop_append_of_le_length inside]
  exact takeWhile_append_boundary (by simp [nul])

/-- Behind the NUL of the chunk stands what the buffer had before. -/
theorem drop_fgetsStore {count : Nat} {chunk : List Char} (buffer : List Char)
    (behind : chunk.length < count)
    : (fgetsStore buffer chunk).drop count = buffer.drop count := by
  have index : count - chunk.length = count - chunk.length - 1 + 1 := by omega
  rw [fgetsStore, List.drop_append, List.drop_eq_nil_of_le (Nat.le_of_lt behind), List.nil_append,
    index, List.drop_succ_cons, List.drop_drop]
  congr 1
  omega

-----------------------------------------------------------------------------------------
-- A file whose lines fit the buffer is read line by line
-----------------------------------------------------------------------------------------

/-- A line that fits the buffer is taken whole, newline included. -/
theorem fgetsChunk_line {room : Nat} {line : List Char} (rest : List Char)
    (plain : '\n' ∉ line) (fits : line.length < room)
    : fgetsChunk room (line ++ '\n' :: rest) = (line ++ ['\n'], rest) := by
  induction line generalizing room with
  | nil =>
      obtain ⟨room, rfl⟩ := Nat.exists_eq_succ_of_ne_zero (Nat.ne_of_gt fits)
      simp [fgetsChunk]
  | cons c line ih =>
      obtain ⟨room, rfl⟩ :=
        Nat.exists_eq_succ_of_ne_zero (Nat.ne_of_gt (Nat.zero_lt_of_lt fits))
      simp only [List.mem_cons, not_or] at plain
      have tail := ih plain.2 (Nat.lt_of_succ_lt_succ fits)
      simp [fgetsChunk, tail, Ne.symm plain.1]

/-- A last line without a newline is read whole if it fits. -/
theorem fgetsChunk_last {room : Nat} {line : List Char}
    (plain : '\n' ∉ line) (fits : line.length ≤ room)
    : fgetsChunk room line = (line, []) := by
  induction line generalizing room with
  | nil => cases room <;> rfl
  | cons c line ih =>
      obtain ⟨room, rfl⟩ :=
        Nat.exists_eq_succ_of_ne_zero (Nat.ne_of_gt (Nat.zero_lt_of_lt fits))
      simp only [List.mem_cons, not_or] at plain
      have tail := ih plain.2 (Nat.le_of_succ_le_succ fits)
      simp [fgetsChunk, tail, Ne.symm plain.1]

/-- A call of `fgets` loses no character. -/
theorem fgetsChunk_append (room : Nat) (input : List Char)
    : (fgetsChunk room input).1 ++ (fgetsChunk room input).2 = input := by
  induction room generalizing input with
  | zero => rfl
  | succ room ih =>
      cases input with
      | nil => rfl
      | cons c input =>
          simp only [fgetsChunk]
          split
          · rfl
          · exact congrArg (List.cons c) (ih input)

/-- Fuel beyond the input length changes nothing, by induction on the smaller fuel. -/
theorem fgetsLoop_fuel {room : Nat} (less more : Nat) (input : List Char)
    (enough : input.length ≤ less) (order : less ≤ more)
    : fgetsLoop room more input = fgetsLoop room less input := by
  induction less generalizing more input with
  | zero =>
      have empty : input = [] := List.eq_nil_of_length_eq_zero (Nat.le_zero.mp enough)
      subst input
      cases more <;> cases room <;> rfl
  | succ less ih =>
      obtain ⟨more, rfl⟩ :=
        Nat.exists_eq_succ_of_ne_zero (Nat.ne_of_gt (Nat.zero_lt_of_lt order))
      have parts := congrArg List.length (fgetsChunk_append room input)
      rw [List.length_append] at parts
      simp only [fgetsLoop]
      split
      case h_1 => rfl
      case h_2 chunk rest nonempty same =>
          have taken : 0 < chunk.length := by
            refine List.length_pos_iff.mpr (fun empty => ?_)
            subst chunk
            exact nonempty rfl
          simp only [same] at parts
          rw [ih more rest (by omega) (by omega)]

/-- A call that reads something is the first of all calls. -/
theorem fgetsAll_cons {size : Nat} {input chunk rest : List Char}
    (call : fgetsChunk (size - 1) input = (chunk, rest)) (nonempty : chunk ≠ [])
    : fgetsAll size input = chunk :: fgetsAll size rest := by
  have parts := congrArg List.length (fgetsChunk_append (size - 1) input)
  rw [call] at parts
  simp only [List.length_append] at parts
  have taken := List.length_pos_iff.mpr nonempty
  obtain ⟨fuel, same⟩ :=
    Nat.exists_eq_succ_of_ne_zero (Nat.ne_of_gt (by omega : 0 < input.length))
  unfold fgetsAll
  rw [same]
  simp only [fgetsLoop, call]
  rw [fgetsLoop_fuel rest.length fuel rest (Nat.le_refl _) (by omega)]

/-- A file of newline-terminated lines that fit the buffer is read line by line. -/
theorem fgetsAll_lines {size : Nat} (lines : List (List Char)) (rest : List Char)
    (plain : ∀ line ∈ lines, '\n' ∉ line) (fits : ∀ line ∈ lines, line.length < size - 1)
    : fgetsAll size (lines.flatMap (fun line => line ++ ['\n']) ++ rest)
      = lines.map (fun line => line ++ ['\n']) ++ fgetsAll size rest := by
  induction lines with
  | nil => rfl
  | cons line lines ih =>
      have tail := ih (fun next member => plain next (List.mem_cons_of_mem _ member))
        (fun next member => fits next (List.mem_cons_of_mem _ member))
      have head := fgetsChunk_line
        (lines.flatMap (fun line => line ++ ['\n']) ++ rest)
        (plain line (by simp)) (fits line (by simp))
      rw [List.flatMap_cons, List.append_assoc, List.append_assoc, List.singleton_append,
        fgetsAll_cons head (by simp), tail, List.map_cons, List.cons_append]

theorem fgetsAll_last {size : Nat} {line : List Char}
    (plain : '\n' ∉ line) (fits : line.length ≤ size - 1) (nonempty : line ≠ [])
    : fgetsAll size line = [line] := by
  rw [fgetsAll_cons (fgetsChunk_last plain fits) nonempty]
  rfl

/-- A line that is longer than the buffer fills it. -/
theorem fgetsChunk_full {room : Nat} {line : List Char} (rest : List Char)
    (plain : '\n' ∉ line) (long : room ≤ line.length)
    : fgetsChunk room (line ++ rest) = (line.take room, line.drop room ++ rest) := by
  induction line generalizing room with
  | nil =>
      obtain rfl := Nat.le_zero.mp long
      rfl
  | cons c line ih =>
      simp only [List.mem_cons, not_or] at plain
      cases room with
      | zero => rfl
      | succ room =>
          have tail := ih plain.2 (Nat.le_of_succ_le_succ long)
          simp [fgetsChunk, tail, Ne.symm plain.1]

/-- The chunks of a file are pieces of its lines: they start at multiples of the room in the
buffer. The induction is on the length of the line.
-/
theorem forall_fgetsAll_line {holds : List Char → Prop} {size : Nat} {line rest : List Char}
    (space : 1 < size) (plain : '\n' ∉ line)
    (pieces : ∀ k, holds (((line ++ ['\n']).drop (k * (size - 1))).take (size - 1)))
    (later : ∀ chunk ∈ fgetsAll size rest, holds chunk)
    : ∀ chunk ∈ fgetsAll size (line ++ '\n' :: rest), holds chunk := by
  induction length : line.length using Nat.strong_induction_on generalizing line with
  | _ n ih =>
      have first := pieces 0
      rw [Nat.zero_mul, List.drop_zero] at first
      rcases Nat.lt_or_ge line.length (size - 1) with fits | long
      · have whole : (line ++ ['\n']).take (size - 1) = line ++ ['\n'] :=
          List.take_of_length_le (by simp; omega)
        rw [whole] at first
        rw [fgetsAll_cons (fgetsChunk_line rest plain fits) (by simp)]
        exact List.forall_mem_cons.mpr ⟨first, later⟩
      · have nonempty : line.take (size - 1) ≠ [] := by
          rw [← List.length_pos_iff, List.length_take]
          omega
        rw [List.take_append_of_le_length long] at first
        rw [fgetsAll_cons (fgetsChunk_full ('\n' :: rest) plain long) nonempty]
        refine List.forall_mem_cons.mpr ⟨first, ?_⟩
        refine ih (line.drop (size - 1)).length ?_ ?_ (fun k => ?_) rfl
        · rw [List.length_drop]
          omega
        · exact fun member => plain (List.mem_of_mem_drop member)
        · have next := pieces (k + 1)
          rwa [Nat.succ_mul, Nat.add_comm, ← List.drop_drop,
            List.drop_append_of_le_length long] at next

/-- The same for all lines of a file. -/
theorem forall_fgetsAll_lines {holds : List Char → Prop} {size : Nat} {lines : List (List Char)}
    (space : 1 < size) (plain : ∀ line ∈ lines, '\n' ∉ line)
    (pieces
      : ∀ line ∈ lines, ∀ k, holds (((line ++ ['\n']).drop (k * (size - 1))).take (size - 1)))
    : ∀ chunk ∈ fgetsAll size (lines.flatMap (fun line => line ++ ['\n'])), holds chunk := by
  induction lines with
  | nil => exact nofun
  | cons line lines ih =>
      rw [List.flatMap_cons, List.append_assoc, List.singleton_append]
      exact forall_fgetsAll_line space (plain line List.mem_cons_self)
        (pieces line List.mem_cons_self)
        (ih (fun other member => plain other (List.mem_cons_of_mem line member))
          (fun other member => pieces other (List.mem_cons_of_mem line member)))

/-- What a file is read as goes from line to line, also where a line fills the buffer. The
induction is on the length of the line.
-/
theorem fgetsAll_line {size : Nat} {line : List Char} (rest : List Char) (space : 1 < size)
    (plain : '\n' ∉ line)
    : fgetsAll size (line ++ '\n' :: rest)
      = fgetsAll size (line ++ ['\n']) ++ fgetsAll size rest := by
  induction length : line.length using Nat.strong_induction_on generalizing line with
  | _ n ih =>
      rcases Nat.lt_or_ge line.length (size - 1) with fits | long
      · rw [fgetsAll_cons (fgetsChunk_line rest plain fits) (by simp),
          fgetsAll_cons (fgetsChunk_line [] plain fits) (by simp)]
        rfl
      · have nonempty : line.take (size - 1) ≠ [] := by
          rw [← List.length_pos_iff, List.length_take]
          omega
        have shorter := ih (line.drop (size - 1)).length
          (by rw [List.length_drop]; omega) (fun member => plain (List.mem_of_mem_drop member)) rfl
        rw [fgetsAll_cons (fgetsChunk_full ('\n' :: rest) plain long) nonempty, shorter,
          fgetsAll_cons (fgetsChunk_full ['\n'] plain long) nonempty, List.cons_append]

/-- The first chunk of a line is what the buffer takes of it. -/
theorem fgetsAll_first {size : Nat} {line : List Char} (space : 1 < size) (plain : '\n' ∉ line)
    : fgetsAll size (line ++ ['\n'])
      = (line ++ ['\n']).take (size - 1) :: fgetsAll size ((line ++ ['\n']).drop (size - 1)) := by
  rcases Nat.lt_or_ge line.length (size - 1) with fits | long
  · have whole : (line ++ ['\n']).length ≤ size - 1 := by
      rw [List.length_append, List.length_singleton]
      omega
    rw [fgetsAll_cons (fgetsChunk_line [] plain fits) (by simp), List.take_of_length_le whole,
      List.drop_eq_nil_of_le whole]
  · have nonempty : line.take (size - 1) ≠ [] := by
      rw [← List.length_pos_iff, List.length_take]
      omega
    rw [fgetsAll_cons (fgetsChunk_full ['\n'] plain long) nonempty,
      List.take_append_of_le_length long, List.drop_append_of_le_length long]

/-- Chunks consist of characters of the input. -/
theorem mem_of_mem_fgetsAll {size : Nat} {input chunk : List Char}
    (member : chunk ∈ fgetsAll size input)
    : ∀ c ∈ chunk, c ∈ input := by
  unfold fgetsAll at member
  generalize input.length = fuel at member
  induction fuel generalizing input with
  | zero => cases member
  | succ fuel ih =>
      have parts := fgetsChunk_append (size - 1) input
      rw [fgetsLoop] at member
      split at member
      case h_1 => cases member
      case h_2 first rest _ call =>
          rw [call] at parts
          intro c inside
          rw [← parts]
          rcases List.mem_cons.mp member with rfl | later
          · exact List.mem_append_left _ inside
          · exact List.mem_append_right _ (ih later c inside)

-----------------------------------------------------------------------------------------
-- What ends a piece, and files one behind the other
-----------------------------------------------------------------------------------------

/-- A call of `fgets` that leaves something has seen a newline, or the buffer is full. -/
theorem fgetsChunk_closed {room : Nat} {input : List Char} (more : (fgetsChunk room input).2 ≠ [])
    : (fgetsChunk room input).1.getLast? = some '\n'
      ∨ (fgetsChunk room input).1.length = room := by
  induction room generalizing input with
  | zero => exact .inr rfl
  | succ room ih =>
      cases input with
      | nil => exact absurd rfl more
      | cons c input =>
          rw [fgetsChunk] at more ⊢
          split
          case isTrue newline =>
              rw [newline]
              exact .inl rfl
          case isFalse other =>
              rw [if_neg other] at more
              dsimp only at more ⊢
              rcases ih more with ended | full
              · refine .inl ?_
                rw [List.getLast?_cons, ended]
                rfl
              · exact .inr (by rw [List.length_cons, full])

theorem fgetsLoop_nil (room fuel : Nat) : fgetsLoop room fuel [] = [] := by
  cases fuel <;> cases room <;> rfl

/-- So does a piece with another one behind it. -/
theorem fgetsAll_closed {size : Nat} {input piece : List Char} {before after : List (List Char)}
    (pieces : fgetsAll size input = before ++ piece :: after) (more : after ≠ [])
    : piece.getLast? = some '\n' ∨ piece.length = size - 1 := by
  unfold fgetsAll at pieces
  generalize input.length = fuel at pieces
  induction fuel generalizing input before with
  | zero => cases before <;> cases pieces
  | succ fuel ih =>
      rw [fgetsLoop] at pieces
      split at pieces
      case h_1 => cases before <;> cases pieces
      case h_2 first rest _ call =>
          cases before with
          | nil =>
              obtain ⟨rfl, rfl⟩ := List.cons.inj pieces
              have left : (fgetsChunk (size - 1) input).2 ≠ [] := by
                rw [call]
                rintro rfl
                exact more (fgetsLoop_nil (size - 1) fuel)
              have closed := fgetsChunk_closed left
              rwa [call] at closed
          | cons other before => exact ih (List.cons.inj pieces).2

/-- No call of the loop reads nothing. -/
theorem ne_nil_of_mem_fgetsAll {size : Nat} {input piece : List Char}
    (member : piece ∈ fgetsAll size input)
    : piece ≠ [] := by
  unfold fgetsAll at member
  generalize input.length = fuel at member
  induction fuel generalizing input with
  | zero => cases member
  | succ fuel ih =>
      rw [fgetsLoop] at member
      split at member
      case h_1 => cases member
      case h_2 first rest nonempty _ =>
          rcases List.mem_cons.mp member with rfl | later
          · exact nonempty
          · exact ih later

/-- A text that is empty or ends with a newline. -/
def LineEnds (text : List Char) : Prop := text = [] ∨ text.getLast? = some '\n'

/-- Behind complete lines a file is read as it is alone. -/
theorem fgetsAll_append {size : Nat} {front : List Char} (space : 1 < size)
    (lines : LineEnds front) (back : List Char)
    : fgetsAll size (front ++ back) = fgetsAll size front ++ fgetsAll size back := by
  induction length : front.length using Nat.strong_induction_on generalizing front with
  | _ n ih =>
      rcases lines with rfl | ended
      · rfl
      · obtain ⟨line, rest, rfl, plain⟩ :=
          List.eq_append_cons_of_mem (List.mem_of_getLast? ended)
        have restLines : LineEnds rest := by
          cases rest with
          | nil => exact .inl rfl
          | cons c rest =>
              refine .inr ?_
              simpa [List.getLast?_append, List.getLast?_cons] using ended
        have shorter := ih rest.length
          (by rw [← length, List.length_append, List.length_cons]; omega) restLines rfl
        rw [List.append_assoc, List.cons_append, fgetsAll_line (rest ++ back) space plain, shorter,
          fgetsAll_line rest space plain, List.append_assoc]

-----------------------------------------------------------------------------------------
-- Every conversion reads a numeral up to the next character
-----------------------------------------------------------------------------------------

/-- A digit is no blank and no sign. -/
theorem isDigitOf_ten_ne {c : Char} (digit : isDigitOf 10 c = true)
    : isCSpace c = false ∧ c ≠ '-' ∧ c ≠ '+' := by
  have range := isDigitOf_ten_iff.mp digit
  refine ⟨?_, ?_, ?_⟩
  · simp only [isCSpace, Bool.or_eq_false_iff, decide_eq_false_iff_not, Bool.and_eq_false_iff]
    refine ⟨?_, Or.inr (by omega)⟩
    rintro rfl
    simp at range
  · rintro rfl
    simp at range
  · rintro rfl
    simp at range

theorem digit_ne_nul {c : Char} (digit : isDigitOf 10 c = true) : c ≠ nul := by
  rintro rfl
  exact absurd digit (by decide)

theorem Numeral.nul_not_mem (numeral : Numeral 10) : nul ∉ numeral.digits :=
  fun member => digit_ne_nul (numeral.valid nul member) rfl

/-- Nothing is skipped in front of a numeral, and no sign is read. -/
theorem Numeral.leading (numeral : Numeral 10) (rest : List Char)
    : (numeral.digits ++ rest).dropWhile isCSpace = numeral.digits ++ rest
      ∧ splitSign (numeral.digits ++ rest) = (false, numeral.digits ++ rest) := by
  obtain ⟨digits, nonempty, valid⟩ := numeral
  cases digits with
  | nil => exact absurd rfl nonempty
  | cons c digits =>
      obtain ⟨notBlank, notMinus, notPlus⟩ := isDigitOf_ten_ne (valid c (by simp))
      simp [splitSign, notBlank, notMinus, notPlus]

/-- `%zu` reads a numeral below the word size exactly and stops at the next character. -/
theorem scanUnsigned_numeral (numeral : Numeral 10) {rest : List Char}
    (boundary : ∀ c ∈ rest.head?, isDigitOf 10 c = false)
    (fits : numeral.value < 2 ^ 64)
    : scanUnsigned 10 (numeral.digits ++ rest) = some (numeral.value, rest) := by
  have digits : (numeral.digits ++ rest).takeWhile (isDigitOf 10) = numeral.digits :=
    takeWhile_token numeral.valid boundary
  have value : ¬ 2 ^ 64 ≤ numeralValue 10 numeral.digits := Nat.not_le.mpr fits
  simp only [scanUnsigned, (numeral.leading rest).2]
  simp only [show ¬ (10 = 16) by omega, if_false, digits, numeral.nonempty, value,
    Bool.false_eq_true, List.drop_left, Numeral.value]

/-- `%lu` reads a numeral in front of a boundary. -/
theorem sscanf_unsigned (numeral : Numeral 10) (format : List Directive) {rest : List Char}
    (boundary : ∀ c ∈ rest.head?, isDigitOf 10 c = false)
    (fits : numeral.value < 2 ^ 64)
    : sscanf (.unsigned 10 :: format) (numeral.digits ++ rest)
      = .num numeral.value :: sscanf format rest := by
  simp only [sscanf, (numeral.leading rest).1, scanUnsigned_numeral numeral boundary fits]

/-- A literal of the format reads itself. -/
theorem sscanf_lit (c : Char) (format : List Directive) (text : List Char)
    : sscanf (.lit c :: format) (c :: text) = sscanf format text := by
  simp [sscanf]

/-- A literal that is followed by an assigned argument stands at the front of the text. -/
theorem sscanf_lit_eq_cons {c : Char} {format : List Directive} {text : List Char}
    {first : ScanArg} {more : List ScanArg}
    (scanned : sscanf (.lit c :: format) text = first :: more)
    : ∃ rest, text = c :: rest ∧ sscanf format rest = first :: more := by
  cases text with
  | nil => cases scanned
  | cons d rest =>
      by_cases same : d = c
      · rw [same, sscanf_lit] at scanned
        exact ⟨rest, by rw [same], scanned⟩
      · simp [sscanf, same] at scanned

/-- A conversion leaves a back part of its text. -/
theorem scanUnsigned_suffix {base value : Nat} {text rest : List Char}
    (scanned : scanUnsigned base text = some (value, rest))
    : rest <:+ text := by
  have unsigned : (splitSign text).2 <:+ text := by
    unfold splitSign
    split
    case h_1 => exact List.suffix_refl _
    case h_2 c others =>
        split
        · exact List.suffix_cons c others
        split
        · exact List.suffix_cons c others
        · exact List.suffix_refl _
  have bare (digits : List Char) : dropHexPrefix digits <:+ digits := by
    unfold dropHexPrefix
    split
    case h_1 c others =>
        split
        · exact (List.suffix_cons c others).trans (List.suffix_cons _ _)
        · exact List.suffix_refl _
    case h_2 => exact List.suffix_refl _
  have prefixed : (if base = 16 then dropHexPrefix (splitSign text).2 else (splitSign text).2)
      <:+ text := by
    split
    · exact (bare _).trans unsigned
    · exact unsigned
  unfold scanUnsigned at scanned
  dsimp only at scanned
  generalize (if base = 16 then dropHexPrefix (splitSign text).2 else (splitSign text).2)
    = digits at scanned prefixed
  split at scanned
  · cases scanned
  · obtain ⟨_, rfl⟩ := Prod.mk.inj (Option.some.inj scanned)
    exact (List.drop_suffix _ _).trans prefixed

/-- A number that is followed by more arguments leaves a back part of the text to them. -/
theorem sscanf_unsigned_eq_cons {base : Nat} {format : List Directive} {text : List Char}
    {first : ScanArg} {more : List ScanArg}
    (scanned : sscanf (.unsigned base :: format) text = first :: more)
    : ∃ rest, rest <:+ text ∧ sscanf format rest = more := by
  rw [sscanf] at scanned
  split at scanned
  case h_1 => cases scanned
  case h_2 value rest number =>
      obtain ⟨_, others⟩ := List.cons.inj scanned
      exact ⟨rest, (scanUnsigned_suffix number).trans (List.dropWhile_suffix _), others⟩

/-- `atoi` reads a numeral that fits an `int` and ignores what follows it. -/
theorem atoi_numeral (numeral : Numeral 10) {rest : List Char}
    (boundary : ∀ c ∈ rest.head?, isDigitOf 10 c = false)
    (fits : numeral.value < 2 ^ 31)
    : atoi (numeral.digits ++ rest) = numeral.value := by
  have digits : (numeral.digits ++ rest).takeWhile (isDigitOf 10) = numeral.digits :=
    takeWhile_token numeral.valid boundary
  simp only [atoi, (numeral.leading rest).1, (numeral.leading rest).2, digits, toInt32]
  have value : numeralValue 10 numeral.digits = numeral.value := rfl
  simp only [value, Bool.false_eq_true, if_false]
  omega

-----------------------------------------------------------------------------------------
-- Hexadecimal conversions
-----------------------------------------------------------------------------------------

theorem isDigitOf_hex_ne {c : Char} (digit : isDigitOf 16 c = true)
    : isCSpace c = false ∧ c ≠ '-' ∧ c ≠ '+' ∧ c ≠ 'x' ∧ c ≠ 'X' := by
  refine ⟨?_, ?_, ?_, ?_, ?_⟩
  · by_contra space
    have blank := Bool.eq_true_of_not_eq_false space
    simp only [isCSpace, Bool.or_eq_true, Bool.and_eq_true, decide_eq_true_eq] at blank
    rcases blank with rfl | range
    · exact absurd digit (by decide)
    · rw [isDigitOf, decide_eq_true_iff, digitValue] at digit
      split_ifs at digit <;> omega
  all_goals
    rintro rfl
    exact absurd digit (by decide)

/-- A text that does not begin with 0x has no prefix to drop. -/
theorem dropHexPrefix_eq {text : List Char}
    (bare : ∀ c rest, text = '0' :: c :: rest → c ≠ 'x' ∧ c ≠ 'X')
    : dropHexPrefix text = text := by
  unfold dropHexPrefix
  split
  case h_1 c rest =>
      obtain ⟨small, large⟩ := bare c rest rfl
      exact if_neg (not_or.mpr ⟨small, large⟩)
  case h_2 => rfl

/-- `%lx` reads a printed number below the word size exactly; the prefix of a zero is not
mistaken for one of the number.
-/
theorem scanUnsigned_hex {n : Nat} {rest : List Char} (fits : n < 2 ^ 64)
    (boundary : ∀ c ∈ rest.head?, isDigitOf 16 c = false ∧ c ≠ 'x' ∧ c ≠ 'X')
    : scanUnsigned 16 (Nat.toDigits 16 n ++ rest) = some (n, rest) := by
  have valid : ∀ c ∈ Nat.toDigits 16 n, isDigitOf 16 c = true :=
    isDigitOf_toDigits (by omega) (by omega) n
  have value : numeralValue 16 (Nat.toDigits 16 n) = n :=
    numeralValue_toDigits (by omega) (by omega) n
  obtain ⟨c, more, digits⟩ :=
    List.exists_cons_of_ne_nil (Nat.toDigits_ne_nil (n := n) (b := 16))
  have read : (Nat.toDigits 16 n ++ rest).takeWhile (isDigitOf 16) = Nat.toDigits 16 n :=
    takeWhile_token valid (fun c first => (boundary c first).1)
  have bare : dropHexPrefix (Nat.toDigits 16 n ++ rest) = Nat.toDigits 16 n ++ rest := by
    refine dropHexPrefix_eq (fun d others same => ?_)
    rw [digits] at same valid
    cases more with
    | nil =>
        obtain ⟨_, front⟩ := List.cons.inj same
        have first : rest.head? = some d := congrArg List.head? front
        exact (boundary d first).2
    | cons e more =>
        obtain ⟨_, front⟩ := List.cons.inj same
        obtain ⟨rfl, _⟩ := List.cons.inj front
        have inside := isDigitOf_hex_ne (valid e (List.mem_cons_of_mem c List.mem_cons_self))
        exact ⟨inside.2.2.2.1, inside.2.2.2.2⟩
  have sign : splitSign (Nat.toDigits 16 n ++ rest) = (false, Nat.toDigits 16 n ++ rest) := by
    obtain ⟨_, notMinus, notPlus, _⟩ := isDigitOf_hex_ne (valid c (by simp [digits]))
    simp [digits, splitSign, notMinus, notPlus]
  have small : ¬ 2 ^ 64 ≤ n := Nat.not_le.mpr fits
  unfold scanUnsigned
  rw [sign]
  simp only [if_true, bare, read, value, Nat.toDigits_ne_nil, if_false, small, Bool.false_eq_true,
    List.drop_left]

/-- `%lx` reads the digits of a number in front of a boundary. -/
theorem sscanf_hex {n : Nat} (format : List Directive) {rest : List Char} (fits : n < 2 ^ 64)
    (boundary : ∀ c ∈ rest.head?, isDigitOf 16 c = false ∧ c ≠ 'x' ∧ c ≠ 'X')
    : sscanf (.unsigned 16 :: format) (Nat.toDigits 16 n ++ rest)
      = .num n :: sscanf format rest := by
  have solid : (Nat.toDigits 16 n ++ rest).dropWhile isCSpace = Nat.toDigits 16 n ++ rest := by
    have valid : ∀ c ∈ Nat.toDigits 16 n, isDigitOf 16 c = true :=
      isDigitOf_toDigits (by omega) (by omega) n
    obtain ⟨c, more, digits⟩ :=
      List.exists_cons_of_ne_nil (Nat.toDigits_ne_nil (n := n) (b := 16))
    rw [digits] at valid ⊢
    rw [List.cons_append, List.dropWhile_cons_of_neg]
    rw [(isDigitOf_hex_ne (valid c List.mem_cons_self)).1]
    exact Bool.false_ne_true
  simp only [sscanf, solid, scanUnsigned_hex fits boundary]

end Kumf.Library
