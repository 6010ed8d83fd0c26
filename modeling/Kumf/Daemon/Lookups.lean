import Kumf.Daemon.Wrapping
import Kumf.Interc.DaemonQuery
import Kumf.Library.FsDecode

/-! The key of an executable: `profile` stores the file that the command names in the working
directory, and the library asks for the one that runs, over a short buffer and a text message.
-/

namespace Kumf.Daemon

open Kumf.Library PyText PyStr
open Kumf.Interc (lookupMessage lookupMessage_eq)

/-- The bytes of a file's path. -/
structure FilePath (path : Path) : Prop where
  nonempty : path ≠ []
  bytes : ∀ c ∈ path, c.toNat < 256
  plain : nul ∉ path

instance (path : Path) : Decidable (FilePath path) :=
  decidable_of_iff (path ≠ [] ∧ (path.all (fun c => c.toNat < 256)) ∧ nul ∉ path)
    ⟨fun file => ⟨file.1, by simpa using file.2.1, file.2.2⟩,
      fun file => ⟨file.nonempty, by simpa using file.bytes, file.plain⟩⟩

/-- The files of a system: `realpath`, and what `/proc/self/exe` shows in a process that
executes a path, where that is possible.
-/
structure Programs where
  realpath : Path → Path
  runs : Path → Option Path
  realpath_file : ∀ path, FilePath (realpath path)
  runs_file : ∀ {path exe}, runs path = some exe → FilePath exe

/-- A name in a directory of `PATH`; an empty entry is the working directory. -/
def inSearchDir (dir name : Path) : Path := if dir = [] then name else dir ++ '/' :: name

/-- The executable that a command runs: a name without a slash is searched for. -/
def Programs.executed (programs : Programs) (cwd : Path) (searchPath : List Path)
    : List Path → Option Path
  | [] => none
  | name :: _ =>
      if '/' ∈ name then
        programs.runs (resolve cwd name)
      else
        searchPath.findSome? (fun dir => programs.runs (resolve cwd (inSearchDir dir name)))

/-- The `exe_path` of `profile`: `os.path.realpath(cmd[0]) if cmd else None` -/
def Programs.profileExe (programs : Programs) (cwd : Path) : List Path → Option PyStr
  | [] => none
  | name :: _ => some (fsdecode (programs.realpath (resolve cwd name)))

/-- The name under which a call registers its executable. -/
def SaveCall.lookupName (hash : List Char → List Char) (call : SaveCall) : Option Path :=
  call.exeBytes.map (fun bytes => lookupConf (hash bytes))

/-- The name that `_handle_message` computes for a `LOOKUP`. -/
def lookedUp (hash : List Char → List Char) (msg : List Char) : Path :=
  lookupConf (hash (utf8 ((splitLimit ':' 2 msg)[2]?.getD [])))

/-- The bytes that the daemon hashes for an executable: 255 of them, and what cannot be
decoded is replaced.
-/
def readBack (exe : Path) : Path := utf8 (decodeUtf8 (exe.take 255))

-----------------------------------------------------------------------------------------
-- The two sides
-----------------------------------------------------------------------------------------

/-- A file in UTF-8 is registered under its bytes, and another one not at all. -/
theorem exeBytes_fsdecode {call : SaveCall} {named : Path} (file : FilePath named)
    (registered : call.exePath = some (fsdecode named))
    : (IsUtf8 named → call.exeBytes = some named)
      ∧ (¬ IsUtf8 named → call.exeBytes = none) := by
  rw [SaveCall.exeBytes, registered, Option.bind_some]
  constructor
  · intro valid
    have encoded := encode_fsdecode_utf8 valid
    have nonempty : fsdecode named ≠ [] := by
      intro empty
      rw [empty] at encoded
      exact file.nonempty (Option.some.inj encoded).symm
    rw [if_neg nonempty, encoded]
  · intro invalid
    rw [encode_fsdecode_other file.bytes invalid]
    split <;> rfl

/-- The text that the daemon makes of the message of a process. -/
theorem received_lookup {pid : Nat} {exe : Path} (small : pid < 2 ^ 31) (file : FilePath exe)
    : received (lookupMessage pid exe)
      = "LOOKUP:".toList ++ Nat.toDigits 10 pid ++ ':' :: decodeUtf8 (exe.take 255) := by
  have front : Ascii ("LOOKUP:".toList ++ Nat.toDigits 10 pid ++ [':']) := by
    have word : Ascii "LOOKUP:".toList := by simp [Ascii]
    exact (word.append (ascii_toDigits pid)).append (by simp [Ascii])
  have message : lookupMessage pid exe
      = utf8 ("LOOKUP:".toList ++ Nat.toDigits 10 pid ++ [':']) ++ exe.take 255 := by
    rw [lookupMessage_eq small file.plain, utf8_ascii front, List.append_assoc _ [':']]
    rfl
  have fits : (lookupMessage pid exe).length ≤ 4096 := by
    rw [lookupMessage, snprintf]
    exact (List.length_take_le _ _).trans (by omega)
  rw [received, List.take_of_length_le fits, message, decodeUtf8_append,
    List.append_assoc _ [':']]
  rfl

/-- The message of a process makes the daemon hash what it reads back of the executable. -/
theorem lookedUp_message {pid : Nat} {exe : Path} (small : pid < 2 ^ 31) (file : FilePath exe)
    (hash : List Char → List Char)
    : lookedUp hash (received (lookupMessage pid exe)) = lookupConf (hash (readBack exe)) := by
  rw [lookedUp, received_lookup small file, lookup_parts]
  rfl

theorem executed_file {programs : Programs} {cwd exe : Path} {searchPath cmd : List Path}
    (runs : programs.executed cwd searchPath cmd = some exe)
    : FilePath exe := by
  cases cmd with
  | nil => cases runs
  | cons name args =>
      by_cases slash : '/' ∈ name
      · rw [Programs.executed, if_pos slash] at runs
        exact programs.runs_file runs
      · rw [Programs.executed, if_neg slash] at runs
        obtain ⟨dir, -, found⟩ := List.exists_of_findSome?_eq_some runs
        exact programs.runs_file found

/-- A file in UTF-8 is read back unless it is cut, and even then when the cut falls into a
replacement character at its end.
-/
theorem readBack_eq_iff {exe : Path} (valid : IsUtf8 exe)
    : readBack exe = exe
      ↔ exe.length ≤ 255
        ∨ ∃ front,
            exe = utf8 (front ++ [replacement])
            ∧ (utf8 front).length < 255
            ∧ 255 < exe.length := by
  obtain ⟨text, rfl⟩ := valid
  have texts : readBack (utf8 text) = utf8 text ↔ decodeUtf8 ((utf8 text).take 255) = text :=
    utf8_injective.eq_iff
  rw [texts, decodeUtf8_take_eq_iff]
  simp only [utf8_injective.eq_iff]

/-- Both sides name the same configuration exactly when the file that the command names can be
registered, and is the executable with a path that the message carries whole, or cannot be
told from what is read back of it.
-/
theorem lookup_agrees_iff (programs : Programs) (hash : List Char → List Char)
    (cwd : Path) (searchPath : List Path) (name : Path) (args : List Path) (exe : Path)
    (runs : programs.executed cwd searchPath (name :: args) = some exe)
    (call : SaveCall) (registered : call.exePath = programs.profileExe cwd (name :: args))
    (pid : Nat) (small : pid < 2 ^ 31)
    : let named := programs.realpath (resolve cwd name)
      call.lookupName hash = some (lookedUp hash (received (lookupMessage pid exe)))
      ↔ IsUtf8 named
        ∧ (named = exe
            ∧ (exe.length ≤ 255
              ∨ ∃ front,
                  exe = utf8 (front ++ [replacement])
                  ∧ (utf8 front).length < 255
                  ∧ 255 < exe.length)
          ∨ named ≠ exe ∧ named = readBack exe
          ∨ named ≠ readBack exe ∧ hash named = hash (readBack exe)) := by
  intro named
  have namedFile : FilePath named := programs.realpath_file _
  have stored := exeBytes_fsdecode namedFile registered
  rw [lookedUp_message small (executed_file runs), SaveCall.lookupName]
  by_cases valid : IsUtf8 named
  · have whole (same : named = exe) := readBack_eq_iff (same ▸ valid)
    rw [stored.1 valid, Option.map_some, Option.some_inj, lookupConf_injective.eq_iff]
    constructor
    · intro sameHash
      refine ⟨valid, ?_⟩
      by_cases read : named = readBack exe
      · by_cases same : named = exe
        · exact .inl ⟨same, (whole same).mp (read.symm.trans same)⟩
        · exact .inr (.inl ⟨same, read⟩)
      · exact .inr (.inr ⟨read, sameHash⟩)
    · rintro ⟨-, ⟨same, fits⟩ | ⟨-, read⟩ | ⟨-, sameHash⟩⟩
      · rw [(whole same).mpr fits, same]
      · rw [← read]
      · exact sameHash
  · rw [stored.2 valid]
    simp [valid]

/-- A system without symbolic links whose only program is `/usr/bin/app`. -/
def appPrograms : Programs where
  realpath := fun path => if FilePath path then path else ['/']
  runs := fun path => if path = "/usr/bin/app".toList then some path else none
  realpath_file := by
    intro path
    split
    case isTrue file => exact file
    case isFalse => exact ⟨by simp, by simp, by decide⟩
  runs_file := by
    intro path exe runs
    split at runs
    case isTrue same =>
        rw [← Option.some.inj runs, same]
        exact ⟨by simp, by simp, by decide⟩
    case isFalse => cases runs

/-- The first digits of the MD5 of the two paths below. -/
def appPathHash (bytes : List Char) : List Char :=
  if bytes = "/home/user/app".toList then "4c37c7c3".toList else "26d35b61".toList

/-- The profile of a command that is run in the directory of a user. -/
def registerApp (name : Path) : SaveCall :=
  { saveApp "/home/user/out/kumf.conf".toList with
    exePath := appPrograms.profileExe "/home/user".toList [name] }

theorem lookup_agrees_absolute
    : (registerApp "/usr/bin/app".toList).lookupName appPathHash
      = some (lookedUp appPathHash (received (lookupMessage 7 "/usr/bin/app".toList))) := by
  have named : appPrograms.realpath (resolve "/home/user".toList "/usr/bin/app".toList)
      = "/usr/bin/app".toList := by decide +kernel
  refine (lookup_agrees_iff appPrograms appPathHash "/home/user".toList [] "/usr/bin/app".toList
    [] "/usr/bin/app".toList (by decide +kernel) (registerApp "/usr/bin/app".toList) rfl 7
    (by omega)).mpr ?_
  rw [named]
  exact ⟨⟨"/usr/bin/app".toList, by decide +kernel⟩, .inl ⟨rfl, .inl (by decide)⟩⟩

/-- A bare name is searched for in `PATH`, but registered in the working directory. -/
theorem bareName_disagrees
    : appPrograms.executed "/home/user".toList ["/usr/bin".toList] ["app".toList]
        = some "/usr/bin/app".toList
      ∧ (registerApp "app".toList).lookupName appPathHash
        ≠ some (lookedUp appPathHash (received (lookupMessage 7 "/usr/bin/app".toList))) := by
  decide +kernel

end Kumf.Daemon
