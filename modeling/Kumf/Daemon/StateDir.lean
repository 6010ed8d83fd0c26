import Kumf.Library.PyStr
import Mathlib.Logic.Function.Basic

/-! The state directory of the daemon: configurations stored under the hash of a command and
of an executable, as links or copies, by `_save_profile`.
-/

namespace Kumf.Daemon

open Kumf.Library PyText

abbrev Path := List Char

/-- A path as the system resolves it from a directory. -/
def resolve (dir path : Path) : Path :=
  if path.head? = some '/' then path else dir ++ '/' :: path

/-- What stands under a name of the state directory: a symbolic link, or a file of its own. -/
inductive Node (File : Type) where
  | link (target : Path)
  | copy (content : File)
  deriving DecidableEq, Repr

/-- The links and copies in the state directory, by file name. -/
abbrev Links (File : Type) := Path → Option (Node File)

/-- The state directory, and the files of the system outside it by absolute path. -/
structure Host (File : Type) where
  stateDir : Path
  file : Path → Option File

/-- `f"profile_{cmd_hash}.conf"` -/
def profileConf (cmdHash : List Char) : Path := "profile_".toList ++ cmdHash ++ ".conf".toList

/-- `f"lookup_{exe_hash}.conf"` -/
def lookupConf (exeHash : List Char) : Path := "lookup_".toList ++ exeHash ++ ".conf".toList

variable {File : Type}

/-- The file that opening a node gives. A relative target counts from the directory of the
link.
-/
def Host.read (host : Host File) : Node File → Option File
  | .link target => host.file (resolve host.stateDir target)
  | .copy content => some content

/-- The file that opening a name of the state directory gives. -/
def Host.readThrough (host : Host File) (links : Links File) (name : Path) : Option File :=
  (links name).bind host.read

/-- `path.exists()`, which follows links -/
def Host.finds (host : Host File) (links : Links File) (name : Path) : Bool :=
  (host.readThrough links name).isSome

/-- `str(self.state_dir / name)` -/
def Host.inStateDir (host : Host File) (name : Path) : Path := host.stateDir ++ '/' :: name

-----------------------------------------------------------------------------------------
-- _save_profile
-----------------------------------------------------------------------------------------

inductive SaveError where
  | fileNotFound
  | unicodeEncode
  deriving DecidableEq, Repr

/-- A call of `_save_profile`: its arguments, the working directory of the process, and whether
the two symbolic links can be made.
-/
structure SaveCall where
  cwd : Path
  confPath : Path
  cmdHash : List Char
  exePath : Option PyStr
  profileLinkable : Bool
  lookupLinkable : Bool
  deriving DecidableEq

/-- The file that the caller passes. -/
def Host.passed (host : Host File) (call : SaveCall) : Option File :=
  host.file (resolve call.cwd call.confPath)

/-- Replace a name by a link to the configuration, or by a copy where links fail. -/
def replaceLink (host : Host File) (call : SaveCall) (linkable : Bool) (name : Path)
    : EStateM SaveError (Links File) Unit := do
  modify (fun links => Function.update links name none)
  if linkable then
    modify (fun links => Function.update links name (some (.link call.confPath)))
  else
    match host.passed call with
    | some content => modify (fun links => Function.update links name (some (.copy content)))
    | none => throw .fileNotFound

/-- `_save_profile`; `hash` gives the first eight digits of the MD5 of some bytes. -/
def saveProfile (host : Host File) (hash : List Char → List Char) (call : SaveCall)
    : EStateM SaveError (Links File) Unit := do
  replaceLink host call call.profileLinkable (profileConf call.cmdHash)
  match call.exePath with
  | none => pure ()
  | some exePath =>
      if exePath = [] then
        pure ()
      else
        match PyStr.encode exePath with
        | none => throw .unicodeEncode
        | some bytes => replaceLink host call call.lookupLinkable (lookupConf (hash bytes))

/-- The links after a call, whether it raised or not. -/
def savedLinks (host : Host File) (hash : List Char → List Char) (links : Links File)
    (call : SaveCall)
    : Links File :=
  match (saveProfile host hash call).run links with
  | .ok _ links => links
  | .error _ links => links

-----------------------------------------------------------------------------------------
-- Names and nodes
-----------------------------------------------------------------------------------------

theorem profileConf_injective : Function.Injective profileConf := by
  intro left right same
  exact List.append_cancel_left (List.append_cancel_right same)

theorem lookupConf_injective : Function.Injective lookupConf := by
  intro left right same
  exact List.append_cancel_left (List.append_cancel_right same)

theorem profileConf_ne_lookupConf (cmdHash exeHash : List Char)
    : profileConf cmdHash ≠ lookupConf exeHash := by
  intro same
  have first : some 'p' = some 'l' := congrArg List.head? same
  exact absurd first (by decide)

/-- Read from the state directory, the path of the configuration names the file that the caller
passes. Nothing is asked where copies are made.
-/
def Host.Reaches (host : Host File) (call : SaveCall) : Prop :=
  call.profileLinkable = true ∨ call.lookupLinkable = true
  → host.file (resolve host.stateDir call.confPath) = host.passed call

/-- An absolute path means the same everywhere. -/
theorem Host.reaches_absolute (host : Host File) {call : SaveCall}
    (absolute : call.confPath.head? = some '/')
    : host.Reaches call := by
  intro _
  rw [Host.passed, resolve, resolve, if_pos absolute, if_pos absolute]

/-- What a replacement leaves under the name reads as the passed file. -/
theorem replaceLink_run {host : Host File} {call : SaveCall} {linkable : Bool} {content : File}
    (passed : host.passed call = some content)
    (reaches : linkable = true → host.file (resolve host.stateDir call.confPath) = some content)
    (name : Path) (links : Links File)
    : ∃ node,
        host.read node = some content
        ∧ (replaceLink host call linkable name).run links
          = .ok () (Function.update links name (some node)) := by
  cases linkable with
  | true =>
      refine ⟨.link call.confPath, reaches rfl, ?_⟩
      simp [replaceLink]
  | false =>
      refine ⟨.copy content, rfl, ?_⟩
      simp [replaceLink, passed]

end Kumf.Daemon
