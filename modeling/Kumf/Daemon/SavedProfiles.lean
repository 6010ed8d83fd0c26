import Kumf.Daemon.Messages

/-! The store over sequences of `_save_profile` calls: as long as configuration paths mean the
same file from the state directory, every name reads as the file of its latest call.
-/

namespace Kumf.Daemon

open Kumf.Library PyText

/-- The bytes under which a call registers an executable, if it does. -/
def SaveCall.exeBytes (call : SaveCall) : Option (List Char) :=
  call.exePath.bind (fun exePath => if exePath = [] then none else PyStr.encode exePath)

/-- The executable of a call is known from the bytes that it registers. -/
theorem SaveCall.exePath_of_exeBytes {call : SaveCall} {exePath : PyStr} {bytes : List Char}
    (encoded : PyStr.encode exePath = some bytes) (registered : call.exeBytes = some bytes)
    : call.exePath = some exePath := by
  obtain ⟨path, given, known⟩ := Option.bind_eq_some_iff.mp registered
  split at known
  · cases known
  · rw [given, PyStr.encode_injective known encoded]

/-- The condition on a call: its executable can be encoded, and its configuration is reached
from the state directory.
-/
structure Host.Follows {File : Type} (host : Host File) (call : SaveCall) : Prop where
  encodable : ∀ exePath ∈ call.exePath, (PyStr.encode exePath).isSome = true
  reaches : host.Reaches call

section
variable {File : Type} {host : Host File} (hash : List Char → List Char) {call : SaveCall}
  {content : File}

/-- What one call changes. Both of its names read as the passed file, and every other name stays
as it is.
-/
structure Stores (host : Host File) (hash : List Char → List Char) (call : SaveCall)
    (content : File) (before after : Links File) : Prop where
  profile : host.readThrough after (profileConf call.cmdHash) = some content
  lookup : ∀ bytes ∈ call.exeBytes,
    host.readThrough after (lookupConf (hash bytes)) = some content
  others : ∀ name,
    name ≠ profileConf call.cmdHash
    → (∀ bytes ∈ call.exeBytes, name ≠ lookupConf (hash bytes))
    → after name = before name

/-- A call on an existing configuration stores it. Witness: one replacement for the command,
and for an executable a second one under a name of another kind.
-/
theorem savedLinks_stores (passed : host.passed call = some content)
    (follows : host.Follows call) (links : Links File)
    : Stores host hash call content links (savedLinks host hash links call) := by
  have reaches (linkable : Bool) (used : call.profileLinkable = true ∨ call.lookupLinkable = true)
      : host.file (resolve host.stateDir call.confPath) = some content :=
    (follows.reaches used).trans passed
  obtain ⟨first, readFirst, runFirst⟩ := replaceLink_run passed
    (fun made => reaches call.profileLinkable (.inl made)) (profileConf call.cmdHash) links
  -- a call without an executable ends behind the first replacement
  have unregistered (none_ : call.exeBytes = none)
      (run : (saveProfile host hash call).run links
        = .ok () (Function.update links (profileConf call.cmdHash) (some first)))
      : Stores host hash call content links (savedLinks host hash links call) := by
    rw [savedLinks, run]
    refine ⟨?_, ?_, fun name other _ => Function.update_of_ne other _ _⟩
    · simpa [Host.readThrough] using readFirst
    · simp [none_]
  cases exe : call.exePath with
  | none =>
      refine unregistered (by simp [SaveCall.exeBytes, exe]) ?_
      simp [saveProfile, exe, runFirst]
  | some exePath =>
      by_cases empty : exePath = []
      · refine unregistered (by simp [SaveCall.exeBytes, exe, empty]) ?_
        simp [saveProfile, exe, empty, runFirst]
      · obtain ⟨bytes, encoded⟩ := Option.isSome_iff_exists.mp (follows.encodable exePath exe)
        have registered : call.exeBytes = some bytes := by
          simp [SaveCall.exeBytes, exe, empty, encoded]
        obtain ⟨second, readSecond, runSecond⟩ := replaceLink_run passed
          (fun made => reaches call.lookupLinkable (.inr made)) (lookupConf (hash bytes))
          (Function.update links (profileConf call.cmdHash) (some first))
        have run : (saveProfile host hash call).run links
            = .ok () (Function.update (Function.update links (profileConf call.cmdHash)
                (some first)) (lookupConf (hash bytes)) (some second)) := by
          simp [saveProfile, exe, empty, encoded, runFirst, runSecond]
        rw [savedLinks, run]
        have apart := profileConf_ne_lookupConf call.cmdHash (hash bytes)
        refine ⟨?_, ?_, ?_⟩
        · simpa [Host.readThrough, Function.update_of_ne apart] using readFirst
        · rintro other member
          rw [registered] at member
          cases member
          simpa [Host.readThrough] using readSecond
        · intro name notProfile notLookup
          dsimp only
          rw [Function.update_of_ne (notLookup bytes registered),
            Function.update_of_ne notProfile]

/-- Every call passes a configuration that exists, and stores it. -/
structure AllStored (host : Host File) (calls : List SaveCall) : Prop where
  given : ∀ call ∈ calls, (host.passed call).isSome = true
  follow : ∀ call ∈ calls, host.Follows call

theorem AllStored.subset {calls part : List SaveCall} (stored : AllStored host calls)
    (inside : part ⊆ calls)
    : AllStored host part where
  given call member := stored.given call (inside member)
  follow call member := stored.follow call (inside member)

/-- Later calls leave a name alone that none of them stores under. -/
theorem foldl_savedLinks_others {calls : List SaveCall} (links : Links File) {name : Path}
    (given : ∀ later ∈ calls, (host.passed later).isSome = true)
    (follow : ∀ later ∈ calls, host.Follows later)
    (unused : ∀ later ∈ calls, name ≠ profileConf later.cmdHash
      ∧ ∀ bytes ∈ later.exeBytes, name ≠ lookupConf (hash bytes))
    : (calls.foldl (savedLinks host hash) links) name = links name := by
  induction calls generalizing links with
  | nil => rfl
  | cons next calls ih =>
      obtain ⟨content, passed⟩ := Option.isSome_iff_exists.mp (given next List.mem_cons_self)
      have stores := savedLinks_stores hash passed (follow next List.mem_cons_self) links
      obtain ⟨notProfile, notLookup⟩ := unused next List.mem_cons_self
      rw [List.foldl_cons, ih _ (fun later member => given later (List.mem_cons_of_mem next member))
        (fun later member => follow later (List.mem_cons_of_mem next member))
        (fun later member => unused later (List.mem_cons_of_mem next member))]
      exact stores.others name notProfile notLookup

/-- The names of a call read on as they did, if no later call stores under them. The command has
one name, and a name for an executable is only that of the same executable.
-/
theorem foldl_savedLinks_profile {calls : List SaveCall} {links : Links File}
    (given : ∀ later ∈ calls, (host.passed later).isSome = true)
    (follow : ∀ later ∈ calls, host.Follows later)
    (others : ∀ later ∈ calls, later.cmdHash ≠ call.cmdHash)
    : (calls.foldl (savedLinks host hash) links) (profileConf call.cmdHash)
      = links (profileConf call.cmdHash) := by
  refine foldl_savedLinks_others hash links given follow (fun later member => ⟨?_, ?_⟩)
  · exact fun same => others later member (profileConf_injective same).symm
  · exact fun bytes _ => profileConf_ne_lookupConf _ _

theorem foldl_savedLinks_lookup {calls : List SaveCall} {links : Links File} {exePath : PyStr}
    {bytes : List Char} (given : ∀ later ∈ calls, (host.passed later).isSome = true)
    (follow : ∀ later ∈ calls, host.Follows later) (encoded : PyStr.encode exePath = some bytes)
    (distinct : ∀ later ∈ calls, ∀ other ∈ later.exeBytes, hash bytes = hash other
      → bytes = other)
    (others : ∀ later ∈ calls, later.exePath ≠ some exePath)
    : (calls.foldl (savedLinks host hash) links) (lookupConf (hash bytes))
      = links (lookupConf (hash bytes)) := by
  refine foldl_savedLinks_others hash links given follow (fun later member => ⟨?_, ?_⟩)
  · exact (profileConf_ne_lookupConf _ _).symm
  · intro other registered same
    have sameBytes := distinct later member other registered (lookupConf_injective same)
    rw [← sameBytes] at registered
    exact others later member (SaveCall.exePath_of_exeBytes encoded registered)

theorem colon_toDigits (n : Nat) : ':' ∉ Nat.toDigits 10 n := by
  intro member
  exact absurd (isDigitOf_toDigits (by omega) (by omega) n ':' member) (by decide)

/-- A message that asks for an executable, and its parts. -/
theorem lookup_parts (pid : Nat) (exePath : List Char)
    : splitLimit ':' 2 ("LOOKUP:".toList ++ Nat.toDigits 10 pid ++ ':' :: exePath)
      = ["LOOKUP".toList, Nat.toDigits 10 pid, exePath] := by
  have word : ':' ∉ "LOOKUP".toList := by decide
  have front := splitLimit_cons word 1 (Nat.toDigits 10 pid ++ ':' :: exePath)
  rw [splitLimit_cons (colon_toDigits pid) 0] at front
  exact front

end

/-- What `_handle_message` answers to a `LOOKUP` for an executable that is stored. -/
theorem handleMessage_lookup {File : Type} {host : Host File} {hash : List Char → List Char}
    {links : Links File} (now : List Char) (daemon : KumfDaemon) (pid : Nat) {exePath : List Char}
    (found : host.finds links (lookupConf (hash (utf8 exePath))) = true)
    : handleMessage host hash links now daemon
        ("LOOKUP:".toList ++ Nat.toDigits 10 pid ++ ':' :: exePath)
      = some (daemon, .text (configLine daemon.topology.nodes
          (host.inStateDir (lookupConf (hash (utf8 exePath)))))) := by
  unfold handleMessage
  rw [lookup_parts]
  simp [lookupReply, found]

/-- After a run of calls that all follow, every command and every executable finds the file of
its latest call. Witness: the call stores it, and the later ones use other names.
-/
theorem run_savedProfiles {File : Type} (host : Host File) (hash : List Char → List Char)
    (links : Links File) (calls : List SaveCall)
    (given : ∀ call ∈ calls, (host.passed call).isSome = true)
    (distinct : ∀ left ∈ calls, ∀ right ∈ calls, ∀ a ∈ left.exeBytes,
      ∀ b ∈ right.exeBytes,
      hash a = hash b → a = b)
    (follow : ∀ call ∈ calls, host.Follows call)
    (front back : List SaveCall) (call : SaveCall) (split : calls = front ++ call :: back)
    (now : List Char) (daemon : KumfDaemon) (pid : Nat)
    : let stored := calls.foldl (savedLinks host hash) links
      ((∀ later ∈ back, later.cmdHash ≠ call.cmdHash)
        → host.readThrough stored (profileConf call.cmdHash) = host.passed call)
      ∧ ∀ exePath,
        call.exePath = some exePath
        → exePath ≠ []
        → (∀ later ∈ back, later.exePath ≠ some exePath)
        → ∃ text,
          PyStr.chars? exePath = some text
          ∧ handleMessage host hash stored now daemon
              ("LOOKUP:".toList ++ Nat.toDigits 10 pid ++ ':' :: text)
            = some (daemon, .text (configLine daemon.topology.nodes
                (host.inStateDir (lookupConf (hash (utf8 text))))))
          ∧ host.readThrough stored (lookupConf (hash (utf8 text))) = host.passed call := by
  have inCalls : call ∈ calls := by simp [split]
  have later_mem (later : SaveCall) (member : later ∈ back) : later ∈ calls := by
    simp [split, member]
  have givenLater : ∀ later ∈ back, (host.passed later).isSome = true :=
    fun later member => given later (later_mem later member)
  have followLater : ∀ later ∈ back, host.Follows later :=
    fun later member => follow later (later_mem later member)
  obtain ⟨content, passed⟩ := Option.isSome_iff_exists.mp (given call inCalls)
  have stores := savedLinks_stores hash passed (follow call inCalls)
    (front.foldl (savedLinks host hash) links)
  generalize storedHere : savedLinks host hash (front.foldl (savedLinks host hash) links) call
    = here at stores
  have stored : calls.foldl (savedLinks host hash) links
      = back.foldl (savedLinks host hash) here := by
    rw [split, List.foldl_append, List.foldl_cons, storedHere]
  dsimp only
  rw [stored, passed]
  constructor
  · intro others
    rw [Host.readThrough, foldl_savedLinks_profile hash givenLater followLater others]
    exact stores.profile
  · intro exePath exe nonempty others
    obtain ⟨bytes, encoded⟩ := Option.isSome_iff_exists.mp
      ((follow call inCalls).encodable exePath exe)
    obtain ⟨text, chars, rfl⟩ := PyStr.encode_eq_some.mp encoded
    have registered : call.exeBytes = some (utf8 text) := by
      simp [SaveCall.exeBytes, exe, nonempty, encoded]
    have reads : host.readThrough (back.foldl (savedLinks host hash) here)
        (lookupConf (hash (utf8 text))) = some content := by
      rw [Host.readThrough, foldl_savedLinks_lookup hash givenLater followLater encoded
        (fun later member => distinct call inCalls later (later_mem later member) _ registered)
        others]
      exact stores.lookup (utf8 text) registered
    refine ⟨text, chars, handleMessage_lookup now daemon pid ?_, reads⟩
    rw [Host.finds, reads]
    rfl

/-- A system with one configuration, in the directory of a user. -/
def homeHost : Host Nat where
  stateDir := "/tmp/kumf_daemon".toList
  file := fun path => if path = "/home/user/out/kumf.conf".toList then some 1 else none

/-- The first digits of the MD5 of `/usr/bin/app`, the only executable below. -/
def appHash (_ : List Char) : List Char := "26d35b61".toList

/-- A profile with an absolute or a relative output directory. -/
def saveApp (confPath : Path) : SaveCall where
  cwd := "/home/user".toList
  confPath := confPath
  cmdHash := "aeb3e447".toList
  exePath := some (PyStr.ofText "/usr/bin/app".toList)
  profileLinkable := true
  lookupLinkable := true

def appDaemon : KumfDaemon where
  pid := 1
  socketPath := "/tmp/kumf_daemon.sock".toList
  intercSo := "/usr/local/lib/kumf/libkumf_interc.so".toList
  topology := ⟨[0, 1], [[0], [1]]⟩
  optimalConfig := Env.set .empty "KUMF_NODES".toList "0,1".toList
  registeredProcs := .empty
  profiles := 0

/-- A second configuration beside that of `homeHost`. -/
def twoConfigs : Host Nat where
  stateDir := "/tmp/kumf_daemon".toList
  file := fun path =>
    if path = "/home/user/fast/kumf.conf".toList then some 2 else homeHost.file path

/-- The MD5 of `/bin/sh`, told from that of `/usr/bin/app`. -/
def twoHashes (bytes : List Char) : List Char :=
  if bytes = "/bin/sh".toList then "399b48d1".toList else "26d35b61".toList

/-- The profile of a shell. -/
def saveShell : SaveCall :=
  { saveApp "/home/user/out/kumf.conf".toList with
    cmdHash := "dd84994a".toList
    exePath := some (PyStr.ofText "/bin/sh".toList) }

/-- The program with an argument, and another configuration. -/
def saveFast : SaveCall :=
  { saveApp "/home/user/fast/kumf.conf".toList with cmdHash := "8dda4227".toList }

def threeProfiles : List SaveCall :=
  [saveApp "/home/user/out/kumf.conf".toList, saveShell, saveFast]

theorem run_savedProfiles_three
    : let stored := threeProfiles.foldl (savedLinks twoConfigs twoHashes) (fun _ => none)
      twoConfigs.readThrough stored (profileConf "aeb3e447".toList) = some 1
      ∧ twoConfigs.readThrough stored (lookupConf "26d35b61".toList) = some 2
      ∧ handleMessage twoConfigs twoHashes stored [] appDaemon "LOOKUP:7:/usr/bin/app".toList
        = some (appDaemon,
          .text (configLine [0, 1] "/tmp/kumf_daemon/lookup_26d35b61.conf".toList)) := by
  have distinct : ∀ left ∈ threeProfiles, ∀ right ∈ threeProfiles, ∀ a ∈ left.exeBytes,
      ∀ b ∈ right.exeBytes, twoHashes a = twoHashes b → a = b := by
    decide
  have follow : ∀ call ∈ threeProfiles, twoConfigs.Follows call := by
    intro call member
    have known : ∀ call ∈ threeProfiles,
        (∀ exePath ∈ call.exePath, (PyStr.encode exePath).isSome = true)
        ∧ call.confPath.head? = some '/' := by
      decide
    exact ⟨(known call member).1, twoConfigs.reaches_absolute (known call member).2⟩
  have after (front back : List SaveCall) (call : SaveCall) :=
    run_savedProfiles twoConfigs twoHashes (fun _ => none) threeProfiles (by decide) distinct follow
      front back call
  have first := (after [] [saveShell, saveFast] _ rfl [] appDaemon 7).1 (by decide)
  have lookup := (after [saveApp "/home/user/out/kumf.conf".toList, saveShell] [] saveFast rfl []
    appDaemon 7).2 (PyStr.ofText "/usr/bin/app".toList) rfl (by decide) (by decide)
  obtain ⟨text, chars, answer, read⟩ := lookup
  cases chars
  exact ⟨first, read, answer⟩

/-- A relative output directory leaves two links that lead nowhere, and `LOOKUP` finds nothing. -/
theorem relative_not_found
    : homeHost.passed (saveApp "out/kumf.conf".toList) = some 1
      ∧ homeHost.readThrough
          (savedLinks homeHost appHash (fun _ => none) (saveApp "out/kumf.conf".toList))
          (profileConf "aeb3e447".toList)
        = none
      ∧ homeHost.readThrough
          (savedLinks homeHost appHash (fun _ => none) (saveApp "out/kumf.conf".toList))
          (lookupConf "26d35b61".toList)
        = none :=
  ⟨rfl, rfl, rfl⟩

end Kumf.Daemon
