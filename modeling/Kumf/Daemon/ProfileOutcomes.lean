import Kumf.Daemon.Profiling

/-! What a `profile` that returns 0 has stored. Every end calls `_save_profile` for a
configuration that is there, but for the two behind a script that failed.
-/

namespace Kumf.Daemon.Profiling

open Kumf.Library PyText

/-- `_save_profile` was called in the run with a configuration that exists. -/
def Registered (state : State) : Prop := ∃ entry ∈ state.saved, entry.2.isSome = true

section
variable (system : System) (args : Arguments)

/-- Whether pac_to_interc.py exits with an error on some files, if it is run. -/
def intercFails (files : OutputFiles) : Bool :=
  if 0 < files.pagePac.getD 0 ∧ ¬ (0 < system.profFiles ∧ system.fails .mergeProfLogs) then
    match system.run (.pacToInterc (0 < system.profFiles)) files with
    | (some result, _) => result.returncode ≠ 0
    | (none, _) => false
  else
    false

/-- Whether one of the two scripts exits with an error, from the files of a dump on. -/
def scriptFails (files : OutputFiles) : Bool :=
  match system.run (.spePagePac (pacWorkers system)) files with
  | (some result, after) =>
      result.returncode ≠ 0 || (result.stderr ≠ [] && intercFails system after)
  | (none, _) => false

/-- The files with which a run gets to spe_page_pac.py, if it does. -/
def dumpedFiles (state : State) : Option OutputFiles :=
  if system.intercSo && system.profSo then
    match (collect system args).run state with
    | .ok .rawDump left => some left.files
    | _ => none
  else
    none

-----------------------------------------------------------------------------------------
-- The ends that save
-----------------------------------------------------------------------------------------

/-- The configuration of the output directory is there. -/
def HasConf (state : State) : Prop := state.files.kumfConf.isSome = true

/-- A file operation that returns leaves what holds. -/
theorem operate_returns {holds : State → Prop} (op : FileOp)
    : Returns holds (operate system op) (fun _ => holds) := by
  unfold operate
  split
  · exact returns_throw _
  · exact returns_pure _ fun _ here => here

/-- What a call of `_save_profile` reaches when the configuration is there, and no output undoes. -/
structure Reached (goal : State → Prop) : Prop where
  saves : Returns HasConf (callSaveProfile system args) (fun _ => goal)
  stays : ∀ message, Returns goal (printLine message) (fun _ => goal)

/-- A configuration that is written is there. -/
theorem writeConf_returns (text : List Char)
    : Returns (fun _ => True) (writeConf system text) (fun _ => HasConf) :=
  Returns.behind fun _ => returns_modify fun _ _ => rfl

/-- A configuration that is read is there. -/
theorem readConf_returns : Returns (fun _ => True) (readConf system) (fun _ => HasConf) := by
  refine returns_get.bind fun state => ?_
  split
  · exact returns_throw _
  case h_2 text present =>
      rintro _ value left ⟨_, rfl⟩ run
      refine operate_returns system .decodeConf state value left ?_ run
      rw [HasConf, present]
      rfl

/-- What a program leaves, where `subprocess.run` returns. -/
theorem subprocessRun_run (program : Program) (state : State)
    : (subprocessRun system program).run state
      = match system.run program state.files with
        | (some result, files) => .ok result { state with files }
        | (none, files) => .error (.subprocess program) { state with files } := by
  unfold subprocessRun changeFiles
  simp only [EStateM.run_bind, EStateM.run_get]
  generalize system.run program state.files = ran
  obtain ⟨completed, files⟩ := ran
  cases completed with
  | none => rfl
  | some result => rfl

/-- A program that ran has left the files it leaves. -/
theorem subprocessRun_returns (program : Program) (files : OutputFiles)
    : Returns (fun state => state.files = files) (subprocessRun system program)
        (fun result left => system.run program files = (some result, left.files)) := by
  rintro state value left rfl run
  rw [subprocessRun_run] at run
  cases ran : system.run program state.files with
  | mk completed after =>
      rw [ran] at run
      cases completed with
      | none => cases run
      | some result =>
          cases run
          rfl

/-- pac_to_interc.py runs on the files as they are, if the logs can be merged. -/
theorem mergeProfLogs_returns (files : OutputFiles)
    : Returns (fun state => state.files = files) (mergeProfLogs system)
        (fun _ left => left.files = files
          ∧ ¬ (0 < system.profFiles ∧ system.fails .mergeProfLogs = true)) := by
  unfold mergeProfLogs operate
  split_ifs with logs fails
  · exact returns_throw _
  · exact returns_pure _ fun _ here => ⟨here, fun merged => fails merged.2⟩
  · exact returns_pure _ fun _ here => ⟨here, fun merged => logs merged.1⟩

/-- A run of `profile` by its parts. -/
theorem profile_run (state : State)
    : (profile system args).run state
      = if system.intercSo && system.profSo then
          match (collect system args).run state with
          | .ok (.affinityOnly text) left => (saveBaseline system args text).run left
          | .ok .rawDump left => (analyse system args).run left
          | .error raised left => .error raised left
        else
          .ok 1 state := by
  unfold profile
  cases system.intercSo with
  | false => rfl
  | true =>
      cases system.profSo with
      | false => rfl
      | true =>
          simp only [Bool.not_true, Bool.false_eq_true, if_false, Bool.and_self, if_true,
            EStateM.run_bind]
          cases (collect system args).run state with
          | error raised left => rfl
          | ok collected left =>
              cases collected with
              | affinityOnly text => rfl
              | rawDump => rfl

namespace Reached

variable {system args} {goal : State → Prop}

/-- Write a configuration and save it. -/
theorem writeConf (reached : Reached system args goal) (text : List Char)
    : Returns (fun _ => True) (do Profiling.writeConf system text; callSaveProfile system args)
        (fun _ => goal) :=
  (writeConf_returns system text).bind fun _ => reached.saves

/-- The way that saves the baseline registers it. -/
theorem saveBaseline (reached : Reached system args goal) (text : List Char)
    : Returns (fun _ => True) (Profiling.saveBaseline system args text) (fun _ => goal) := by
  refine Returns.behind fun _ => (writeConf_returns system text).bind fun _ => ?_
  exact reached.saves.bind fun _ => returns_pure _ fun _ here => here

/-- So does the way without page scores. -/
theorem noPac (reached : Reached system args goal)
    : Returns (fun _ => True) (Profiling.noPac system args) (fun _ => goal) :=
  Returns.behind fun _ => reached.writeConf _

/-- So does the way with page scores that the converter takes. -/
theorem convert (reached : Reached system args goal) {files : OutputFiles}
    (listed : 0 < files.pagePac.getD 0) (converts : intercFails system files = false)
    : Returns (fun state => state.files = files) (Profiling.convert system args)
        (fun _ => goal) := by
  refine (mergeProfLogs_returns system files).bind fun _ => ?_
  have exits : Returns
      (fun left => left.files = files
        ∧ ¬ (0 < system.profFiles ∧ system.fails .mergeProfLogs = true))
      (subprocessRun system (.pacToInterc (0 < system.profFiles)))
      (fun result _ => result.returncode = 0) := by
    rintro state result left ⟨here, merged⟩ run
    have ran := subprocessRun_returns system _ files state result left here run
    rw [intercFails, if_pos ⟨listed, merged⟩, ran] at converts
    simpa using converts
  refine exits.bind fun result => ?_
  split
  case isTrue fails =>
      rintro state value left exited run
      exact absurd exited fails
  case isFalse =>
      refine Returns.behind fun state => ?_
      split
      · exact Returns.behind fun _ => (readConf_returns system).bind fun _ => reached.saves
      · exact reached.writeConf _

/-- So does either way, whatever was scored. -/
theorem usePac (reached : Reached system args goal) {files : OutputFiles}
    (converts : intercFails system files = false)
    : Returns (fun state => state.files = files) (Profiling.usePac system args)
        (fun _ => goal) := by
  refine returns_get.bind fun state => ?_
  split
  case isTrue listed =>
      rintro _ value left ⟨rfl, rfl⟩ run
      exact reached.convert listed converts state value left rfl run
  case isFalse =>
      rintro _ value left _ run
      exact reached.noPac _ value left trivial run

/-- Where no script fails, the analysis ends with a call. -/
theorem analyse (reached : Reached system args goal) {files : OutputFiles}
    (succeeds : scriptFails system files = false)
    : Returns (fun state => state.files = files) (Profiling.analyse system args)
        (fun _ => goal) := by
  refine (subprocessRun_returns system _ files).bind fun result => ?_
  have succeeded {state : State}
      (ran : system.run (.spePagePac (pacWorkers system)) files = (some result, state.files))
      : result.returncode = 0
        ∧ (result.stderr ≠ [] → intercFails system state.files = false) := by
    rw [scriptFails, ran] at succeeds
    simpa using succeeds
  split
  case isTrue fails =>
      rintro state value left ran run
      exact absurd (succeeded ran).1 fails
  case isFalse =>
      split
      case isTrue output =>
          rintro state value left ran run
          have prints : Returns goal (do printLine .profileSaved; pure (0 : Int))
              (fun _ => goal) :=
            (reached.stays .profileSaved).bind fun _ => returns_pure 0 fun _ here => here
          have saves := reached.usePac ((succeeded ran).2 output)
          exact saves.bind (fun _ => prints) state value left rfl run
      case isFalse =>
          rintro state value left ran run
          exact reached.saveBaseline _ state value left trivial run

/-- Where no script fails, a `profile` that returns 0 has made a call. -/
theorem profile (reached : Reached system args goal) {start left : State}
    (succeeds : ∀ dumped ∈ dumpedFiles system args start, scriptFails system dumped = false)
    (run : (Profiling.profile system args).run start = .ok 0 left)
    : goal left := by
  rw [profile_run] at run
  unfold dumpedFiles at succeeds
  cases libraries : system.intercSo && system.profSo with
  | false =>
      rw [libraries] at run
      cases run
  | true =>
      rw [libraries, if_pos rfl] at run succeeds
      cases collected : (collect system args).run start with
      | error raised middle =>
          rw [collected] at run
          cases run
      | ok part middle =>
          rw [collected] at run succeeds
          cases part with
          | affinityOnly text => exact reached.saveBaseline text middle 0 left trivial run
          | rawDump =>
              exact reached.analyse (succeeds _ rfl) middle 0 left rfl run

end Reached

-----------------------------------------------------------------------------------------
-- The ends that do not
-----------------------------------------------------------------------------------------

/-- An error of pac_to_interc.py is passed over. -/
theorem usePac_fails (state : State) (fails : intercFails system state.files = true)
    : ∃ files, (usePac system args).run state = .ok () { state with files } := by
  unfold intercFails at fails
  split at fails
  case isFalse => cases fails
  case isTrue condition =>
      obtain ⟨listed, merged⟩ := condition
      have merges : (mergeProfLogs system).run state = .ok () state := by
        unfold mergeProfLogs operate
        split_ifs with logs broken
        · exact absurd ⟨logs, broken⟩ merged
        · rfl
        · rfl
      cases ran : system.run (.pacToInterc (0 < system.profFiles)) state.files with
      | mk completed files =>
          rw [ran] at fails
          cases completed with
          | none => cases fails
          | some result =>
              have exited : result.returncode ≠ 0 := by simpa using fails
              refine ⟨files, ?_⟩
              simp [usePac, convert, EStateM.run_bind, listed, merges, subprocessRun_run, ran,
                exited]

/-- Where a script fails, the analysis says that the profile is saved and has not saved it. -/
theorem analyse_fails (state : State) (fails : scriptFails system state.files = true)
    : ∃ files, (analyse system args).run state
      = .ok 0 { state with files, printed := state.printed ++ [.profileSaved] } := by
  unfold scriptFails at fails
  cases ran : system.run (.spePagePac (pacWorkers system)) state.files with
  | mk completed files =>
      rw [ran] at fails
      cases completed with
      | none => cases fails
      | some result =>
          dsimp only at fails
          have start : (subprocessRun system (.spePagePac (pacWorkers system))).run state
              = .ok result { state with files } := by
            rw [subprocessRun_run, ran]
          rw [analyse, EStateM.run_bind, start]
          dsimp only
          by_cases exited : result.returncode = 0
          · obtain ⟨output, converts⟩
                : result.stderr ≠ [] ∧ intercFails system files = true := by
              simpa [exited] using fails
            obtain ⟨after, passes⟩ := usePac_fails system args { state with files } converts
            refine ⟨after, ?_⟩
            rw [if_neg (not_not.mpr exited), if_pos output, EStateM.run_bind, passes]
            rfl
          · refine ⟨files, ?_⟩
            rw [if_pos exited]
            rfl

-----------------------------------------------------------------------------------------
-- Whole runs
-----------------------------------------------------------------------------------------

/-- The state in which `profile` is called. -/
def begin (files : OutputFiles) (links : Links (List Char)) : State where
  files := files
  links := links
  saved := []
  printed := []

/-- The call that `profile` makes is of the configuration of the output directory. -/
theorem host_passed (files : OutputFiles)
    : (host system args files).passed (saveCall system args) = files.kumfConf :=
  if_pos rfl

/-- What the registration does to a state. -/
theorem callSaveProfile_run (state : State)
    : (callSaveProfile system args).run state
      = let called := { state with
          saved := state.saved ++ [(saveCall system args, state.files.kumfConf)] }
        if system.fails .writeProfile then
          .error (.file .writeProfile) called
        else
          match (saveProfile (host system args state.files) system.hash
            (saveCall system args)).run state.links with
          | .ok _ links => .ok () { called with links }
          | .error raised links => .error (.saving raised) { called with links } := by
  unfold callSaveProfile operate
  simp only [EStateM.run_bind, EStateM.run_get, host_passed]
  cases system.fails .writeProfile with
  | true => rfl
  | false =>
      generalize (saveProfile (host system args state.files) system.hash
        (saveCall system args)).run state.links = stored
      cases stored with
      | ok _ links => rfl
      | error raised links => rfl

/-- Every outcome that is reached registers. -/
theorem registered_reached : Reached system args Registered where
  saves := by
    intro state value left present run
    rw [callSaveProfile_run] at run
    refine ⟨(saveCall system args, state.files.kumfConf), ?_, present⟩
    dsimp only at run
    split at run
    case isTrue => cases run
    case isFalse =>
        split at run
        · cases run
          exact List.mem_append_right _ (List.mem_singleton_self _)
        · cases run
  stays message :=
    (savesNothing_printLine message).returns fun saved => ∃ entry ∈ saved, entry.2.isSome = true

/-- The name of the command in the state directory reads as the configuration. -/
def Found (state : State) : Prop :=
  HasConf state
  ∧ (host system args state.files).readThrough state.links (profileConf (cmdHash system args))
    = state.files.kumfConf

/-- Under an absolute path, what is registered is found. -/
theorem found_reached (absolute : (confPath system args).head? = some '/')
    (encodable : ∀ exePath ∈ (saveCall system args).exePath,
      (PyStr.encode exePath).isSome = true)
    : Reached system args (Found system args) where
  saves := by
    intro state value left present run
    obtain ⟨text, conf⟩ := Option.isSome_iff_exists.mp present
    let here := host system args state.files
    have follows : here.Follows (saveCall system args) :=
      ⟨encodable, here.reaches_absolute absolute⟩
    have stores := savedLinks_stores system.hash ((host_passed system args state.files).trans conf)
      follows state.links
    rw [savedLinks] at stores
    rw [callSaveProfile_run] at run
    dsimp only at run
    split at run
    case isTrue => cases run
    case isFalse =>
        split at run
        case h_2 => cases run
        case h_1 links stored =>
            cases run
            rw [stored] at stores
            exact ⟨present, stores.profile.trans conf.symm⟩
  stays message := by
    rintro state value left found ⟨⟩
    exact found

/-- Where no script fails, the state directory of a `profile` that returns 0 leads to the
configuration, if the output directory is absolute.
-/
theorem profile_found (absolute : (confPath system args).head? = some '/')
    (encodable : ∀ exePath ∈ (saveCall system args).exePath,
      (PyStr.encode exePath).isSome = true)
    {start left : State}
    (succeeds : ∀ dumped ∈ dumpedFiles system args start, scriptFails system dumped = false)
    (run : (profile system args).run start = .ok 0 left)
    : Found system args left :=
  (found_reached system args absolute encodable).profile succeeds run

/-- A `profile` that returns 0 has called `_save_profile` with a configuration that exists, exactly
if neither spe_page_pac.py nor pac_to_interc.py, where the run gets to them, exits with an error.
-/
theorem profile_registers_iff (files : OutputFiles) (links : Links (List Char))
    : (∀ left, (profile system args).run (begin files links) = .ok 0 left → Registered left)
      ↔ ∀ dumped ∈ dumpedFiles system args (begin files links),
        scriptFails system dumped = false := by
  constructor
  · intro registers dumped member
    by_contra fails
    have before := savesNothing_collect system args (begin files links)
    unfold dumpedFiles at member
    split at member
    case isFalse => cases member
    case isTrue libraries =>
        split at member
        case h_2 => cases member
        case h_1 left collected =>
            cases member
            rw [collected] at before
            obtain ⟨after, run⟩ := analyse_fails system args left (by simpa using fails)
            have whole : (profile system args).run (begin files links)
                = .ok 0 { left with
                    files := after, printed := left.printed ++ [.profileSaved] } := by
              rw [profile_run, if_pos libraries, collected]
              exact run
            obtain ⟨entry, member, _⟩ := registers _ whole
            have none : left.saved = [] := before
            simp [none] at member
  · intro succeeds left run
    exact (registered_reached system args).profile succeeds run

end

/-- A system in which everything works but for the two scripts, which exit as given. A small
recording, its dump and a list of pages are there when the programs have run.
-/
def scriptsExit (pac interc : Int) : System where
  intercSo := true
  profSo := true
  cpuCount := 2
  profFiles := 1
  run := fun program files =>
    match program with
    | .perfRecord _ => (some ⟨0, some [], []⟩, { files with spePerf := some 4096 })
    | .perfReport => (some ⟨0, some [], []⟩, { files with speRaw := some 65536 })
    | .spePagePac _ =>
        (some ⟨pac, some [], "KeyError".toList⟩, { files with pagePac := some 512 })
    | .pacToInterc _ => (some ⟨interc, some [], []⟩, files)
    | _ => (some ⟨0, some "1".toList, []⟩, files)
  fails := fun _ => false
  stateDir := "/tmp/kumf_daemon".toList
  cwd := "/home/user".toList
  realpath := id
  hash := fun _ => "aeb3e447".toList
  file := fun _ => none
  profileLinkable := true
  lookupLinkable := true

/-- `kumf_daemon profile -- app` -/
def profileApp : Arguments where
  cmd := [PyStr.ofText "app".toList]
  minLat := 32
  period := 0
  userOnly := false
  outputDir := none

def noFiles : OutputFiles where
  spePerf := none
  speRaw := none
  speCpu := fun _ => none
  pagePac := none
  kumfConf := none

/-- The run prints that the profile is saved and returns 0, and has not saved anything. -/
def OnlySaysSaved (system : System) : Prop :=
  ∃ left,
    (profile system profileApp).run (begin noFiles (fun _ => none)) = .ok 0 left
    ∧ left.printed = [.profileSaved]
    ∧ left.saved = []
    ∧ ¬ Registered left

/-- An error of either script is enough. -/
theorem failedScript_unregistered
    : OnlySaysSaved (scriptsExit 1 0) ∧ OnlySaysSaved (scriptsExit 0 1) := by
  have unsaved {state : State} (none : state.saved = []) : ¬ Registered state := by
    rintro ⟨entry, member, _⟩
    simp [none] at member
  constructor
  · exact ⟨_, rfl, rfl, rfl, unsaved rfl⟩
  · exact ⟨_, rfl, rfl, rfl, unsaved rfl⟩

end Kumf.Daemon.Profiling
