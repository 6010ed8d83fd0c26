import Kumf.Daemon.Wrapping
import Kumf.Library.Keeping

/-! `profile`: a baseline run, a recording by perf, its dump, and the two scripts that turn the
dump into a configuration. Programs and files are those of a system that can do anything.
-/

namespace Kumf.Daemon.Profiling

open Kumf.Library PyText

-----------------------------------------------------------------------------------------
-- The system
-----------------------------------------------------------------------------------------

/-- The files of the output directory that `profile` consults: the sizes of those that are
there, and the text of `kumf.conf`.
-/
structure OutputFiles where
  spePerf : Option Nat
  speRaw : Option Nat
  speCpu : Nat → Option Nat
  pagePac : Option Nat
  kumfConf : Option (List Char)

/-- The programs that `profile` runs. -/
inductive Program where
  | workload
  | perfRecord (event : List Char)
  | perfReport
  | perfReportCpu (cpu : Nat)
  | spePagePac (workers : Option Nat)
  | pacToInterc (profLog : Bool)
  | wcConf
  | wcRaw
  deriving DecidableEq, Repr

/-- A `CompletedProcess` with the text of its pipes. The standard output is decoded strictly,
and is missing when that fails.
-/
structure Completed where
  returncode : Int
  stdout : Option (List Char)
  stderr : List Char
  deriving DecidableEq, Repr

/-- The operations on files that can fail. -/
inductive FileOp where
  | makeOutputDir
  | makeTmpDir
  | unlinkSpe
  | openRaw
  | unlinkRaw
  | openChunk (cpu : Nat)
  | mergeChunk (cpu : Nat)
  | mergeProfLogs
  | decodeConf
  | writeConf
  | writeProfile
  deriving DecidableEq, Repr

inductive Raised where
  | subprocess (program : Program)
  | file (op : FileOp)
  | fileNotFound
  | unicodeDecode
  | indexError
  | saving (raised : SaveError)
  deriving DecidableEq, Repr

/-- The arguments of `profile`. -/
structure Arguments where
  cmd : List PyStr
  minLat : Int
  period : Int
  userOnly : Bool
  outputDir : Option Path

/-- What `profile` finds outside the output directory. A program leaves other files behind, and
`subprocess.run` raises (`none`) where it is missing or takes too long.
-/
structure System where
  intercSo : Bool
  profSo : Bool
  /-- `os.cpu_count()`, 0 for `None` -/
  cpuCount : Nat
  /-- the number of `/tmp/kumf/data.raw.*` -/
  profFiles : Nat
  run : Program → OutputFiles → Option Completed × OutputFiles
  fails : FileOp → Bool
  stateDir : Path
  cwd : Path
  realpath : PyStr → PyStr
  hash : List Char → List Char
  file : Path → Option (List Char)
  profileLinkable : Bool
  lookupLinkable : Bool

inductive Message where
  /-- "✅ Baseline config saved (affinity-only mode)" -/
  | baselineConfigSaved
  /-- "✅ Profile saved for: ..." -/
  | profileSaved
  deriving DecidableEq, Repr

/-- The state of a run of `profile`. `saved` are its calls of `_save_profile`, each with the file
under the path of the configuration at that time.
-/
structure State where
  files : OutputFiles
  links : Links (List Char)
  saved : List (SaveCall × Option (List Char))
  printed : List Message

/-- Code of `profile`. -/
abbrev Run := EStateM Raised State

section
variable (system : System) (args : Arguments)

-----------------------------------------------------------------------------------------
-- Files and programs
-----------------------------------------------------------------------------------------

def changeFiles (change : OutputFiles → OutputFiles) : Run Unit :=
  modify (fun state => { state with files := change state.files })

def printLine (message : Message) : Run Unit :=
  modify (fun state => { state with printed := state.printed ++ [message] })

def operate (op : FileOp) : Run Unit :=
  if system.fails op then throw (.file op) else pure ()

/-- `subprocess.run` -/
def subprocessRun (program : Program) : Run Completed := do
  let ran := system.run program (← get).files
  changeFiles (fun _ => ran.2)
  match ran.1 with
  | some completed => pure completed
  | none => throw (.subprocess program)

/-- `os.cpu_count() or other` -/
def cpusOr (other : Nat) : Nat := if system.cpuCount = 0 then other else system.cpuCount

-----------------------------------------------------------------------------------------
-- _save_profile
-----------------------------------------------------------------------------------------

def cmdHash : List Char := commandHash system.hash args.cmd

/-- `output_dir`, by default a directory of the state directory -/
def outputDir : Path :=
  match args.outputDir with
  | some (c :: dir) => c :: dir
  | _ => system.stateDir ++ "/profile_".toList ++ cmdHash system args

/-- `str(output_dir / "kumf.conf")` -/
def confPath : Path := outputDir system args ++ "/kumf.conf".toList

def saveCall : SaveCall where
  cwd := system.cwd
  confPath := confPath system args
  cmdHash := cmdHash system args
  exePath := args.cmd.head?.map system.realpath
  profileLinkable := system.profileLinkable
  lookupLinkable := system.lookupLinkable

/-- The files by path, with the configuration of the output directory. -/
def host (files : OutputFiles) : Host (List Char) where
  stateDir := system.stateDir
  file := fun path =>
    if path = resolve system.cwd (confPath system args) then files.kumfConf else system.file path

/-- `_save_profile`: the JSON file and the links. -/
def callSaveProfile : Run Unit := do
  let state ← get
  let call := saveCall system args
  let now := host system args state.files
  set { state with saved := state.saved ++ [(call, now.passed call)] }
  operate system .writeProfile
  match (saveProfile now system.hash call).run state.links with
  | .ok _ links => modify (fun state => { state with links })
  | .error raised links =>
      modify (fun state => { state with links })
      throw (.saving raised)

def writeConf (text : List Char) : Run Unit := do
  operate system .writeConf
  changeFiles (fun files => { files with kumfConf := some text })

/-- The ends with a configuration that leaves everything to the affinity. -/
def saveBaseline (text : List Char) : Run Int := do
  printLine .baselineConfigSaved
  writeConf system text
  callSaveProfile system args
  pure 0

-----------------------------------------------------------------------------------------
-- The recording
-----------------------------------------------------------------------------------------

/-- `spe_event_templates` -/
def speEventTemplates : List (List Char) :=
  let speParams := ["load_filter=1".toList, "store_filter=1".toList,
    "min_latency=".toList ++ str args.minLat]
    ++ (if 0 < args.period then ["period=".toList ++ str args.period] else [])
  let event (params : List (List Char)) :=
    "arm_spe/".toList ++ [','].intercalate params ++ "/".toList
  (if args.userOnly then [event (speParams ++ ["filter_el=1".toList])] else [])
  ++ [event speParams]

def unlinkSpe : Run Unit := do
  if (← get).files.spePerf.isSome then
    operate system .unlinkSpe
    changeFiles (fun files => { files with spePerf := none })

/-- One attempt to record; whether the next template is tried. An error in the `try` that is
not the last one leads to the same fallback.
-/
def attempt (last template : List Char) : Run Bool :=
  tryCatch
    (do
      let result ← subprocessRun system (.perfRecord template)
      if result.returncode = 0 ∧ (← get).files.spePerf.isSome then
        pure false
      else if result.returncode ≠ 0 ∧ template ≠ last then
        unlinkSpe system
        pure true
      else
        pure false)
    (fun raised => do
      if template ≠ last then
        unlinkSpe system
        pure true
      else
        throw raised)

/-- The loop over the templates. -/
def recordFrom (last : List Char) : List (List Char) → Run Unit
  | [] => pure ()
  | template :: rest => do
      if ← attempt system last template then
        recordFrom last rest

def noSpeConf : List Char := "# KUMF auto-config: affinity only (no SPE data)\n".toList
def speMissingConf : List Char := "# KUMF auto-config: affinity only (SPE data missing)\n".toList
def reportFailedConf : List Char :=
  "# KUMF auto-config: affinity only (perf report failed)\n".toList
def noHotPagesConf : List Char :=
  "# KUMF auto-config: affinity only (PAC found no hot pages)\n".toList
  ++ "# Tip: try --min-lat 32 to capture more L3-access data\n".toList
def intercFailedConf : List Char := "# KUMF auto-config: pac_to_interc failed\n".toList

-----------------------------------------------------------------------------------------
-- The dump
-----------------------------------------------------------------------------------------

def openRaw : Run Unit := do
  operate system .openRaw
  changeFiles (fun files => { files with speRaw := some 0 })

/-- `raw_file.stat().st_size` -/
def rawSize : Run Nat := do
  match (← get).files.speRaw with
  | some size => pure size
  | none => throw .fileNotFound

/-- `raw_file.unlink(missing_ok=True)` -/
def unlinkRaw : Run Unit := do
  if (← get).files.speRaw.isSome then
    operate system .unlinkRaw
    changeFiles (fun files => { files with speRaw := none })

/-- A small recording is dumped at once. Whether there is a dump. -/
def dumpSmall : Run Bool := do
  openRaw system
  let result ← subprocessRun system .perfReport
  if result.returncode ≠ 0 then
    unlinkRaw system
    pure false
  else if (← rawSize) = 0 then
    unlinkRaw system
    pure false
  else
    pure true

/-- What a worker does for one CPU. -/
def dumpCpu (cpu : Nat) : Run Unit :=
  tryCatch
    (do
      operate system (.openChunk cpu)
      changeFiles (fun files => { files with speCpu := Function.update files.speCpu cpu (some 0) })
      let _ ← subprocessRun system (.perfReportCpu cpu))
    (fun _ => pure ())

/-- A chunk that is not empty is appended and removed. -/
def mergeCpu (cpu : Nat) : Run Unit := do
  let size := ((← get).files.speCpu cpu).getD 0
  if 0 < size then
    operate system (.mergeChunk cpu)
    changeFiles (fun files => { files with
      speRaw := files.speRaw.map (fun merged => merged + size)
      speCpu := Function.update files.speCpu cpu none })

/-- A large recording is dumped by CPU, and at once when that gives nothing. Whether there is a
dump.
-/
def dumpLarge : Run Bool := do
  let cpus := List.range (min (cpusOr system 120) 256)
  cpus.forM (dumpCpu system)
  openRaw system
  cpus.forM (mergeCpu system)
  if (← rawSize) = 0 then
    openRaw system
    let result ← subprocessRun system .perfReport
    if result.returncode ≠ 0 then
      unlinkRaw system
      pure false
    else
      pure true
  else
    pure true

/-- What the first two steps and the dump come to: a text for the configuration, or a dump to
analyse.
-/
inductive Collected where
  | affinityOnly (text : List Char)
  | rawDump
  deriving DecidableEq, Repr

/-- The part of `profile` in front of spe_page_pac.py. -/
def collect : Run Collected := do
  operate system .makeOutputDir
  let _ ← subprocessRun system .workload
  operate system .makeTmpDir
  let templates := speEventTemplates args
  recordFrom system (templates.getLast?.getD []) templates
  if (← get).files.spePerf.isNone then
    pure (.affinityOnly noSpeConf)
  else
    -- the file is looked for once more
    match (← get).files.spePerf with
    | none => pure (.affinityOnly speMissingConf)
    | some size =>
        if ← (if size < 10 * 1024 * 1024 then dumpSmall system else dumpLarge system) then
          let _ ← rawSize
          pure .rawDump
        else
          pure (.affinityOnly reportFailedConf)

-----------------------------------------------------------------------------------------
-- The analysis
-----------------------------------------------------------------------------------------

/-- `wc -l` for the number of lines, `nc.stdout.decode().split()[0]`. -/
def countLines (program : Program) : Run (List Char) := do
  let result ← subprocessRun system program
  match result.stdout with
  | none => throw .unicodeDecode
  | some text =>
      match (text.dropWhile isSpace).takeWhile (fun c => !isSpace c) with
      | [] => throw .indexError
      | word => pure word

/-- The lines of the configuration are read again for the output. -/
def readConf : Run Unit := do
  match (← get).files.kumfConf with
  | none => throw .fileNotFound
  | some _ => operate system .decodeConf

/-- The logs of the threads are merged into one. -/
def mergeProfLogs : Run Unit :=
  if 0 < system.profFiles then operate system .mergeProfLogs else pure ()

/-- The run of pac_to_interc.py. An error is only printed. -/
def convert : Run Unit := do
  mergeProfLogs system
  let result ← subprocessRun system (.pacToInterc (0 < system.profFiles))
  if result.returncode ≠ 0 then
    pure ()
  else if (← get).files.kumfConf.isSome then
    let _ ← countLines system .wcConf
    readConf system
    callSaveProfile system args
  else
    writeConf system intercFailedConf
    callSaveProfile system args

def countRaw : Run Unit := do
  if (← get).files.speRaw.isSome then
    let _ ← countLines system .wcRaw

/-- The end for a list of pages that is missing or empty. -/
def noPac : Run Unit := do
  countRaw system
  writeConf system noHotPagesConf
  callSaveProfile system args

def usePac : Run Unit := do
  if 0 < (← get).files.pagePac.getD 0 then
    convert system args
  else
    noPac system args

/-- The number of workers that spe_page_pac.py is given. -/
def pacWorkers : Option Nat :=
  let nproc := cpusOr system 4
  if 1 < nproc then some (min nproc 32) else none

/-- The part of `profile` from spe_page_pac.py on. An error of the script is only printed. -/
def analyse : Run Int := do
  let result ← subprocessRun system (.spePagePac (pacWorkers system))
  if result.returncode ≠ 0 then
    printLine .profileSaved
    pure 0
  else if result.stderr ≠ [] then
    usePac system args
    printLine .profileSaved
    pure 0
  else
    saveBaseline system args noHotPagesConf

/-- `profile` -/
def profile : Run Int := do
  if !system.intercSo then
    pure 1
  else if !system.profSo then
    pure 1
  else
    match ← collect system args with
    | .affinityOnly text => saveBaseline system args text
    | .rawDump => analyse system args

-----------------------------------------------------------------------------------------
-- Nothing is saved before the analysis
-----------------------------------------------------------------------------------------

/-- Code that does not call `_save_profile`. -/
abbrev SavesNothing {α : Type} (code : Run α) : Prop := Keeps State.saved code

theorem savesNothing_changeFiles (change : OutputFiles → OutputFiles)
    : SavesNothing (changeFiles change) :=
  keeps_modify fun _ => rfl

theorem savesNothing_printLine (message : Message) : SavesNothing (printLine message) :=
  keeps_modify fun _ => rfl

/-- An operation on the files saves no profile. -/
theorem savesNothing_operate (op : FileOp) : SavesNothing (operate system op) := by
  unfold operate
  split
  · exact keeps_throw _
  · exact keeps_pure _

/-- Running a program saves no profile. -/
theorem savesNothing_subprocessRun (program : Program)
    : SavesNothing (subprocessRun system program) := by
  refine keeps_get.bind fun state => ?_
  refine (savesNothing_changeFiles _).bind fun _ => ?_
  split
  · exact keeps_pure _
  · exact keeps_throw _

/-- An operation that can fail, and the change that it makes. -/
theorem savesNothing_operate_change (op : FileOp) (change : OutputFiles → OutputFiles)
    : SavesNothing (do operate system op; changeFiles change) :=
  (savesNothing_operate system op).bind fun _ => savesNothing_changeFiles change

theorem savesNothing_unlinkSpe : SavesNothing (unlinkSpe system) := by
  refine keeps_get.bind fun state => ?_
  split
  · exact savesNothing_operate_change system _ _
  · exact keeps_pure _

theorem savesNothing_attempt (last template : List Char)
    : SavesNothing (attempt system last template) := by
  have fallback : SavesNothing (do unlinkSpe system; pure true) :=
    (savesNothing_unlinkSpe system).bind fun _ => keeps_pure true
  refine Keeps.tryCatch ?_ fun raised => ?_
  · refine (savesNothing_subprocessRun system _).bind fun result => ?_
    refine keeps_get.bind fun state => ?_
    split
    · exact keeps_pure _
    · split
      · exact fallback
      · exact keeps_pure _
  · split
    · exact fallback
    · exact keeps_throw _

/-- Trying the events saves no profile. -/
theorem savesNothing_recordFrom (last : List Char) (templates : List (List Char))
    : SavesNothing (recordFrom system last templates) := by
  induction templates with
  | nil => exact keeps_pure _
  | cons template rest ih =>
      refine (savesNothing_attempt system last template).bind fun next => ?_
      split
      · exact ih
      · exact keeps_pure _

theorem savesNothing_rawSize : SavesNothing rawSize := by
  refine keeps_get.bind fun state => ?_
  split
  · exact keeps_pure _
  · exact keeps_throw _

theorem savesNothing_unlinkRaw : SavesNothing (unlinkRaw system) := by
  refine keeps_get.bind fun state => ?_
  split
  · exact savesNothing_operate_change system _ _
  · exact keeps_pure _

/-- The end of a dump that failed. -/
theorem savesNothing_noDump : SavesNothing (do unlinkRaw system; pure false) :=
  (savesNothing_unlinkRaw system).bind fun _ => keeps_pure false

/-- The dump in one piece saves no profile. -/
theorem savesNothing_dumpSmall : SavesNothing (dumpSmall system) := by
  refine (savesNothing_operate_change system _ _).bind fun _ => ?_
  refine (savesNothing_subprocessRun system _).bind fun result => ?_
  split
  · exact savesNothing_noDump system
  · refine savesNothing_rawSize.bind fun size => ?_
    split
    · exact savesNothing_noDump system
    · exact keeps_pure _

theorem savesNothing_dumpCpu (cpu : Nat) : SavesNothing (dumpCpu system cpu) := by
  refine Keeps.tryCatch ?_ fun _ => keeps_pure _
  refine (savesNothing_operate system _).bind fun _ => ?_
  refine (savesNothing_changeFiles _).bind fun _ => ?_
  exact (savesNothing_subprocessRun system _).bind fun _ => keeps_pure _

theorem savesNothing_mergeCpu (cpu : Nat) : SavesNothing (mergeCpu system cpu) := by
  refine keeps_get.bind fun state => ?_
  dsimp only
  split
  · exact savesNothing_operate_change system _ _
  · exact keeps_pure _

/-- The dump by CPUs saves no profile. -/
theorem savesNothing_dumpLarge : SavesNothing (dumpLarge system) := by
  unfold dumpLarge
  dsimp only
  refine (keeps_forM (savesNothing_dumpCpu system) _).bind fun _ => ?_
  refine (savesNothing_operate_change system _ _).bind fun _ => ?_
  refine (keeps_forM (savesNothing_mergeCpu system) _).bind fun _ => ?_
  refine savesNothing_rawSize.bind fun size => ?_
  split
  · refine (savesNothing_operate_change system _ _).bind fun _ => ?_
    refine (savesNothing_subprocessRun system _).bind fun result => ?_
    split
    · exact savesNothing_noDump system
    · exact keeps_pure _
  · exact keeps_pure _

/-- Nothing up to the analysis saves a profile. -/
theorem savesNothing_collect : SavesNothing (collect system args) := by
  refine (savesNothing_operate system _).bind fun _ => ?_
  refine (savesNothing_subprocessRun system _).bind fun _ => ?_
  refine (savesNothing_operate system _).bind fun _ => ?_
  refine (savesNothing_recordFrom system _ _).bind fun _ => ?_
  refine keeps_get.bind fun state => ?_
  split
  · exact keeps_pure _
  · refine keeps_get.bind fun again => ?_
    split
    · exact keeps_pure _
    case h_2 size _ =>
        have dump : SavesNothing
            (if size < 10 * 1024 * 1024 then dumpSmall system else dumpLarge system) := by
          split
          · exact savesNothing_dumpSmall system
          · exact savesNothing_dumpLarge system
        refine dump.bind fun dumped => ?_
        split
        · exact savesNothing_rawSize.bind fun _ => keeps_pure _
        · exact keeps_pure _

end

end Kumf.Daemon.Profiling
