import Kumf.PacToInterc.ProfLog
import Mathlib.Data.Char
import Mathlib.Data.List.Lex
import Mathlib.Data.List.Sort

/-! The logs of the threads on their way to `cross_correlate`: `kumf diagnose` passes the first
file, the daemon's `profile` a merge of all files.
-/

namespace Kumf.Cli

open Kumf.Library PyText
open Kumf.Prof (Dladdr LogEntry dumpLog dumpLine)
open Kumf.PacToInterc (ProfRecord loadProfLog loadProfLine)

abbrev Path : Type := List Char

-----------------------------------------------------------------------------------------
-- The files of a profiled run
-----------------------------------------------------------------------------------------

/-- The log of a thread; its last line is complete. -/
structure ThreadLog where
  tid : Nat
  text : List Char
  complete : text ≠ [] → text.getLast? = some '\n'

namespace ThreadLog

/-- The path that `open_file` opens. -/
def path (log : ThreadLog) : Path := "/tmp/kumf/data.raw.".toList ++ Nat.toDigits 10 log.tid

/-- The log that `prof_cleanup` leaves of a thread. -/
def ofEntries (dladdr : Dladdr) (tid : Nat) (entries : List LogEntry) : ThreadLog where
  tid
  text := dumpLog dladdr entries
  complete := by
    intro nonempty
    rcases List.eq_nil_or_concat' (entries.map (dumpLine dladdr))
      with empty | ⟨lines, last, parts⟩
    · rw [dumpLog, empty] at nonempty
      exact absurd rfl nonempty
    · have last : unlines [last] = last ++ ['\n'] := List.append_nil _
      rw [dumpLog, parts, unlines_append, last, ← List.append_assoc]
      exact List.getLast?_concat

theorem path_ne_nil (log : ThreadLog) : log.path ≠ [] :=
  List.append_ne_nil_of_left_ne_nil (by decide) _

/-- The records that `load_prof_log` reads of the log. -/
def records (log : ThreadLog) : List ProfRecord := loadProfLog log.text

end ThreadLog

/-- The logs in `/tmp/kumf`, in the order of the directory. -/
structure LogDirectory where
  logs : List ThreadLog
  distinct : (logs.map ThreadLog.tid).Nodup

namespace LogDirectory

/-- The text of a file. -/
def read (directory : LogDirectory) (path : Path) : Option (List Char) :=
  (directory.logs.find? (fun log => log.path = path)).map ThreadLog.text

/-- `sorted(Path("/tmp/kumf").glob("data.raw.*"))` -/
def profFiles (directory : LogDirectory) : List ThreadLog :=
  directory.logs.insertionSort (fun left right => left.path ≤ right.path)

/-- All records of all logs. -/
def records (directory : LogDirectory) : List ProfRecord :=
  directory.logs.flatMap ThreadLog.records

end LogDirectory

-----------------------------------------------------------------------------------------
-- pac_to_interc.py and its two callers
-----------------------------------------------------------------------------------------

/-- The value behind an option of a command line. -/
def optionValue (name : List Char) : List (List Char) → Option (List Char)
  | key :: value :: rest => if key = name then some value else optionValue name rest
  | _ => none

/-- The records that `main` of pac_to_interc.py hands to `cross_correlate`, if it calls it. -/
def handed (read : Path → Option (List Char)) (command : List (List Char))
    : Option (List ProfRecord) :=
  let args := command.drop 2
  if (optionValue "--mode".toList args).getD "alloc".toList = "alloc".toList then
    match optionValue "--prof-log".toList args with
    | some profLog => if profLog = [] then none else (read profLog).map loadProfLog
    | none => none
  else
    none

/-- The interpreter, the script and the output directory. -/
structure ScriptPaths where
  python : Path
  pacToInterc : Path
  outputDir : Path

namespace ScriptPaths

def pacCsv (paths : ScriptPaths) : Path := paths.outputDir ++ "/page_pac.csv".toList

def confPath (paths : ScriptPaths) : Path := paths.outputDir ++ "/kumf.conf".toList

def mergedProf (paths : ScriptPaths) : Path := paths.outputDir ++ "/prof_merged.log".toList

end ScriptPaths

section
variable (paths : ScriptPaths)

/-- `interc_cmd` without a log. -/
def plainCommand : List (List Char) :=
  [paths.python, paths.pacToInterc, "--pac-csv".toList, paths.pacCsv, "--mode".toList,
    "alloc".toList, "-o".toList, paths.confPath]

/-- `interc_cmd` of `cmd_diagnose` with a log. -/
def logCommand (profLog : Path) : List (List Char) :=
  [paths.python, paths.pacToInterc, "--pac-csv".toList, paths.pacCsv, "--prof-log".toList, profLog,
    "--mode".toList, "alloc".toList, "-o".toList, paths.confPath]

/-- The command that `cmd_diagnose` runs last: one that fails is run again without its log. -/
def diagnoseCommand (returncode : List (List Char) → Int) (directory : LogDirectory)
    : List (List Char) :=
  match directory.profFiles with
  | first :: _ =>
      if returncode (logCommand paths first.path) ≠ 0 then plainCommand paths
      else logCommand paths first.path
  | [] => plainCommand paths

/-- The records that `kumf diagnose` hands on. -/
def diagnoseHands (returncode : List (List Char) → Int) (directory : LogDirectory)
    : List ProfRecord :=
  (handed directory.read (diagnoseCommand paths returncode directory)).getD []

/-- The text of `prof_merged.log`. -/
def mergedText (directory : LogDirectory) : List Char :=
  directory.profFiles.flatMap (fun log => universalNewlines log.text)

/-- The command of the daemon's `profile`. -/
def profileCommand (directory : LogDirectory) : List (List Char) :=
  if directory.profFiles = [] then
    plainCommand paths
  else
    ((plainCommand paths).insertIdx 4 paths.mergedProf).insertIdx 4 "--prof-log".toList

/-- The records that the daemon's `profile` hands on. -/
def profileHands (directory : LogDirectory) : List ProfRecord :=
  (handed
    (fun path =>
      if path = paths.mergedProf then some (mergedText directory) else directory.read path)
    (profileCommand paths directory)).getD []

end

-----------------------------------------------------------------------------------------
-- What is handed on
-----------------------------------------------------------------------------------------

/-- A log that ends with a newline may be read apart from what follows it. -/
theorem loadProfLog_append {front : List Char}
    (complete : front ≠ [] → front.getLast? = some '\n') (back : List Char)
    : loadProfLog (front ++ back) = loadProfLog front ++ loadProfLog back := by
  have nothing : loadProfLog [] = [] := rfl
  rcases List.eq_nil_or_concat' front with rfl | ⟨lines, c, rfl⟩
  · rw [nothing, List.nil_append, List.nil_append]
  · have newline := complete (by simp)
    rw [List.getLast?_concat] at newline
    obtain rfl := Option.some.inj newline
    obtain ⟨line, cut⟩ := universalNewlines_line lines
    have whole : loadProfLog (lines ++ ['\n']) = (line.splitOn '\n').filterMap loadProfLine := by
      rw [loadProfLog, cut, List.splitOn_append_cons_self, List.filterMap_append]
      exact List.append_nil _
    rw [whole, List.append_assoc, List.singleton_append, loadProfLog, cut,
      List.splitOn_append_cons_self, List.filterMap_append]
    rfl

theorem universalNewlines_idem (text : List Char)
    : universalNewlines (universalNewlines text) = universalNewlines text :=
  universalNewlines_eq (return_not_mem_universalNewlines text)

theorem ThreadLog.complete_universalNewlines (log : ThreadLog)
    : universalNewlines log.text ≠ [] → (universalNewlines log.text).getLast? = some '\n' := by
  intro nonempty
  rcases List.eq_nil_or_concat' log.text with empty | ⟨lines, c, text⟩
  · rw [empty] at nonempty
    exact absurd rfl nonempty
  · have newline := log.complete (by simp [text])
    rw [text, List.getLast?_concat] at newline
    obtain rfl := Option.some.inj newline
    obtain ⟨line, cut⟩ := universalNewlines_line lines
    rw [text, cut]
    exact List.getLast?_concat

namespace LogDirectory

variable (directory : LogDirectory)

theorem profFiles_perm : directory.profFiles.Perm directory.logs :=
  List.perm_insertionSort _ _

theorem read_path {log : ThreadLog} (member : log ∈ directory.logs)
    : directory.read log.path = some log.text := by
  cases found : directory.logs.find? (fun other => other.path = log.path) with
  | none => exact absurd (decide_eq_true rfl) (List.find?_eq_none.mp found log member)
  | some other =>
      have samePath : other.path = log.path := by simpa using List.find?_some found
      have sameTid : other.tid = log.tid :=
        toDigits_injective (by omega) (by omega) (List.append_cancel_left samePath)
      have same : other = log :=
        List.inj_on_of_nodup_map directory.distinct (List.mem_of_find?_eq_some found) member sameTid
      rw [read, found, same]
      rfl

/-- A merge of complete logs has the records of all of them. -/
theorem loadProfLog_merged (logs : List ThreadLog)
    : loadProfLog (logs.flatMap (fun log => universalNewlines log.text))
      = logs.flatMap ThreadLog.records := by
  induction logs with
  | nil => rfl
  | cons log rest ih =>
      have read : loadProfLog (universalNewlines log.text) = log.records := by
        rw [loadProfLog, universalNewlines_idem]
        rfl
      rw [List.flatMap_cons, loadProfLog_append log.complete_universalNewlines, read, ih,
        List.flatMap_cons]

end LogDirectory

section
variable (paths : ScriptPaths) (directory : LogDirectory)

theorem handed_plainCommand (read : Path → Option (List Char))
    : handed read (plainCommand paths) = none := by
  have mode : optionValue "--mode".toList ((plainCommand paths).drop 2) = some "alloc".toList := rfl
  have log : optionValue "--prof-log".toList ((plainCommand paths).drop 2) = none := rfl
  simp only [handed, mode, log, Option.getD_some, if_true]

theorem handed_logCommand (read : Path → Option (List Char)) {profLog : Path}
    (nonempty : profLog ≠ [])
    : handed read (logCommand paths profLog) = (read profLog).map loadProfLog := by
  have mode
      : optionValue "--mode".toList ((logCommand paths profLog).drop 2) = some "alloc".toList :=
    rfl
  have log : optionValue "--prof-log".toList ((logCommand paths profLog).drop 2) = some profLog :=
    rfl
  simp only [handed, mode, log, Option.getD_some, if_true, if_neg nonempty]

/-- Only the first file is read. -/
theorem diagnoseHands_eq {returncode : List (List Char) → Int}
    (succeeds : ∀ command, returncode command = 0)
    : diagnoseHands paths returncode directory
      = directory.profFiles.head?.elim [] ThreadLog.records := by
  unfold diagnoseHands diagnoseCommand
  cases files : directory.profFiles with
  | nil => rfl
  | cons first rest =>
      have member : first ∈ directory.logs :=
        directory.profFiles_perm.mem_iff.mp (files ▸ List.mem_cons_self)
      dsimp only
      rw [if_neg (fun failed => failed (succeeds _)),
        handed_logCommand paths _ first.path_ne_nil, directory.read_path member]
      rfl

/-- All files are read, one after the other. -/
theorem profileHands_eq
    : profileHands paths directory = directory.profFiles.flatMap ThreadLog.records := by
  unfold profileHands profileCommand
  split
  case isTrue none =>
      rw [handed_plainCommand, none]
      rfl
  case isFalse some =>
      have inserted
          : ((plainCommand paths).insertIdx 4 paths.mergedProf).insertIdx 4 "--prof-log".toList
            = logCommand paths paths.mergedProf :=
        rfl
      have nonempty : paths.mergedProf ≠ [] :=
        List.append_ne_nil_of_right_ne_nil _ (by decide)
      rw [inserted, handed_logCommand paths _ nonempty, if_pos rfl]
      exact LogDirectory.loadProfLog_merged directory.profFiles

/-- Both front ends hand on all records of all logs just if those behind the first file have none.
-/
theorem handsAll_iff {returncode : List (List Char) → Int}
    (succeeds : ∀ command, returncode command = 0)
    : (diagnoseHands paths returncode directory).Perm directory.records
        ∧ (profileHands paths directory).Perm directory.records
      ↔ ∀ log ∈ directory.profFiles.tail, log.records = [] := by
  have all : (directory.profFiles.flatMap ThreadLog.records).Perm directory.records :=
    directory.profFiles_perm.flatMap_right _
  rw [diagnoseHands_eq paths directory succeeds, profileHands_eq, and_iff_left all]
  cases files : directory.profFiles with
  | nil =>
      rw [files] at all
      simpa using all
  | cons first rest =>
      rw [files, List.flatMap_cons] at all
      constructor
      · intro same log member
        have lengths := (same.trans all.symm).length_eq
        rw [List.length_append] at lengths
        have none : rest.flatMap ThreadLog.records = [] := by
          refine List.eq_nil_of_length_eq_zero ?_
          change first.records.length = _ at lengths
          omega
        exact List.flatMap_eq_nil_iff.mp none log member
      · intro none
        have empty : rest.flatMap ThreadLog.records = [] := List.flatMap_eq_nil_iff.mpr none
        rwa [empty, List.append_nil] at all

end

-----------------------------------------------------------------------------------------
-- Two threads
-----------------------------------------------------------------------------------------

open Kumf.PacToInterc (profRecord mainOnly fromMain fromStripped named_mainOnly loadProfLog_dumps)

/-- The main thread with the number 999, and one that it has started. -/
def twoThreads : LogDirectory where
  logs := [.ofEntries mainOnly 999 [fromMain], .ofEntries mainOnly 1000 [fromStripped]]
  distinct := by decide

def installed : ScriptPaths where
  python := "/usr/bin/python3".toList
  pacToInterc := "/opt/kumf/tools/pac_to_interc.py".toList
  outputDir := "/tmp/kumf".toList

theorem handsAll_twoThreads
    : (diagnoseHands installed (fun _ => 0) twoThreads).Perm twoThreads.records
        ∧ (profileHands installed twoThreads).Perm twoThreads.records
      ↔ ∀ log ∈ twoThreads.profFiles.tail, log.records = [] :=
  handsAll_iff installed twoThreads (fun _ => rfl)

theorem records_ofEntries (tid : Nat) (entries : List LogEntry)
    : (ThreadLog.ofEntries mainOnly tid entries).records = entries.map (profRecord mainOnly) := by
  have read
      : loadProfLog ([entries].flatMap (dumpLog mainOnly))
        = [entries].flatten.map (profRecord mainOnly) :=
    loadProfLog_dumps (fun entry _ => named_mainOnly entry.callerAddr)
  simp only [List.flatMap_cons, List.flatMap_nil, List.append_nil, List.flatten_cons,
    List.flatten_nil] at read
  exact read

/-- The file of thread 1000 sorts first, and `kumf diagnose` loses the block of the main thread. -/
theorem twoThreads_loses
    : diagnoseHands installed (fun _ => 0) twoThreads = [profRecord mainOnly fromStripped]
      ∧ profileHands installed twoThreads
        = [profRecord mainOnly fromStripped, profRecord mainOnly fromMain]
      ∧ ¬ (diagnoseHands installed (fun _ => 0) twoThreads).Perm twoThreads.records := by
  have files : twoThreads.profFiles
      = [.ofEntries mainOnly 1000 [fromStripped], .ofEntries mainOnly 999 [fromMain]] := by
    rfl
  have first : diagnoseHands installed (fun _ => 0) twoThreads
      = [profRecord mainOnly fromStripped] := by
    rw [diagnoseHands_eq installed twoThreads (fun _ => rfl), files]
    exact records_ofEntries 1000 [fromStripped]
  refine ⟨first, ?_, ?_⟩
  · rw [profileHands_eq, files]
    simp [records_ofEntries]
  · rw [first]
    intro same
    have lengths := same.length_eq
    simp [LogDirectory.records, twoThreads, records_ofEntries] at lengths

end Kumf.Cli
