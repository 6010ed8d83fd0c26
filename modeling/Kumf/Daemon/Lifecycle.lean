import Kumf.Library.PyInt
import Kumf.Library.Runs
import Mathlib.Logic.Function.Basic

/-! The daemon as a process: `start`, `stop` and the tests for a running daemon, step by step,
with the pid file and the socket path that they share. Daemons leave in steps of their own, and
any process may be killed between two steps. Ids that no daemon has belong to other processes, to
groups of them, or to nothing; `os.kill` answers for them as the system likes.
-/

namespace Kumf.Daemon.Lifecycle

open Kumf.Library PyText

/-- How far a process is in `_run`. -/
inductive Phase where
  | booting
  | written
  | bound
  | serving
  | leaving
  | unlinked
  | done
  deriving DecidableEq, Repr

/-- The verdict of `_is_running` goes to `start`, to `autostart`, to a command that only prints
it, or to `stop`, which kills the process that it has signalled.
-/
inductive After where
  | launch (foreground : Bool)
  | autostart
  | report
  | finish (pid : Int)
  deriving DecidableEq, Repr

/-- The next step of a command. -/
inductive Pc where
  | idle
  | probe (after : After)
  | ask (after : After) (pid : Int)
  | dropPidFile (after : After)
  | dropSocket (after : After)
  | clearSocket (foreground : Bool)
  | fork (foreground : Bool)
  | await
  | stopRead
  | term (pid : Int)
  | kill (pid : Int)
  deriving DecidableEq, Repr

/-- The commands that look at the pid file; `check` stands for `wrap`. -/
inductive Task where
  | start (foreground : Bool)
  | autostart
  | stop
  | check
  deriving DecidableEq, Repr

/-- How `os.kill` ends: the signal was sent, `ProcessLookupError`, or an exception that no
command catches (`PermissionError` for a process of another user, `OverflowError` for a number that
is no process id).
-/
inductive Sent where
  | delivered
  | missing
  | raised
  deriving DecidableEq, Repr

/-- The text of the pid file, the process that bound the socket path, the processes inside
`_run` by their id, the next step of the command in each terminal, and how `os.kill` ends on an id
that no process inside `_run` has. A negative id stands for a group, or for all processes; the
daemons among them get the signal in steps of their own.
-/
structure System where
  pidFile : Option (List Char)
  socket : Option Int
  procs : Int → Option Phase
  commands : Nat → Pc
  foreign : Int → Sent

/-- `_read_pid`, with the test for 0 of its callers. -/
def readPid (pidFile : Option (List Char)) : Option Int :=
  (pidFile.bind (fun text => parseInt 10 (strip text))).filter (· ≠ 0)

/-- The next step after `_is_running`. -/
def After.next : After → Bool → Pc
  | launch _, true => .idle
  | launch foreground, false => .clearSocket foreground
  | autostart, true => .idle
  | autostart, false => .probe (.launch false)
  | report, _ => .idle
  | finish pid, true => .kill pid
  | finish _, false => .idle

def Task.first : Task → Pc
  | start foreground => .probe (.launch foreground)
  | autostart => .probe .autostart
  | stop => .stopRead
  | check => .probe .report

/-- `SIGTERM`, which ends a process that has not set its handlers. -/
def Phase.terminated : Phase → Option Phase
  | booting => none
  | written => none
  | bound => none
  | serving => some .leaving
  | leaving => some .leaving
  | unlinked => some .unlinked
  | done => some .done

inductive Action where
  | command (terminal : Nat) (task : Task)
  | cli (terminal : Nat) (forked : Int)
  | interrupt (terminal : Nat)
  | daemon (pid : Int)
  | terminate (pid : Int)
  | crash (pid : Int)
  | elsewhere (pid : Int) (sent : Sent)
  deriving DecidableEq, Repr

namespace System

def setProc (system : System) (pid : Int) (phase : Option Phase) : System :=
  { system with procs := Function.update system.procs pid phase }

def setCommand (system : System) (terminal : Nat) (pc : Pc) : System :=
  { system with commands := Function.update system.commands terminal pc }

/-- How `os.kill(pid, _)` ends; the daemons belong to the user who gives the commands. -/
def sent (system : System) (pid : Int) : Sent :=
  if (system.procs pid).isSome then .delivered else system.foreign pid

def sigterm (system : System) (pid : Int) : System :=
  system.setProc pid ((system.procs pid).bind Phase.terminated)

/-- The next step of a command; `forked` is the process id that a fork gives. -/
def cli (system : System) (terminal : Nat) (forked : Int) : System :=
  match system.commands terminal with
  | .idle => system
  | .probe after =>
      match readPid system.pidFile with
      | none => system.setCommand terminal (after.next false)
      | some pid => system.setCommand terminal (.ask after pid)
  | .ask after pid =>
      system.setCommand terminal
        (match system.sent pid with
          | .delivered => after.next true
          | .missing => .dropPidFile after
          | .raised => .idle)
  | .dropPidFile after => { system with pidFile := none }.setCommand terminal (.dropSocket after)
  | .dropSocket after => { system with socket := none }.setCommand terminal (after.next false)
  | .clearSocket foreground =>
      { system with socket := none }.setCommand terminal (.fork foreground)
  | .fork foreground =>
      (system.setProc forked (some .booting)).setCommand terminal
        (if foreground then .idle else .await)
  | .await => system.setCommand terminal (.probe .report)
  | .stopRead =>
      match readPid system.pidFile with
      | none => system.setCommand terminal .idle
      | some pid => system.setCommand terminal (.term pid)
  | .term pid =>
      match system.sent pid with
      | .delivered => (system.sigterm pid).setCommand terminal (.probe (.finish pid))
      | .missing => system.setCommand terminal (.dropPidFile .report)
      | .raised => system.setCommand terminal .idle
  | .kill pid =>
      match system.sent pid with
      | .delivered => (system.setProc pid none).setCommand terminal .idle
      | .missing => system.setCommand terminal (.dropPidFile .report)
      | .raised => system.setCommand terminal .idle

/-- The next step of `_run`. Binding fails on a path that exists, and the process ends. -/
def daemon (system : System) (pid : Int) : System :=
  match system.procs pid with
  | none => system
  | some .booting => { system with pidFile := some (str pid) }.setProc pid (some .written)
  | some .written =>
      if system.socket = none then
        { system with socket := some pid }.setProc pid (some .bound)
      else
        system.setProc pid none
  | some .bound => system.setProc pid (some .serving)
  | some .serving => system
  | some .leaving => { system with socket := none }.setProc pid (some .unlinked)
  | some .unlinked => { system with pidFile := none }.setProc pid (some .done)
  | some .done => system.setProc pid none

def step (system : System) : Action → System
  | .command terminal task => system.setCommand terminal task.first
  | .cli terminal forked => system.cli terminal forked
  | .interrupt terminal => system.setCommand terminal .idle
  | .daemon pid => system.daemon pid
  | .terminate pid => system.sigterm pid
  | .crash pid => system.setProc pid none
  | .elsewhere pid sent => { system with foreign := Function.update system.foreign pid sent }

/-- No daemon and no command, and whatever stands in the two files and runs elsewhere. -/
def initial (pidFile : Option (List Char)) (socket : Option Int) (foreign : Int → Sent)
    : System :=
  ⟨pidFile, socket, fun _ => none, fun _ => .idle, foreign⟩

/-- A process that has files in `_run`, or is about to. -/
def Active (system : System) (pid : Int) : Prop :=
  ∃ phase, system.procs pid = some phase ∧ phase ≠ .done

/-- The condition on a step. A command starts when no other one is under way, and `start` and
`autostart` only when no daemon has yet to write its pid file; the system gives a new process a
positive id that is not in use.
-/
def Orderly (system : System) : Action → Prop
  | .command _ task =>
      (∀ other, system.commands other = .idle)
      ∧ (task ≠ .stop → task ≠ .check → ∀ pid, system.procs pid ≠ some .booting)
  | .cli terminal forked =>
      ∀ foreground, system.commands terminal = .fork foreground →
        0 < forked ∧ system.procs forked = none
  | _ => True

end System

-----------------------------------------------------------------------------------------
-- The invariant
-----------------------------------------------------------------------------------------

/-- What a process in a phase knows of the two files, the pid file as `_read_pid` reads it. -/
def Phase.Owns (pid : Int) (read socket : Option Int) : Phase → Prop
  | booting => read = none ∧ socket = none
  | written => read = some pid ∧ socket = none
  | bound => read = some pid ∧ socket = some pid
  | serving => read = some pid ∧ socket = some pid
  | leaving => read = some pid ∧ socket = some pid
  | unlinked => read = some pid
  | done => True

namespace System

def Deserted (system : System) : Prop := ∀ pid, ¬ system.Active pid

/-- What waits for a verdict may rely on. -/
def AfterFits (system : System) : After → Prop
  | .launch _ => ∀ pid, system.procs pid ≠ some .booting
  | .autostart => ∀ pid, system.procs pid ≠ some .booting
  | .report => True
  | .finish pid =>
      ∀ other, system.Active other → other = pid ∧ system.procs other ≠ some .booting

/-- What a command may rely on in front of a step. -/
def Fits (system : System) : Pc → Prop
  | .idle => True
  | .probe after => system.AfterFits after
  | .ask after pid => system.AfterFits after ∧ ∀ other, system.Active other → other = pid
  | .dropPidFile _ => system.Deserted
  | .dropSocket _ => system.Deserted ∧ readPid system.pidFile = none
  | .clearSocket _ => system.Deserted ∧ readPid system.pidFile = none
  | .fork _ => system.Deserted ∧ readPid system.pidFile = none ∧ system.socket = none
  | .await => True
  | .stopRead => True
  | .term pid => ∀ other, system.Active other → other = pid
  | .kill pid => ∀ other, system.Active other → other = pid

/-- One daemon at most has files, they are its own, and one command at most is under way. -/
structure Sound (system : System) : Prop where
  alone : ∀ {pid other}, system.Active pid → system.Active other → pid = other
  positive : ∀ {pid phase}, system.procs pid = some phase → 0 < pid
  files
    : ∀ {pid phase},
        system.procs pid = some phase → phase.Owns pid (readPid system.pidFile) system.socket
  serial
    : ∀ {terminal other},
        system.commands terminal ≠ .idle → system.commands other ≠ .idle → terminal = other
  fits : ∀ terminal, system.Fits (system.commands terminal)

variable {system : System}

/-- A process that works is active. -/
theorem active_of {pid : Int} {phase : Phase} (here : system.procs pid = some phase)
    (working : phase ≠ .done)
    : system.Active pid :=
  ⟨phase, here, working⟩

/-- Processes that are not active say nothing about the files. -/
theorem owns_of_not_active {pid : Int} {phase : Phase} (here : system.procs pid = some phase)
    (idle : ¬ system.Active pid) (read socket : Option Int)
    : phase.Owns pid read socket := by
  have finished : phase = .done := not_not.mp (fun working => idle (active_of here working))
  rw [finished]
  trivial

/-- A pid file that reads as a number names the active process, if there is one. -/
theorem Sound.named {pid other : Int} (sound : system.Sound) (active : system.Active other)
    (read : readPid system.pidFile = some pid)
    : other = pid ∧ system.procs other ≠ some .booting := by
  obtain ⟨phase, here, working⟩ := active
  have owns := sound.files here
  rw [read] at owns
  cases phase with
  | booting => cases owns.1
  | written => exact ⟨(Option.some.inj owns.1).symm, by simp [here]⟩
  | bound => exact ⟨(Option.some.inj owns.1).symm, by simp [here]⟩
  | serving => exact ⟨(Option.some.inj owns.1).symm, by simp [here]⟩
  | leaving => exact ⟨(Option.some.inj owns.1).symm, by simp [here]⟩
  | unlinked => exact ⟨(Option.some.inj owns).symm, by simp [here]⟩
  | done => exact absurd rfl working

/-- Without a number in the pid file, an active process has yet to write it. -/
theorem Sound.unnamed (sound : system.Sound) (read : readPid system.pidFile = none)
    (booted : ∀ pid, system.procs pid ≠ some .booting)
    : system.Deserted := by
  rintro pid ⟨phase, here, working⟩
  have owns := sound.files here
  rw [read] at owns
  cases phase with
  | booting => exact booted pid here
  | written => cases owns.1
  | bound => cases owns.1
  | serving => cases owns.1
  | leaving => cases owns.1
  | unlinked => cases owns
  | done => exact working rfl

/-- Files alone are in order. -/
theorem sound_initial (pidFile : Option (List Char)) (socket : Option Int)
    (foreign : Int → Sent)
    : (initial pidFile socket foreign).Sound where
  alone := by
    rintro _ _ ⟨_, here, _⟩
    cases here
  positive here := by cases here
  files here := by cases here
  serial busy := absurd rfl busy
  fits _ := trivial

-----------------------------------------------------------------------------------------
-- Steps of processes
-----------------------------------------------------------------------------------------

/-- A step that starts no process, and changes the files only if one was active. -/
structure Winds (before after : System) : Prop where
  active : ∀ {pid}, after.Active pid → before.Active pid
  booting : ∀ {pid}, after.procs pid = some .booting → before.procs pid = some .booting
  files
    : before.Deserted → after.pidFile = before.pidFile ∧ after.socket = before.socket

/-- What waits for a verdict may still rely on it when processes wind down. -/
theorem Winds.afterFits {before after : System} (winds : Winds before after) {verdict : After}
    (fits : before.AfterFits verdict)
    : after.AfterFits verdict := by
  cases verdict with
  | launch foreground => exact fun pid here => fits pid (winds.booting here)
  | autostart => exact fun pid here => fits pid (winds.booting here)
  | report => trivial
  | finish pid =>
      intro other active
      obtain ⟨same, booted⟩ := fits other (winds.active active)
      exact ⟨same, fun here => booted (winds.booting here)⟩

/-- Nobody comes back when processes wind down. -/
theorem Winds.deserted {before after : System} (winds : Winds before after)
    (deserted : before.Deserted)
    : after.Deserted :=
  fun pid active => deserted pid (winds.active active)

/-- Such a step takes nothing away that a command relies on. -/
theorem Winds.fits {before after : System} (winds : Winds before after) {pc : Pc}
    (fits : before.Fits pc)
    : after.Fits pc := by
  cases pc with
  | idle => trivial
  | probe verdict => exact winds.afterFits fits
  | ask verdict pid =>
      exact ⟨winds.afterFits fits.1, fun other active => fits.2 other (winds.active active)⟩
  | dropPidFile verdict => exact winds.deserted fits
  | dropSocket verdict =>
      obtain ⟨deserted, read⟩ := fits
      refine ⟨winds.deserted deserted, ?_⟩
      rw [(winds.files deserted).1]
      exact read
  | clearSocket foreground =>
      obtain ⟨deserted, read⟩ := fits
      refine ⟨winds.deserted deserted, ?_⟩
      rw [(winds.files deserted).1]
      exact read
  | fork foreground =>
      obtain ⟨deserted, read, socket⟩ := fits
      refine ⟨winds.deserted deserted, ?_⟩
      rw [(winds.files deserted).1, (winds.files deserted).2]
      exact ⟨read, socket⟩
  | await => trivial
  | stopRead => trivial
  | term pid => exact fun other active => fits other (winds.active active)
  | kill pid => exact fun other active => fits other (winds.active active)

theorem setProc_same (pid : Int) (phase : Option Phase)
    : (system.setProc pid phase).procs pid = phase :=
  Function.update_self ..

theorem setProc_other {pid other : Int} (apart : other ≠ pid) (phase : Option Phase)
    : (system.setProc pid phase).procs other = system.procs other :=
  Function.update_of_ne apart ..

/-- The active process goes on, with files that suit its new phase. -/
theorem Sound.advance {pid : Int} {old : Phase} (sound : system.Sound)
    (here : system.procs pid = some old) (working : old ≠ .done) {phase : Option Phase}
    {pidFile : Option (List Char)} {socket : Option Int}
    (owns : ∀ next ∈ phase, next.Owns pid (readPid pidFile) socket ∧ next ≠ .booting)
    : ({ system with pidFile, socket }.setProc pid phase).Sound := by
  have active := active_of here working
  have other {q : Int} (apart : q ≠ pid)
      : ({ system with pidFile, socket }.setProc pid phase).procs q = system.procs q :=
    setProc_other apart phase
  have self : ({ system with pidFile, socket }.setProc pid phase).procs pid = phase :=
    setProc_same pid phase
  have winds : Winds system ({ system with pidFile, socket }.setProc pid phase) := by
    constructor
    · rintro q ⟨now, found, busy⟩
      by_cases same : q = pid
      · exact same ▸ active
      · rw [other same] at found
        exact active_of found busy
    · intro q found
      by_cases same : q = pid
      · rw [same, self] at found
        exact absurd rfl (owns _ found).2
      · rwa [other same] at found
    · exact fun deserted => absurd active (deserted pid)
  constructor
  · exact fun first second => sound.alone (winds.active first) (winds.active second)
  · intro q now found
    by_cases same : q = pid
    · exact same ▸ sound.positive here
    · rw [other same] at found
      exact sound.positive found
  · intro q now found
    by_cases same : q = pid
    · rw [same, self] at found
      exact same ▸ (owns now found).1
    · rw [other same] at found
      exact owns_of_not_active found (fun alsoActive => same (sound.alone alsoActive active)) _ _
  · exact sound.serial
  · exact fun terminal => winds.fits (sound.fits terminal)

/-- A process goes away. -/
theorem Sound.forget (sound : system.Sound) (pid : Int) : (system.setProc pid none).Sound := by
  have found_of {q : Int} {phase : Phase}
      (found : (system.setProc pid none).procs q = some phase)
      : system.procs q = some phase := by
    by_cases same : q = pid
    · rw [same, setProc_same] at found
      cases found
    · rwa [setProc_other same] at found
  have winds : Winds system (system.setProc pid none) := by
    constructor
    · rintro q ⟨phase, found, working⟩
      exact active_of (found_of found) working
    · exact found_of
    · exact fun _ => ⟨rfl, rfl⟩
  constructor
  · exact fun first second => sound.alone (winds.active first) (winds.active second)
  · exact fun found => sound.positive (found_of found)
  · exact fun found => sound.files (found_of found)
  · exact sound.serial
  · exact fun terminal => winds.fits (sound.fits terminal)

/-- Nothing here depends on what runs elsewhere. -/
theorem Sound.elsewhere (sound : system.Sound) (pid : Int) (sent : Sent)
    : ({ system with foreign := Function.update system.foreign pid sent } : System).Sound where
  alone := sound.alone
  positive := sound.positive
  files := sound.files
  serial := sound.serial
  fits terminal := Winds.fits ⟨id, id, fun _ => ⟨rfl, rfl⟩⟩ (sound.fits terminal)

/-- What a process writes is what `_read_pid` reads. -/
theorem readPid_str {pid : Int} (positive : 0 < pid) : readPid (some (str pid)) = some pid := by
  have visible : ∀ c ∈ str pid, isSpace c = false := by
    rw [str, if_neg (by omega)]
    exact fun c member => isSpace_hex (isDigitOf_hex_of_ten
      (isDigitOf_toDigits (by omega) (by omega) _ c member))
  have stripped : strip (str pid) = str pid :=
    strip_eq (fun c first => visible c (List.mem_of_mem_head? first))
      (fun c last => visible c (List.mem_of_getLast? last))
  have nonzero : pid ≠ 0 := by omega
  simpa [readPid, stripped, parseInt_str] using nonzero

/-- A step of a daemon keeps the files in order. -/
theorem Sound.daemon (sound : system.Sound) (pid : Int) : (system.daemon pid).Sound := by
  unfold System.daemon
  split
  case h_1 => exact sound
  case h_2 here =>
      obtain ⟨_, free⟩ := sound.files here
      refine sound.advance here (by simp) (fun next same => ?_)
      obtain rfl := Option.some.inj same
      exact ⟨⟨readPid_str (sound.positive here), free⟩, by simp⟩
  case h_3 here =>
      obtain ⟨read, free⟩ := sound.files here
      rw [if_pos free]
      refine sound.advance here (by simp) (fun next same => ?_)
      obtain rfl := Option.some.inj same
      exact ⟨⟨read, rfl⟩, by simp⟩
  case h_4 here =>
      have owns := sound.files here
      refine sound.advance here (by simp) (fun next same => ?_)
      obtain rfl := Option.some.inj same
      exact ⟨owns, by simp⟩
  case h_5 => exact sound
  case h_6 here =>
      obtain ⟨read, _⟩ := sound.files here
      refine sound.advance here (by simp) (fun next same => ?_)
      obtain rfl := Option.some.inj same
      exact ⟨read, by simp⟩
  case h_7 here =>
      refine sound.advance here (by simp) (fun next same => ?_)
      obtain rfl := Option.some.inj same
      exact ⟨trivial, by simp⟩
  case h_8 => exact sound.forget pid

/-- A signal keeps the files of a process that survives it. -/
theorem terminated_owns {phase next : Phase} (survives : phase.terminated = some next) {pid : Int}
    {read socket : Option Int} (owns : phase.Owns pid read socket)
    : next.Owns pid read socket ∧ next ≠ .booting := by
  cases phase with
  | booting => cases survives
  | written => cases survives
  | bound => cases survives
  | serving => cases survives; exact ⟨owns, by simp⟩
  | leaving => cases survives; exact ⟨owns, by simp⟩
  | unlinked => cases survives; exact ⟨owns, by simp⟩
  | done => cases survives; exact ⟨owns, by simp⟩

/-- A signal keeps the files in order. -/
theorem Sound.sigterm (sound : system.Sound) (pid : Int) : (system.sigterm pid).Sound := by
  unfold System.sigterm
  cases here : system.procs pid with
  | none => exact sound.forget pid
  | some phase =>
      by_cases finished : phase = .done
      · have unchanged : system.setProc pid ((some phase).bind Phase.terminated) = system := by
          rw [finished, Option.bind_some, Phase.terminated, setProc, ← finished, ← here,
            Function.update_eq_self]
        rw [unchanged]
        exact sound
      · refine sound.advance here finished (fun next same => ?_)
        exact terminated_owns same (sound.files here)

-----------------------------------------------------------------------------------------
-- Steps of commands
-----------------------------------------------------------------------------------------

theorem command_other {terminal other : Nat} (apart : other ≠ terminal) (pc : Pc)
    : (system.setCommand terminal pc).commands other = system.commands other :=
  Function.update_of_ne apart ..

theorem command_same (terminal : Nat) (pc : Pc)
    : (system.setCommand terminal pc).commands terminal = pc :=
  Function.update_self ..

section
variable {terminal : Nat} {pc : Pc}
  (others : ∀ other, other ≠ terminal → system.commands other = .idle)

include others in
/-- One command at most is under way, also when it has moved on. -/
theorem serial_setCommand {first second : Nat}
    (firstBusy : (system.setCommand terminal pc).commands first ≠ .idle)
    (secondBusy : (system.setCommand terminal pc).commands second ≠ .idle)
    : first = second := by
  have only {other : Nat} (busy : (system.setCommand terminal pc).commands other ≠ .idle)
      : other = terminal := by
    by_contra apart
    exact busy ((command_other apart pc).trans (others other apart))
  exact (only firstBusy).trans (only secondBusy).symm

include others in
/-- The command that moves on fits, and the others rest. -/
theorem fits_setCommand (fits : system.Fits pc) (other : Nat)
    : (system.setCommand terminal pc).Fits ((system.setCommand terminal pc).commands other) := by
  by_cases same : other = terminal
  · rw [same, command_same]
    exact fits
  · rw [command_other same, others other same]
    trivial

end

/-- A command goes on, and changes the files only if no process is active. -/
theorem Sound.move {terminal : Nat} (sound : system.Sound)
    (others : ∀ other, other ≠ terminal → system.commands other = .idle)
    {pidFile : Option (List Char)} {socket : Option Int}
    (quiet : pidFile = system.pidFile ∧ socket = system.socket ∨ system.Deserted) {pc : Pc}
    (fits : ({ system with pidFile, socket } : System).Fits pc)
    : ({ system with pidFile, socket }.setCommand terminal pc).Sound := by
  constructor
  · exact sound.alone
  · exact sound.positive
  · intro pid phase found
    rcases quiet with ⟨samePid, sameSocket⟩ | deserted
    · have owns := sound.files found
      rw [← samePid, ← sameSocket] at owns
      exact owns
    · exact owns_of_not_active found (deserted pid) _ _
  · exact serial_setCommand others
  · exact fits_setCommand others fits

/-- Beside a command under way all others rest. -/
theorem Sound.others {terminal : Nat} (sound : system.Sound)
    (busy : system.commands terminal ≠ .idle) (other : Nat) (apart : other ≠ terminal)
    : system.commands other = .idle := by
  by_contra alsoBusy
  exact apart (sound.serial alsoBusy busy)

/-- A verdict that the daemon runs needs nothing but the signalled id of `stop`. -/
theorem fits_running {after : After} (fits : system.AfterFits after)
    : system.Fits (after.next true) := by
  cases after with
  | launch foreground => trivial
  | autostart => trivial
  | report => trivial
  | finish pid => exact fun other active => (fits other active).1

/-- A verdict that no daemon runs. -/
theorem fits_missing {after : After} (fits : system.AfterFits after)
    (read : readPid system.pidFile = none)
    (deserted : (∀ pid, system.procs pid ≠ some .booting) → system.Deserted)
    : system.Fits (after.next false) := by
  cases after with
  | launch foreground => exact ⟨deserted fits, read⟩
  | autostart => exact fits
  | report => trivial
  | finish pid => trivial

/-- A new process starts to boot. -/
theorem Sound.fork {terminal : Nat} {forked : Int} (sound : system.Sound)
    (others : ∀ other, other ≠ terminal → system.commands other = .idle)
    (deserted : system.Deserted) (read : readPid system.pidFile = none)
    (free : system.socket = none) (positive : 0 < forked) {pc : Pc}
    (fits : (system.setProc forked (some .booting)).Fits pc)
    : ((system.setProc forked (some .booting)).setCommand terminal pc).Sound := by
  have only {pid : Int} (active : (system.setProc forked (some .booting)).Active pid)
      : pid = forked := by
    obtain ⟨phase, found, working⟩ := active
    by_contra apart
    rw [setProc_other apart] at found
    exact deserted pid (active_of found working)
  constructor
  · exact fun first second => (only first).trans (only second).symm
  · intro pid phase found
    by_cases same : pid = forked
    · exact same ▸ positive
    · exact sound.positive ((setProc_other same _).symm.trans found)
  · intro pid phase found
    by_cases same : pid = forked
    · rw [same] at found ⊢
      obtain rfl := Option.some.inj ((setProc_same forked (some .booting)).symm.trans found)
      exact ⟨read, free⟩
    · exact owns_of_not_active ((setProc_other same _).symm.trans found) (deserted pid) _ _
  · exact serial_setCommand others
  · exact fits_setCommand others fits

/-- Reading the pid file tells who the active process is, or that there is none. -/
theorem Sound.probe (sound : system.Sound) {terminal : Nat}
    (others : ∀ other, other ≠ terminal → system.commands other = .idle) {after : After}
    (fits : system.AfterFits after)
    : (match readPid system.pidFile with
        | none => system.setCommand terminal (after.next false)
        | some pid => system.setCommand terminal (.ask after pid)).Sound := by
  cases read : readPid system.pidFile with
  | none =>
      exact sound.move others (.inl ⟨rfl, rfl⟩) (fits_missing fits read (sound.unnamed read))
  | some pid =>
      refine sound.move others (.inl ⟨rfl, rfl⟩) ⟨fits, fun other active => ?_⟩
      exact (sound.named active read).1

/-- A signal reaches every process inside `_run`. -/
theorem sent_of_active {pid : Int} (active : system.Active pid) : system.sent pid = .delivered := by
  obtain ⟨phase, here, _⟩ := active
  rw [sent, here]
  rfl

/-- Without an active process but one, a signal that does not arrive there says that none is left.
-/
theorem deserted_of_only {pid : Int} (only : ∀ other, system.Active other → other = pid)
    (lost : system.sent pid ≠ .delivered)
    : system.Deserted := by
  rintro other active
  obtain rfl := only other active
  exact lost (sent_of_active active)

/-- A signal brings no process to life, and ends those that still boot. -/
theorem sigterm_active {pid other : Int} (active : (system.sigterm pid).Active other)
    : system.Active other
      ∧ (other = pid → (system.sigterm pid).procs other ≠ some .booting) := by
  obtain ⟨phase, found, working⟩ := active
  by_cases same : other = pid
  · rw [same] at found ⊢
    rw [System.sigterm, setProc_same] at found
    obtain ⟨old, here, survives⟩ := Option.bind_eq_some_iff.mp found
    refine ⟨active_of here ?_, fun _ => ?_⟩
    · rintro rfl
      cases survives
      exact working rfl
    · rw [System.sigterm, setProc_same, found]
      cases old <;> cases survives <;> simp
  · rw [System.sigterm, setProc_other same] at found
    exact ⟨active_of found working, fun here => absurd here same⟩

/-- A step of a command keeps the files in order. -/
theorem Sound.cli (sound : system.Sound) (terminal : Nat) (forked : Int)
    (orderly : system.Orderly (.cli terminal forked))
    : (system.cli terminal forked).Sound := by
  have fits := sound.fits terminal
  by_cases resting : system.commands terminal = .idle
  · rw [System.cli, resting]
    exact sound
  have others := sound.others resting
  unfold System.cli
  split
  case h_1 => exact sound
  case h_2 after pc =>
      rw [pc] at fits
      exact sound.probe others fits
  case h_3 after pid pc =>
      rw [pc] at fits
      refine sound.move others (.inl ⟨rfl, rfl⟩) ?_
      split
      case h_1 => exact fits_running fits.1
      case h_2 gone => exact deserted_of_only fits.2 (by simp [gone])
      case h_3 => trivial
  case h_4 after pc =>
      rw [pc] at fits
      exact sound.move others (.inr fits) ⟨fits, rfl⟩
  case h_5 after pc =>
      rw [pc] at fits
      refine sound.move others (.inr fits.1) ?_
      cases after with
      | launch foreground => exact fits
      | autostart => exact fun pid here => fits.1 pid (active_of here (by simp))
      | report => trivial
      | finish pid => trivial
  case h_6 foreground pc =>
      rw [pc] at fits
      exact sound.move others (.inr fits.1) ⟨fits.1, fits.2, rfl⟩
  case h_7 foreground pc =>
      rw [pc] at fits
      obtain ⟨deserted, read, free⟩ := fits
      refine sound.fork others deserted read free (orderly foreground pc).1 ?_
      cases foreground <;> trivial
  case h_8 pc => exact sound.move others (.inl ⟨rfl, rfl⟩) trivial
  case h_9 pc =>
      cases read : readPid system.pidFile with
      | none => exact sound.move others (.inl ⟨rfl, rfl⟩) trivial
      | some pid =>
          exact sound.move others (.inl ⟨rfl, rfl⟩)
            (fun other active => (sound.named active read).1)
  case h_10 pid pc =>
      rw [pc] at fits
      split
      case h_1 =>
          refine (sound.sigterm pid).move others (.inl ⟨rfl, rfl⟩) (fun other active => ?_)
          obtain ⟨before, booted⟩ := sigterm_active active
          exact ⟨fits other before, booted (fits other before)⟩
      case h_2 gone =>
          exact sound.move others (.inl ⟨rfl, rfl⟩) (deserted_of_only fits (by simp [gone]))
      case h_3 => exact sound.move others (.inl ⟨rfl, rfl⟩) trivial
  case h_11 pid pc =>
      rw [pc] at fits
      split
      case h_1 => exact (sound.forget pid).move others (.inl ⟨rfl, rfl⟩) trivial
      case h_2 gone =>
          exact sound.move others (.inl ⟨rfl, rfl⟩) (deserted_of_only fits (by simp [gone]))
      case h_3 => exact sound.move others (.inl ⟨rfl, rfl⟩) trivial

/-- Every orderly step keeps the invariant. -/
theorem Sound.step (sound : system.Sound) (action : Action) (orderly : system.Orderly action)
    : (system.step action).Sound := by
  cases action with
  | command terminal task =>
      obtain ⟨idle, booted⟩ := orderly
      refine sound.move (fun other _ => idle other) (.inl ⟨rfl, rfl⟩) ?_
      cases task with
      | start foreground => exact booted (by simp) (by simp)
      | autostart => exact booted (by simp) (by simp)
      | stop => trivial
      | check => trivial
  | cli terminal forked => exact sound.cli terminal forked orderly
  | interrupt terminal =>
      by_cases resting : system.commands terminal = .idle
      · have unchanged : system.setCommand terminal .idle = system := by
          rw [setCommand, ← resting, Function.update_eq_self]
        exact (congrArg Sound unchanged).mpr sound
      · exact sound.move (sound.others resting) (.inl ⟨rfl, rfl⟩) trivial
  | daemon pid => exact sound.daemon pid
  | terminate pid => exact sound.sigterm pid
  | crash pid => exact sound.forget pid
  | elsewhere pid sent => exact sound.elsewhere pid sent

/-- The files are in order after every run. -/
theorem run_sound {pidFile : Option (List Char)} {socket : Option Int} {foreign : Int → Sent}
    {actions : List Action}
    (run : Along step Orderly (initial pidFile socket foreign) actions)
    : (actions.foldl step (initial pidFile socket foreign)).Sound :=
  Along.invariant step (fun _ _ sound orderly => sound.step _ orderly)
    (sound_initial pidFile socket foreign) run

end System
end Kumf.Daemon.Lifecycle
