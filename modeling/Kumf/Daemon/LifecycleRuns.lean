import Kumf.Daemon.Lifecycle

/-! What `start` and `stop` promise over whole runs: a daemon that serves can be found, and no
other process takes its files away.
-/

namespace Kumf.Daemon.Lifecycle

open Kumf.Library PyText

namespace System

/-- One daemon at most is between its start and the end of its clean-up. A daemon that serves is
the one that the pid file names and that the socket path leads to, and one that is about to bind
the path finds it free.
-/
structure Intact (system : System) : Prop where
  alone : ∀ pid other, system.Active pid → system.Active other → pid = other
  reachable
    : ∀ pid,
        system.procs pid = some .serving
        → readPid system.pidFile = some pid ∧ system.socket = some pid
  binds : ∀ pid, system.procs pid = some .written → system.socket = none

end System

/-- `stop` has sent its signal and has not made sure of the outcome. -/
def Pc.signalled : Pc → Bool
  | probe (.finish _) => true
  | ask (.finish _) _ => true
  | dropPidFile (.finish _) => true
  | dropSocket (.finish _) => true
  | kill _ => true
  | _ => false

namespace System

variable {system : System}

/-- Whatever stood in the files before, and however commands, signals, crashes, other processes
and the daemons' own steps follow each other, the files of a daemon that serves stay its own.
-/
theorem run_intact {pidFile : Option (List Char)} {socket : Option Int} {foreign : Int → Sent}
    {actions : List Action}
    (run : Along step Orderly (initial pidFile socket foreign) actions)
    : (actions.foldl step (initial pidFile socket foreign)).Intact where
  alone _ _ := (run_sound run).alone
  reachable _ here := (run_sound run).files here
  binds _ here := ((run_sound run).files here).2

/-- A `start` over the files that a killed daemon left, a `stop` in another terminal whose signal
the new daemon has taken, and a second `start` that finds it still leaving.
-/
def startStopStart : List Action :=
  [.command 0 (.start false), .cli 0 88, .cli 0 88, .cli 0 88, .cli 0 88, .cli 0 88, .cli 0 88,
    .daemon 88, .daemon 88, .daemon 88, .interrupt 0,
    .command 1 .stop, .cli 1 99, .cli 1 99, .interrupt 1,
    .command 0 (.start false), .cli 0 99, .cli 0 99]

theorem startStopStart_intact
    : let leftovers := initial (some (str 77)) (some 77) (fun _ => .missing)
      Along step Orderly leftovers startStopStart
      ∧ (startStopStart.foldl step leftovers).Intact
      ∧ (startStopStart.foldl step leftovers).procs 88 = some .leaving
      ∧ (startStopStart.foldl step leftovers).commands 0 = .idle := by
  have stale : readPid (some (str 77)) = some 77 := readPid_str (by decide)
  have own : readPid (some (str 88)) = some 88 := readPid_str (by decide)
  have run : Along step Orderly (initial (some (str 77)) (some 77) (fun _ => .missing))
      startStopStart := by
    simp [startStopStart, Along, step, Orderly, cli, daemon, sigterm, setCommand, setProc,
      Task.first, initial, stale, own, After.next, sent, Function.update, Phase.terminated]
  refine ⟨run, run_intact run, ?_⟩
  simp [startStopStart, step, cli, daemon, sigterm, setCommand, setProc, Task.first, initial,
    stale, own, After.next, sent, Function.update, Phase.terminated]

/-- With the last step of a `stop` behind its signal, no daemon is left. -/
theorem Sound.stop_deserted (sound : system.Sound) {terminal : Nat} {forked : Int}
    (before : (system.commands terminal).signalled = true)
    (after : ((system.cli terminal forked).commands terminal).signalled = false)
    : (system.cli terminal forked).Deserted := by
  have fits := sound.fits terminal
  revert after
  unfold System.cli
  split
  case h_1 pc => simp [pc, Pc.signalled] at before
  case h_2 verdict pc =>
      rw [pc] at fits before
      cases verdict with
      | finish pid =>
          cases read : readPid system.pidFile with
          | none =>
              rintro - other active
              exact sound.unnamed read (fun third here =>
                (fits third (active_of here (by simp))).2 here) other active
          | some named => simp [command_same, Pc.signalled]
      | launch foreground => cases before
      | autostart => cases before
      | report => cases before
  case h_3 verdict pid pc =>
      rw [pc] at before
      rw [pc] at fits
      cases verdict with
      | finish signalled =>
          split
          case h_1 => simp [command_same, After.next, Pc.signalled]
          case h_2 => simp [command_same, Pc.signalled]
          case h_3 raised =>
              have left : system.Deserted := deserted_of_only fits.2 (by simp [raised])
              exact fun _ => left
      | launch foreground => cases before
      | autostart => cases before
      | report => cases before
  case h_4 verdict pc =>
      rw [pc] at fits
      exact fun _ => fits
  case h_5 verdict pc =>
      rw [pc] at fits
      exact fun _ => fits.1
  case h_6 pc => simp [pc, Pc.signalled] at before
  case h_7 pc => simp [pc, Pc.signalled] at before
  case h_8 pc => simp [pc, Pc.signalled] at before
  case h_9 pc => simp [pc, Pc.signalled] at before
  case h_10 pc => simp [pc, Pc.signalled] at before
  case h_11 pid pc =>
      rw [pc] at fits
      rintro -
      split
      case h_1 =>
          rintro other ⟨phase, found, working⟩
          by_cases same : other = pid
          · rw [same] at found
            cases (setProc_same pid none).symm.trans found
          · exact same (fits other (active_of ((setProc_other same _).symm.trans found) working))
      case h_2 gone =>
          have left : system.Deserted := deserted_of_only fits (by simp [gone])
          exact left
      case h_3 raised =>
          have left : system.Deserted := deserted_of_only fits (by simp [raised])
          exact left

/-- The steps of an uninterrupted `start` and of its daemon. -/
def startSteps (terminal : Nat) (foreground : Bool) (pid : Int) (turns : Nat) : List Action :=
  .command terminal (.start foreground) :: List.replicate turns (.cli terminal pid)
    ++ List.replicate 3 (.daemon pid)

/-- `os.kill` finds no process under the number in the pid file, if the file holds one. -/
def Vacant (system : System) : Prop :=
  ∀ stale, readPid system.pidFile = some stale → system.foreign stale = .missing

/-- A `start` that finds the number of another process in the pid file, or one that no process can
have, and does not launch.
-/
structure Refused (system : System) (terminal : Nat) (foreground : Bool) (stale : Int)
    : Prop where
  empty : ∀ pid, system.procs pid = none
  read : readPid system.pidFile = some stale
  found : system.foreign stale ≠ .missing
  turn
    : system.commands terminal = .idle
      ∨ system.commands terminal = .probe (.launch foreground)
      ∨ system.commands terminal = .ask (.launch foreground) stale

theorem Refused.cli {terminal : Nat} {foreground : Bool} {stale : Int}
    (refused : system.Refused terminal foreground stale) (forked : Int)
    : (system.cli terminal forked).Refused terminal foreground stale := by
  have self (pc : Pc) : (system.setCommand terminal pc).commands terminal = pc :=
    command_same terminal pc
  rcases refused.turn with idle | probing | asking
  · rw [System.cli, idle]
    exact refused
  · rw [System.cli, probing]
    dsimp only
    rw [refused.read]
    exact ⟨refused.empty, refused.read, refused.found, .inr (.inr (self _))⟩
  · have answer : system.sent stale = system.foreign stale := by
      rw [sent, refused.empty]
      rfl
    rw [System.cli, asking]
    dsimp only
    rw [answer]
    refine ⟨refused.empty, refused.read, refused.found, .inl ?_⟩
    rw [self]
    cases found : system.foreign stale with
    | delivered => rfl
    | missing => exact absurd found refused.found
    | raised => rfl

theorem Refused.daemon {terminal : Nat} {foreground : Bool} {stale : Int}
    (refused : system.Refused terminal foreground stale) (pid : Int)
    : (system.daemon pid).Refused terminal foreground stale := by
  rw [System.daemon, refused.empty pid]
  exact refused

theorem Refused.foldl {terminal : Nat} {foreground : Bool} {stale : Int} {actions : List Action}
    (refused : system.Refused terminal foreground stale)
    (only
      : ∀ action ∈ actions,
          (∃ forked, action = .cli terminal forked) ∨ ∃ pid, action = .daemon pid)
    : (actions.foldl step system).Refused terminal foreground stale := by
  induction actions generalizing system with
  | nil => exact refused
  | cons action rest ih =>
      refine ih ?_ (fun later member => only later (List.mem_cons_of_mem _ member))
      rcases only action List.mem_cons_self with ⟨forked, rfl⟩ | ⟨pid, rfl⟩
      · exact refused.cli forked
      · exact refused.daemon pid

/-- Such a `start` leaves no process behind, however long it runs. -/
theorem refused_startSteps {terminal : Nat} {foreground : Bool} {stale : Int}
    (empty : ∀ pid, system.procs pid = none) (read : readPid system.pidFile = some stale)
    (found : system.foreign stale ≠ .missing) (pid : Int) (turns : Nat)
    : ((startSteps terminal foreground pid turns).foldl step system).Refused terminal foreground
        stale := by
  have first : (system.step (.command terminal (.start foreground))).Refused terminal foreground
      stale :=
    ⟨empty, read, found, .inr (.inl (command_same terminal _))⟩
  refine first.foldl (fun action member => ?_)
  rcases List.mem_append.mp member with command | daemon
  · exact .inl ⟨pid, List.eq_of_mem_replicate command⟩
  · exact .inr ⟨pid, List.eq_of_mem_replicate daemon⟩

/-- Where no process is left, `start` brings a daemon to serve, whatever else the files hold. -/
theorem start_serves (vacant : system.Vacant) (empty : ∀ pid, system.procs pid = none)
    (resting : ∀ terminal, system.commands terminal = .idle) (terminal : Nat) (foreground : Bool)
    {pid : Int} (positive : 0 < pid)
    : ∃ turns,
        Along step Orderly system (startSteps terminal foreground pid turns)
        ∧ ((startSteps terminal foreground pid turns).foldl step system).procs pid
          = some .serving := by
  cases read : readPid system.pidFile with
  | none =>
      refine ⟨3, ?_⟩
      simp [startSteps, List.replicate, Along, step, Orderly, cli, daemon, setCommand, setProc,
        Task.first, read, After.next, positive, empty, resting]
  | some stale =>
      refine ⟨6, ?_⟩
      simp [startSteps, List.replicate, Along, step, Orderly, cli, daemon, setCommand, setProc,
        Task.first, read, After.next, positive, sent, empty, resting, vacant stale read]

/-- In every run, a `stop` that has signalled a process ends with no daemon left. Once all daemons
are gone, crashed ones included, a `start` that is not interrupted serves again exactly if `os.kill`
finds no process under the number that the pid file may still hold.
-/
theorem run_stop_start {pidFile : Option (List Char)} {socket : Option Int}
    {foreign : Int → Sent} {actions : List Action}
    (run : Along step Orderly (initial pidFile socket foreign) actions)
    : let system := actions.foldl step (initial pidFile socket foreign)
      (∀ terminal forked,
        (system.commands terminal).signalled = true
        → ((system.cli terminal forked).commands terminal).signalled = false
        → (system.cli terminal forked).Deserted)
      ∧ ∀ terminal foreground pid,
        0 < pid
        → (∀ other, system.procs other = none)
        → (∀ other, system.commands other = .idle)
        → ((∃ turns,
              let after := (startSteps terminal foreground pid turns).foldl step system
              after.Intact ∧ after.procs pid = some .serving)
            ↔ system.Vacant) := by
  intro system
  refine ⟨fun terminal forked => (run_sound run).stop_deserted, ?_⟩
  intro terminal foreground pid positive empty resting
  constructor
  · rintro ⟨turns, -, serves⟩ stale read
    by_contra found
    rw [(refused_startSteps empty read found pid turns).empty] at serves
    cases serves
  · intro vacant
    obtain ⟨turns, orderly, serves⟩ :=
      start_serves vacant empty resting terminal foreground positive
    have whole := run_intact ((along_append step).mpr ⟨run, orderly⟩)
    rw [List.foldl_append] at whole
    exact ⟨turns, whole, serves⟩

/-- The daemon of the first `start` is slow to leave, the `stop` kills it, and its files stay. -/
def slowStop : List Action :=
  [.command 0 (.start true), .cli 0 88, .cli 0 88, .cli 0 88, .daemon 88, .daemon 88, .daemon 88,
    .command 1 .stop, .cli 1 99, .cli 1 99, .cli 1 99, .cli 1 99]

/-- A `start` serves behind it, until another process gets the id of the killed daemon. -/
theorem slowStop_stops
    : let slow := slowStop.foldl step (initial none none (fun _ => .missing))
      let stopped := slow.cli 1 99
      let reused := stopped.step (.elsewhere 88 .delivered)
      slow.commands 1 = .kill 88
      ∧ stopped.Deserted
      ∧ (∃ turns,
          let after := (startSteps 0 false 99 turns).foldl step stopped
          after.Intact ∧ after.procs 99 = some .serving)
      ∧ ¬ ∃ turns,
          let after := (startSteps 0 false 99 turns).foldl step reused
          after.Intact ∧ after.procs 99 = some .serving := by
  have own : readPid (some (str 88)) = some 88 := readPid_str (by decide)
  have missing : readPid none = none := rfl
  have run : Along step Orderly (initial none none (fun _ => .missing)) slowStop := by
    simp [slowStop, Along, step, Orderly, cli, daemon, sigterm, setCommand, setProc, Task.first,
      initial, own, missing, After.next, sent, Function.update, Phase.terminated]
  have slow : slowStop.foldl step (initial none none (fun _ => .missing))
      = ⟨some (str 88), some 88, Function.update (fun _ => none) 88 (some .leaving),
          Function.update (fun _ => .idle) 1 (.kill 88), fun _ => .missing⟩ := by
    simp [slowStop, step, cli, daemon, sigterm, setCommand, setProc, Task.first, initial, own,
      missing, After.next, sent, Function.update, Phase.terminated]
  have stopped : (slowStop.foldl step (initial none none (fun _ => .missing))).cli 1 99
      = initial (some (str 88)) (some 88) (fun _ => .missing) := by
    rw [slow]
    simp [cli, sent, setProc, setCommand, initial]
  have again (foreign : Int → Sent) :=
    (@run_stop_start (some (str 88)) (some 88) foreign [] trivial).2 0 false 99 (by decide)
      (fun _ => rfl) (fun _ => rfl)
  refine ⟨by rw [slow]; rfl, ?_, ?_, ?_⟩
  · refine (run_stop_start run).1 1 99 (by rw [slow]; rfl) ?_
    rw [stopped]
    rfl
  · rw [stopped]
    exact (again _).mpr (fun stale read => rfl)
  · rw [stopped]
    intro serves
    have vacant : Function.update (fun _ => Sent.missing) 88 .delivered 88 = .missing :=
      (again _).mp serves 88 own
    rw [Function.update_self] at vacant
    cases vacant

end System
end Kumf.Daemon.Lifecycle
