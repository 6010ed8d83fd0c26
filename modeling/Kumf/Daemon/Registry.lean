import Kumf.Daemon.Wrapping
import Kumf.Interc.DaemonQuery

/-! Processes that register with daemons when they start and leave when they exit. Messages of
one process arrive in order, and those of different processes in any order.
-/

namespace Kumf.Daemon

open Kumf.Library PyText
open Kumf.Interc (kumfSockPath sunPath regMessage deregMessage regMessage_eq deregMessage_eq)

/-- A process with the library in an active mode, and its `KUMF_DAEMON`. -/
structure Proc where
  pid : Nat
  socket : Path
  numAffinityNodes : Nat
  pid_small : pid < 2 ^ 31
  nodes_small : numAffinityNodes < 2 ^ 31
  socket_fits : socket.length ≤ 107

/-- The messages of `connect_daemon` and `disconnect_daemon`. -/
inductive Notice where
  | reg
  | dereg
  deriving DecidableEq, Repr

namespace Notice

def text (proc : Proc) : Notice → List Char
  | .reg => regMessage proc.pid proc.numAffinityNodes
  | .dereg => deregMessage proc.pid

/-- The socket that a message is sent to. -/
def dest (proc : Proc) : Notice → Path
  | .reg => sunPath proc.socket
  | .dereg => sunPath kumfSockPath

/-- Whether the process is registered once the message is handled. -/
def registers : Notice → Bool
  | .reg => true
  | .dereg => false

end Notice

/-- A process that was started, with its messages on the way, first one in front. -/
structure Instance where
  proc : Proc
  live : Bool
  outbox : List Notice

/-- The destructor sends its message. -/
def Instance.exit (inst : Instance) : Instance :=
  if inst.live then { inst with live := false, outbox := inst.outbox ++ [.dereg] } else inst

def Instance.sent (inst : Instance) : Instance := { inst with outbox := inst.outbox.tail }

/-- A daemon for every socket, and the processes in the order of their starts. -/
structure System where
  daemons : Path → KumfDaemon
  procs : List Instance

inductive Action where
  | start (proc : Proc)
  | exit (index : Nat)
  | deliver (index : Nat) (now : List Char)

section
variable {File : Type} (host : Host File) (hash : List Char → List Char) (links : Links File)

/-- One round of the main loop of a daemon. An exception leaves it as it is. -/
def receive (now : List Char) (daemon : KumfDaemon) (datagram : List Char) : KumfDaemon :=
  match handleMessage host hash links now daemon (received datagram) with
  | some (daemon, _) => daemon
  | none => daemon

namespace System

/-- The first message of a process reaches its daemon. -/
def deliver (system : System) (index : Nat) (now : List Char) : System :=
  match system.procs[index]? with
  | none => system
  | some inst =>
      match inst.outbox with
      | [] => system
      | notice :: _ =>
          let dest := notice.dest inst.proc
          { daemons := Function.update system.daemons dest
              (receive host hash links now (system.daemons dest) (notice.text inst.proc))
            procs := system.procs.modify index Instance.sent }

def step (system : System) : Action → System
  | .start proc => { system with procs := system.procs ++ [⟨proc, true, [.reg]⟩] }
  | .exit index => { system with procs := system.procs.modify index Instance.exit }
  | .deliver index now => deliver host hash links system index now

/-- Daemons that know of no process yet. -/
def initial (daemons : Path → KumfDaemon) : System := ⟨daemons, []⟩

end System

end

-----------------------------------------------------------------------------------------
-- What a daemon makes of the two messages
-----------------------------------------------------------------------------------------

/-- Whether a process id is in `registered_procs`. -/
def KumfDaemon.registers (daemon : KumfDaemon) (pid : Int) : Bool :=
  decide (pid ∈ daemon.registeredProcs.keys)

theorem mem_keys_upsert (procs : Dict Int ProcInfo) (pid other : Int)
    (change : Option ProcInfo → ProcInfo)
    : other ∈ (procs.upsert pid change).keys ↔ other = pid ∨ other ∈ procs.keys := by
  have keys : (procs.upsert pid change).keys
      = if pid ∈ procs.keys then procs.keys else procs.keys ++ [pid] :=
    Dict.keys_put pid change procs.entries
  rw [keys]
  split
  case isTrue member =>
      refine ⟨.inr, fun either => either.elim (fun same => ?_) id⟩
      rw [same]
      exact member
  case isFalse =>
      rw [List.mem_append, List.mem_singleton]
      exact Or.comm

theorem mem_keys_popProc (procs : Dict Int ProcInfo) (pid other : Int)
    : other ∈ (popProc procs pid).keys ↔ other ≠ pid ∧ other ∈ procs.keys := by
  simp only [popProc, Dict.keys, List.mem_map, List.mem_filter, decide_eq_true_eq]
  constructor
  · rintro ⟨entry, ⟨member, apart⟩, rfl⟩
    exact ⟨apart, entry, member, rfl⟩
  · rintro ⟨apart, entry, member, rfl⟩
    exact ⟨entry, ⟨member, apart⟩, rfl⟩

theorem received_ascii {text : List Char} (ascii : Ascii text) (fits : text.length ≤ 4096)
    : received text = text := by
  have bytes : utf8 text = text := utf8_ascii ascii
  have whole : received (utf8 text) = text := received_utf8 (by rw [bytes]; exact fits)
  rw [bytes] at whole
  exact whole

theorem received_text (proc : Proc) (notice : Notice)
    : received (notice.text proc) = notice.text proc := by
  cases notice with
  | reg =>
      refine received_ascii ?_ ((List.length_take_le _ _).trans (by omega))
      rw [Notice.text, regMessage_eq proc.pid_small proc.nodes_small]
      have word : Ascii "REG:".toList := by simp [Ascii]
      exact (word.append (ascii_toDigits _)).append
        (List.forall_mem_cons.mpr ⟨by decide, ascii_toDigits _⟩)
  | dereg =>
      refine received_ascii ?_ ((List.length_take_le _ _).trans (by omega))
      rw [Notice.text, deregMessage_eq proc.pid_small]
      have word : Ascii "DEREG:".toList := by simp [Ascii]
      exact word.append (ascii_toDigits _)

theorem reg_parts (pid count : Nat)
    : splitLimit ':' 2 ("REG:".toList ++ Nat.toDigits 10 pid ++ ':' :: Nat.toDigits 10 count)
      = ["REG".toList, Nat.toDigits 10 pid, Nat.toDigits 10 count] := by
  have word : ':' ∉ "REG".toList := by decide
  have front := splitLimit_cons word 1 (Nat.toDigits 10 pid ++ ':' :: Nat.toDigits 10 count)
  rw [splitLimit_cons (colon_toDigits pid) 0] at front
  exact front

theorem dereg_parts (pid : Nat)
    : splitLimit ':' 2 ("DEREG:".toList ++ Nat.toDigits 10 pid)
      = ["DEREG".toList, Nat.toDigits 10 pid] := by
  have word : ':' ∉ "DEREG".toList := by decide
  have front := splitLimit_cons word 1 (Nat.toDigits 10 pid)
  rw [splitLimit_one (colon_toDigits pid) 1] at front
  exact front

section
variable {File : Type} (host : Host File) (hash : List Char → List Char) (links : Links File)
  (now : List Char) (daemon : KumfDaemon)

theorem handleMessage_reg (pid count : Nat)
    : handleMessage host hash links now daemon
        ("REG:".toList ++ Nat.toDigits 10 pid ++ ':' :: Nat.toDigits 10 count)
      = some ({ daemon with
          registeredProcs := daemon.registeredProcs.upsert pid (fun _ => ⟨pid, count, now⟩) },
          .text "OK:REG".toList) := by
  unfold handleMessage
  rw [reg_parts]
  simp [intPart, parseInt_toDigits]

theorem handleMessage_dereg (pid : Nat)
    : handleMessage host hash links now daemon ("DEREG:".toList ++ Nat.toDigits 10 pid)
      = some ({ daemon with registeredProcs := popProc daemon.registeredProcs pid },
          .text "OK:DEREG".toList) := by
  unfold handleMessage
  rw [dereg_parts]
  simp [intPart, parseInt_toDigits]

/-- A notice sets the entry of its process, and no other one. -/
theorem registers_receive (proc : Proc) (notice : Notice) (pid : Int)
    : (receive host hash links now daemon (notice.text proc)).registers pid
      = if (proc.pid : Int) = pid then notice.registers else daemon.registers pid := by
  rw [receive, received_text]
  cases notice with
  | reg =>
      rw [Notice.text, regMessage_eq proc.pid_small proc.nodes_small, handleMessage_reg]
      have member := mem_keys_upsert daemon.registeredProcs proc.pid pid
        (fun _ => ⟨proc.pid, proc.numAffinityNodes, now⟩)
      dsimp only
      split
      case isTrue same => exact decide_eq_true (member.mpr (.inl same.symm))
      case isFalse apart =>
          refine decide_eq_decide.mpr (member.trans ⟨fun either => ?_, .inr⟩)
          exact either.resolve_left (fun same => apart same.symm)
  | dereg =>
      rw [Notice.text, deregMessage_eq proc.pid_small, handleMessage_dereg]
      have member := mem_keys_popProc daemon.registeredProcs proc.pid pid
      dsimp only
      split
      case isTrue same => exact decide_eq_false (fun stays => (member.mp stays).1 same.symm)
      case isFalse apart =>
          refine decide_eq_decide.mpr (member.trans ⟨And.right, fun stays => ⟨?_, stays⟩⟩)
          exact fun same => apart same.symm

end

end Kumf.Daemon
