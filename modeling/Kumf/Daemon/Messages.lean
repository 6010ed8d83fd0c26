import Kumf.Daemon.StateDir
import Kumf.Library.Dict
import Kumf.Library.PyInt

/-! `_handle_message`: what the daemon answers to a message, and what it notes about the
processes that register.
-/

namespace Kumf.Daemon

open Kumf.Library PyText

/-- What `detect_numa_topology` found, as far as messages report it. -/
structure Topology where
  nodes : List Int
  sockets : List (List Nat)
  deriving DecidableEq, Repr

/-- An entry of `registered_procs`. -/
structure ProcInfo where
  pid : Int
  nodeCount : Int
  registeredAt : List Char
  deriving DecidableEq, Repr

/-- A string dictionary, such as an environment. -/
abbrev Env := Dict (List Char) (List Char)

structure KumfDaemon where
  pid : Nat
  socketPath : Path
  intercSo : Path
  topology : Topology
  optimalConfig : Env
  registeredProcs : Dict Int ProcInfo
  profiles : Nat

/-- The answer to `STATUS`, before it is turned into JSON. -/
structure Status where
  daemonPid : Nat
  nodes : Nat
  sockets : Nat
  optimalConfig : Env
  registeredProcesses : Nat
  profiles : Nat

/-- An answer: plain text, or a value that is sent as JSON. -/
inductive Reply where
  | text (line : List Char)
  | env (env : Env)
  | status (status : Status)

/-- `env[key] = value` -/
def Env.set (env : Env) (key value : List Char) : Env := env.upsert key (fun _ => value)

/-- `{**left, **right}` -/
def Env.merge (left right : Env) : Env :=
  right.entries.foldl (fun env entry => env.set entry.1 entry.2) left

/-- `registered_procs.pop(pid, None)` -/
def popProc (procs : Dict Int ProcInfo) (pid : Int) : Dict Int ProcInfo where
  entries := procs.entries.filter (fun entry => entry.1 ≠ pid)
  nodup := procs.nodup.sublist (List.filter_sublist.map Prod.fst)

/-- `int(parts[i]) if len(parts) > i else 0`; `none` is a `ValueError`. -/
def intPart (parts : List (List Char)) (i : Nat) : Option Int :=
  match parts[i]? with
  | some part => parseInt 10 part
  | none => some 0

section
variable {File : Type} (host : Host File) (hash : List Char → List Char) (links : Links File)

/-- The branch for `WRAP`. -/
def wrapReply (daemon : KumfDaemon) (parts : List (List Char)) : Env :=
  let env : Env := Env.merge (Env.set .empty "LD_PRELOAD".toList daemon.intercSo)
    daemon.optimalConfig
  let env :=
    match parts[1]? with
    | some command =>
        let profilePath := profileConf (hash (utf8 command))
        if host.finds links profilePath then
          env.set "KUMF_CONF".toList (host.inStateDir profilePath)
        else
          env
    | none => env
  env.set "KUMF_DAEMON".toList daemon.socketPath

/-- `",".join(str(n["id"]) for n in nodes)` -/
def nodesText (nodes : List Int) : List Char := [','].intercalate (nodes.map str)

/-- `get_optimal_config` of a detected topology, which recommends all nodes or none. -/
def getOptimalConfig (topology : Topology) : Env :=
  Env.set .empty "KUMF_NODES".toList (nodesText topology.nodes)

/-- `f"CONFIG:{nodes}:{lookup_path}"` -/
def configLine (nodes : List Int) (lookupPath : Path) : List Char :=
  "CONFIG:".toList ++ nodesText nodes ++ ':' :: lookupPath

/-- The branch for `LOOKUP`. -/
def lookupReply (daemon : KumfDaemon) (parts : List (List Char)) : List Char :=
  let exePath := parts[2]?.getD []
  let lookupPath := lookupConf (hash (utf8 exePath))
  if host.finds links lookupPath then
    configLine daemon.topology.nodes (host.inStateDir lookupPath)
  else
    "NOCONFIG".toList

/-- `_handle_message` at a given time; `none` is a `ValueError` of `int`. -/
def handleMessage (now : List Char) (daemon : KumfDaemon) (msg : List Char)
    : Option (KumfDaemon × Reply) :=
  let parts := splitLimit ':' 2 msg
  let cmd := parts.head?.getD []
  if cmd = "REG".toList then do
    let pid ← intPart parts 1
    let nodeCount ← intPart parts 2
    let info := { pid, nodeCount, registeredAt := now : ProcInfo }
    return ({ daemon with
      registeredProcs := daemon.registeredProcs.upsert pid (fun _ => info) },
      .text "OK:REG".toList)
  else if cmd = "DEREG".toList then do
    let pid ← intPart parts 1
    return ({ daemon with registeredProcs := popProc daemon.registeredProcs pid },
      .text "OK:DEREG".toList)
  else if cmd = "STATUS".toList then
    some (daemon, .status {
      daemonPid := daemon.pid
      nodes := daemon.topology.nodes.length
      sockets := daemon.topology.sockets.length
      optimalConfig := daemon.optimalConfig
      registeredProcesses := daemon.registeredProcs.entries.length
      profiles := daemon.profiles })
  else if cmd = "CONFIG".toList then
    some (daemon, .env daemon.optimalConfig)
  else if cmd = "WRAP".toList then
    some (daemon, .env (wrapReply host hash links daemon parts))
  else if cmd = "LOOKUP".toList then
    some (daemon, .text (lookupReply host hash links daemon parts))
  else if cmd = "PING".toList then
    some (daemon, .text "PONG".toList)
  else
    some (daemon, .text "ERR:UNKNOWN".toList)

end

/-- A datagram as the daemon receives it: 4096 bytes at most, decoded with replacements. -/
def received (datagram : List Char) : List Char := decodeUtf8 (datagram.take 4096)

end Kumf.Daemon
