import Kumf.Daemon.LookupReplies
import Kumf.Daemon.QueryRuns
import Kumf.Interc.Startup

/-! What a query means for the process that made it: with a profile saved for its executable it
starts with the rules of that profile on the nodes of the daemon, and without one it is passive.
-/

namespace Kumf.Daemon.Queries

open Kumf.Library PyText
open Kumf.Interc (applyReply kumfInit loadRules)

/-- The profiles saved in a run. -/
def saves (actions : List Action) : List SaveCall :=
  actions.filterMap (fun action => match action with | .save call => some call | _ => none)

section
variable {File : Type} {host : Host File} {hash : List Char → List Char}
  {json : Reply → List Char}

-----------------------------------------------------------------------------------------
-- The parts of the system that a run changes
-----------------------------------------------------------------------------------------

theorem handleMessage_topology {links : Links File} {now msg : List Char}
    {daemon after : KumfDaemon} {reply : Reply}
    (handled : handleMessage host hash links now daemon msg = some (after, reply))
    : after.topology = daemon.topology := by
  unfold handleMessage at handled
  dsimp only at handled
  split_ifs at handled
  case pos =>
      obtain ⟨pid, -, rest⟩ := Option.bind_eq_some_iff.mp handled
      obtain ⟨count, -, rest⟩ := Option.bind_eq_some_iff.mp rest
      cases Option.some.inj rest
      rfl
  case pos =>
      obtain ⟨pid, -, rest⟩ := Option.bind_eq_some_iff.mp handled
      cases Option.some.inj rest
      rfl
  all_goals
    cases Option.some.inj handled
    rfl

variable (host hash json) in
theorem handle_frame (system : System File) (now : List Char)
    : (system.handle host hash json now).links = system.links
      ∧ (system.handle host hash json now).daemon.topology = system.daemon.topology := by
  unfold System.handle
  split
  case h_1 => exact ⟨rfl, rfl⟩
  case h_2 =>
      dsimp only
      split
      case h_1 => exact ⟨rfl, rfl⟩
      case h_2 handled =>
          split
          case h_1 => exact ⟨rfl, handleMessage_topology handled⟩
          case h_2 => exact ⟨rfl, handleMessage_topology handled⟩

variable (host hash json) in
/-- A run leaves the profiles that it saves, and the topology. -/
theorem run_frame (actions : List Action) (system : System File)
    : (actions.foldl (System.step host hash json) system).links
        = (saves actions).foldl (savedLinks host hash) system.links
      ∧ (actions.foldl (System.step host hash json) system).daemon.topology
        = system.daemon.topology := by
  induction actions generalizing system with
  | nil => exact ⟨rfl, rfl⟩
  | cons action rest ih =>
      obtain ⟨links, topology⟩ := ih (system.step host hash json action)
      rw [List.foldl_cons, links, topology]
      cases action with
      | ask pid exe sent => exact ⟨rfl, rfl⟩
      | post datagram => exact ⟨rfl, rfl⟩
      | handle now =>
          obtain ⟨sameLinks, sameTopology⟩ := handle_frame host hash json system now
          simp only [System.step]
          rw [sameLinks, sameTopology]
          exact ⟨rfl, rfl⟩
      | receive pid => exact ⟨rfl, rfl⟩
      | timeout pid => exact ⟨rfl, rfl⟩
      | save call => exact ⟨rfl, rfl⟩

/-- Profiles that are stored, none of another executable under the hash of this one. -/
structure SavedFor {File : Type} (host : Host File) (hash : List Char → List Char) (exe : Path)
    (calls : List SaveCall)
    : Prop extends AllStored host calls where
  distinct : ∀ call ∈ calls, ∀ other ∈ call.exeBytes, hash exe = hash other → exe = other

theorem SavedFor.subset {exe : Path} {calls part : List SaveCall}
    (saved : SavedFor host hash exe calls) (inside : part ⊆ calls)
    : SavedFor host hash exe part where
  toAllStored := saved.toAllStored.subset inside
  distinct call member := saved.distinct call (inside member)

end

-----------------------------------------------------------------------------------------
-- The start of the process
-----------------------------------------------------------------------------------------

theorem applyReply_noconfig (stale : List Char) (env : Interc.KumfEnv)
    : applyReply stale env (utf8 "NOCONFIG".toList) = none := by
  have ascii : Ascii "NOCONFIG".toList := by simp [Ascii]
  have same : strncmpEq ("NOCONFIG".toList ++ stale.drop 8) "NOCONFIG".toList 8 = true := by
    simp [strncmpEq, cString, nul]
  rw [utf8_ascii ascii]
  unfold applyReply
  exact if_pos (Or.inr same)

/-- A node list that fits its buffer is decoded with the path. -/
theorem applyReply_found (stale : List Char) {nodes : List Int} {lookupPath : Path}
    (present : lookupPath ≠ []) (plain : nul ∉ lookupPath)
    (fits : (utf8 (configLine nodes lookupPath)).length ≤ 1023)
    (nodesFit : (nodesText nodes).length < 64)
    : applyReply stale ⟨none, none⟩ (utf8 (configLine nodes lookupPath))
      = some {
        nodes := if nodes = [] then none else some (nodesText nodes)
        conf := some (utf8 lookupPath) } := by
  have letters {c : Char} (member : c ∈ nodesText nodes) : c ≠ ':' ∧ c ≠ nul := by
    rcases mem_nodesText member with digit | rfl | rfl
    · constructor <;> (rintro rfl; exact absurd digit (by decide))
    · decide
    · decide
  have bytes : utf8 lookupPath ≠ [] := fun empty => present (utf8_injective (empty.trans rfl))
  rw [utf8_configLine] at fits ⊢
  rw [Interc.applyReply_config (fun member => (letters member).1 rfl)
    (fun member => (letters member).2 rfl)
    (fun member => plain (mem_of_mem_utf8 (by decide) member))
    bytes fits]
  by_cases empty : nodes = []
  · simp [empty, nodesText]
  · have positive : 0 < (nodesText nodes).length :=
      List.length_pos_iff.mpr (nodesText_ne_nil empty)
    simp [empty, positive, nodesFit]

/-- A question about an executable, and an answer to it, that fit the buffers of the library. -/
structure Carried {File : Type} (host : Host File) (hash : List Char → List Char)
    (nodes : List Int) (exe : Path)
    : Prop where
  short : exe.length ≤ 255
  plain : nul ∉ host.inStateDir (lookupConf (hash exe))
  fits
    : (utf8 (configLine nodes (host.inStateDir (lookupConf (hash exe))))).length ≤ 1023
  nodesFit : (nodesText nodes).length < 64

/-- A process without variables of its own takes an answer, and finds a file under the name that
the daemon has for its executable.
-/
structure Takes (host : Host (List Char)) (hash : List Char → List Char) (exe : Path)
    (reply : List Char) (file : Option (List Char)) (process : Interc.Host)
    : Prop where
  unset : ¬ process.environment.Explicit
  answer : ∃ stale, process.answer = some (stale, reply)
  file : process.files (utf8 (host.inStateDir (lookupConf (hash exe)))) = file

theorem Takes.settings {host : Host (List Char)} {hash : List Char → List Char} {exe : Path}
    {reply : List Char} {file : Option (List Char)} {process : Interc.Host}
    (takes : Takes host hash exe reply file process)
    : ∃ stale, process.settings
      = (applyReply stale ⟨none, none⟩ reply).map (fun env =>
          { process.environment with nodes := env.nodes, conf := env.conf }) := by
  obtain ⟨stale, answer⟩ := takes.answer
  have noNodes : process.environment.nodes = none :=
    not_not.mp (fun set => takes.unset (.inr (.inl set)))
  have noConf : process.environment.conf = none :=
    not_not.mp (fun set => takes.unset (.inr (.inr set)))
  refine ⟨stale, ?_⟩
  rw [Interc.Host.settings, if_neg takes.unset, Interc.queryDaemonForConfig, answer, noNodes,
    noConf]
  dsimp only
  cases applyReply stale ⟨none, none⟩ reply with
  | none => rfl
  | some env => rfl

/-- A process that was told of no profile is passive. -/
theorem Takes.passive {host : Host (List Char)} {hash : List Char → List Char} {exe : Path}
    {file : Option (List Char)} {process : Interc.Host}
    (takes : Takes host hash exe (utf8 "NOCONFIG".toList) file process) (thread : Nat)
    : (kumfInit process thread).lib.mode = .passive := by
  obtain ⟨stale, settings⟩ := takes.settings
  rw [applyReply_noconfig, Option.map_none] at settings
  simp [kumfInit, settings]

/-- A process that was told of a profile uses its name and the nodes. -/
theorem Takes.configured {host : Host (List Char)} {hash : List Char → List Char} {exe : Path}
    {nodes : List Int} (carried : Carried host hash nodes exe) {file : Option (List Char)}
    {process : Interc.Host}
    (takes : Takes host hash exe
      (utf8 (configLine nodes (host.inStateDir (lookupConf (hash exe))))) file process)
    : process.settings = some { process.environment with
        nodes := if nodes = [] then none else some (nodesText nodes)
        conf := some (utf8 (host.inStateDir (lookupConf (hash exe)))) } := by
  obtain ⟨stale, settings⟩ := takes.settings
  have present : host.inStateDir (lookupConf (hash exe)) ≠ [] := by simp [Host.inStateDir]
  rw [settings, applyReply_found stale present carried.plain carried.fits carried.nodesFit]
  rfl

/-- What the process that made a query starts with: the configuration that was found for it, with
the rules of the latest profile of its executable, or nothing.
-/
def StartsWith (host : Host (List Char)) (hash : List Char → List Char) (nodes : List Int)
    (exe : Path) (found latest : Option SaveCall) (process : Interc.Host) (thread : Nat)
    : Prop :=
  match found, latest with
  | none, _ => (kumfInit process thread).lib.mode = .passive
  | some _, none => False
  | some _, some call =>
      process.settings = some { process.environment with
        nodes := if nodes = [] then none else some (nodesText nodes)
        conf := some (utf8 (host.inStateDir (lookupConf (hash exe)))) }
      ∧ (kumfInit process thread).lib.rules
        = loadRules process.staleLine (host.passed call) .initial

/-- A profile with one rule. -/
def ruleHost : Host (List Char) where
  stateDir := "/tmp/kumf_daemon".toList
  file := fun path =>
    if path = "/home/user/out/kumf.conf".toList then
      some "size_range:8192-65536 = 1\n".toList
    else
      none

/-- The program on a machine with two nodes, without variables of its own. -/
def appProcess : Interc.Host where
  environment := {}
  files := fun path =>
    if path = "/tmp/kumf_daemon/lookup_26d35b61.conf".toList then
      some "size_range:8192-65536 = 1\n".toList
    else
      none
  answer :=
    some ([], utf8 (configLine [0, 1] "/tmp/kumf_daemon/lookup_26d35b61.conf".toList))
  topology :=
    { available := 0
      maxNode := 1
      nodeSize := fun n => if n = 0 ∨ n = 1 then 1024 else -1
      distance := fun i j => if i = j then 10 else 12
      nodeCpus := fun _ => 4 }
  staleLine := []

end Kumf.Daemon.Queries
