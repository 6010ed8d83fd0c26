import Kumf.Daemon.TransparentStart
import Kumf.Daemon.Wrapping
import Kumf.Interc.NodeList

/-! What `wrap` means for the program that it runs: its environment names the library and the
nodes, and the rules of a stored profile if the daemon knows one. The program asks for nothing.
-/

namespace Kumf.Daemon

open Kumf.Library PyText PyStr
open Kumf.Interc (kumfInit loadRules)

/-- How the question of `wrap` to the daemon ends: it is not asked, something raised, or its
answer was decoded.
-/
inductive Exchange where
  | notRunning
  | failed
  | answered (env : Env)

/-- The `env_overrides` of `wrap`, which has a topology and a configuration of its own. -/
def envOverrides (wrapper : KumfDaemon) : Exchange → Env
  | .answered env => env
  | .failed => Env.merge (Env.set .empty "LD_PRELOAD".toList wrapper.intercSo) wrapper.optimalConfig
  | .notRunning =>
      Env.set (Env.set .empty "LD_PRELOAD".toList wrapper.intercSo) "KUMF_NODES".toList
        (nodesText wrapper.topology.nodes)

/-- The environment in which `wrap` runs the command. That of `wrap` itself is taken in bytes:
Python decodes them without loss.
-/
def wrappedEnviron (environ overrides : Env) : Env :=
  let env : Env := Dict.overlay utf8 utf8 environ overrides.entries
  let existing := (environ.get? "LD_PRELOAD".toList).getD []
  if existing ≠ [] then
    env.set "LD_PRELOAD".toList
      (utf8 ((overrides.get? "LD_PRELOAD".toList).getD []) ++ ':' :: existing)
  else
    env

/-- The variables that the library reads. -/
def programVariables (environ : Env) : Interc.Environment where
  affinity := environ.get? "KUMF_AFFINITY".toList
  nodes := environ.get? "KUMF_NODES".toList
  conf := environ.get? "KUMF_CONF".toList
  policy := environ.get? "KUMF_POLICY".toList

/-- The last call that stores under the hash of a command. -/
def latestProfile (cmdHash : List Char) (calls : List SaveCall) : Option SaveCall :=
  (calls.filter (fun call => call.cmdHash = cmdHash)).getLast?

-----------------------------------------------------------------------------------------
-- The node list and back
-----------------------------------------------------------------------------------------

/-- A numeral with a sign denotes its value. -/
theorem denoted_signed (numeral : Numeral 10) (negative : Bool)
    : Interc.denoted ((if negative then ['-'] else []) ++ numeral.digits)
      = some (if negative then -(numeral.value : Int) else numeral.value) := by
  obtain ⟨first, rest, digits⟩ := List.exists_cons_of_ne_nil numeral.nonempty
  have ends : ((if negative then ['-'] else []) ++ numeral.digits).getLast?
      = numeral.digits.getLast? := by
    cases negative <;> simp [digits, List.getLast?_cons_cons]
  have front : ((if negative then ['-'] else []) ++ numeral.digits).dropWhile isCSpace
      = (if negative then ['-'] else []) ++ numeral.digits := by
    cases negative with
    | true => exact List.dropWhile_cons_of_neg (by decide)
    | false =>
        have leading := (numeral.leading []).1
        rwa [List.append_nil] at leading
  have back : ((if negative then ['-'] else []) ++ numeral.digits).rdropWhile isCSpace
      = (if negative then ['-'] else []) ++ numeral.digits := by
    apply List.rdropWhile_eq_self_iff.mpr
    intro nonempty space
    have last := (List.getLast?_eq_getLast_of_ne_nil nonempty).symm.trans ends
    have digit := numeral.valid _ (List.mem_of_getLast? last.symm)
    rw [(isDigitOf_ten_ne digit).1] at space
    cases space
  have sign : splitSign ((if negative then ['-'] else []) ++ numeral.digits)
      = (negative, numeral.digits) := by
    cases negative with
    | true => rfl
    | false =>
        have leading := (numeral.leading []).2
        rwa [List.append_nil] at leading
  have valid : numeral.digits.all (isDigitOf 10) = true := List.all_eq_true.mpr numeral.valid
  unfold Interc.denoted
  rw [front, back, sign]
  dsimp only
  rw [if_pos ⟨numeral.nonempty, valid⟩]
  rfl

/-- The text of a number denotes it. -/
theorem denoted_str (n : Int)
    : Interc.denoted (str n) = some n := by
  have read := denoted_signed (Numeral.dec n.natAbs) (decide (n < 0))
  rw [Numeral.value_dec] at read
  rw [str]
  by_cases negative : n < 0
  · have sign : -(n.natAbs : Int) = n := by omega
    rw [if_pos negative]
    simpa only [negative, decide_true, if_true, List.singleton_append, Numeral.dec, sign] using read
  · have sign : (n.natAbs : Int) = n := by omega
    rw [if_neg negative]
    simpa [negative, Numeral.dec, sign] using read

/-- `strtok` takes the text of a node list apart again. -/
theorem strtok_nodesText (nodes : List Int)
    : strtok ',' (nodesText nodes) = nodes.map str := by
  have plain : ∀ text ∈ nodes.map str, ',' ∉ text := by
    intro text member comma
    obtain ⟨n, -, rfl⟩ := List.mem_map.mp member
    rcases mem_str comma with digit | minus
    · exact absurd digit (by decide)
    · exact absurd minus (by decide)
  have solid : ∀ text ∈ nodes.map str, decide (text ≠ []) = true := by
    intro text member
    obtain ⟨n, -, rfl⟩ := List.mem_map.mp member
    exact decide_eq_true (str_ne_nil n)
  unfold strtok nodesText
  cases nodes with
  | nil => rfl
  | cons n rest =>
      rw [List.splitOn_intercalate ',' plain (List.cons_ne_nil _ _)]
      exact List.filter_eq_self.mpr solid

/-- The nodes that a topology accepts, as many as there is room for. -/
def usable (topology : Interc.Topology) (nodes : List Int) : List Int :=
  (nodes.filter (fun n => 0 ≤ topology.nodeSize n)).take Interc.maxNumaNodes

/-- The library collects the listed nodes that it finds. -/
theorem affinityNodes_nodesText {env : Interc.Environment} (topology : Interc.Topology)
    {nodes : List Int} (set : env.nodes = some (nodesText nodes))
    (small : ∀ n ∈ nodes, -2 ^ 31 ≤ n ∧ n < 2 ^ 31)
    : Interc.affinityNodes env topology = usable topology nodes := by
  have read : ∀ n ∈ nodes, atoi (str n) = n := by
    intro n member
    obtain ⟨low, high⟩ := small n member
    exact Interc.atoi_of_denoted (denoted_str n) low high
  have filtered : (nodes.map str).filter topology.takes
      = (nodes.filter (fun n => 0 ≤ topology.nodeSize n)).map str := by
    rw [List.filter_map]
    congr 1
    apply List.filter_congr
    intro n member
    simp only [Function.comp_apply, Interc.Topology.takes, read n member]
  have back : ((nodes.filter (fun n => 0 ≤ topology.nodeSize n)).map str).map atoi
      = nodes.filter (fun n => 0 ≤ topology.nodeSize n) := by
    rw [List.map_map]
    apply (List.map_congr_left ?_).trans (List.map_id _)
    intro n member
    exact read n (List.mem_of_mem_filter member)
  rw [Interc.affinityNodes, set]
  dsimp only
  rw [strtok_nodesText, Interc.namedNodes_eq topology _ (Nat.zero_le _), filtered, back]
  rfl

-----------------------------------------------------------------------------------------
-- The overrides
-----------------------------------------------------------------------------------------

/-- The names that `wrap` sets. -/
def wrapNames : List (List Char) :=
  ["LD_PRELOAD".toList, "KUMF_NODES".toList, "KUMF_CONF".toList, "KUMF_DAEMON".toList]

/-- What the overrides hold, whichever way they were found. -/
structure Overrides (env : Env) (intercSo : Path) (nodes : List Int) (conf socket : Option Path)
    : Prop where
  preload : env.get? "LD_PRELOAD".toList = some intercSo
  nodes : env.get? "KUMF_NODES".toList = some (nodesText nodes)
  conf : env.get? "KUMF_CONF".toList = conf
  socket : env.get? "KUMF_DAEMON".toList = socket
  others : ∀ key, key ∉ wrapNames → env.get? key = none

/-- The two variables that all ways have. -/
def preloadAndNodes (daemon : KumfDaemon) : Env :=
  Env.set (Env.set .empty "LD_PRELOAD".toList daemon.intercSo) "KUMF_NODES".toList
    (nodesText daemon.topology.nodes)

theorem preloadAndNodes_overrides (daemon : KumfDaemon)
    : Overrides (preloadAndNodes daemon) daemon.intercSo daemon.topology.nodes none none where
  preload := rfl
  nodes := rfl
  conf := rfl
  socket := rfl
  others key unknown := by
    simp only [wrapNames, List.mem_cons, not_or] at unknown
    rw [preloadAndNodes, Env.get?_set, if_neg (Ne.symm unknown.2.1), Env.get?_set,
      if_neg (Ne.symm unknown.1), Dict.get?_empty]

/-- Without an answer the overrides come from the topology of `wrap`. -/
theorem preload_merge {daemon : KumfDaemon}
    (config : daemon.optimalConfig = getOptimalConfig daemon.topology)
    : Env.merge (Env.set .empty "LD_PRELOAD".toList daemon.intercSo) daemon.optimalConfig
      = preloadAndNodes daemon := by
  rw [config]
  rfl

section
variable {env : Env} {intercSo : Path} {nodes : List Int} {conf socket : Option Path}

/-- The overrides with a configuration. -/
theorem Overrides.setConf (overrides : Overrides env intercSo nodes conf socket) (path : Path)
    : Overrides (env.set "KUMF_CONF".toList path) intercSo nodes (some path) socket where
  preload := (Env.get?_set env _ _ _).trans overrides.preload
  nodes := (Env.get?_set env _ _ _).trans overrides.nodes
  conf := Env.get?_set env _ _ _
  socket := (Env.get?_set env _ _ _).trans overrides.socket
  others key unknown := by
    rw [Env.get?_set, overrides.others key unknown]
    apply if_neg
    rintro rfl
    exact unknown (by decide)

/-- The overrides with the socket of the daemon. -/
theorem Overrides.setDaemon (overrides : Overrides env intercSo nodes conf socket) (path : Path)
    : Overrides (env.set "KUMF_DAEMON".toList path) intercSo nodes conf (some path) where
  preload := (Env.get?_set env _ _ _).trans overrides.preload
  nodes := (Env.get?_set env _ _ _).trans overrides.nodes
  conf := (Env.get?_set env _ _ _).trans overrides.conf
  socket := Env.get?_set env _ _ _
  others key unknown := by
    rw [Env.get?_set, overrides.others key unknown]
    apply if_neg
    rintro rfl
    exact unknown (by decide)

end

section
variable {File : Type} (host : Host File) (hash : List Char → List Char) (links : Links File)

/-- The answer of the daemon to a command. -/
theorem wrapReply_overrides {daemon : KumfDaemon}
    (config : daemon.optimalConfig = getOptimalConfig daemon.topology)
    {parts : List (List Char)} {command : List Char} (read : parts[1]? = some command)
    : Overrides (wrapReply host hash links daemon parts) daemon.intercSo daemon.topology.nodes
        (if host.finds links (profileConf (hash (utf8 command))) then
          some (host.inStateDir (profileConf (hash (utf8 command))))
        else
          none)
        (some daemon.socketPath) := by
  rw [wrapReply, read, preload_merge config]
  dsimp only
  apply Overrides.setDaemon
  split
  · exact (preloadAndNodes_overrides daemon).setConf _
  · exact preloadAndNodes_overrides daemon

end

-----------------------------------------------------------------------------------------
-- The environment of the program
-----------------------------------------------------------------------------------------

/-- The environment of a wrapped program against that of `wrap`. -/
structure RunsIn (environ after : Env) (intercSo : Path) (nodes : List Int)
    (conf socket : Option Path)
    : Prop where
  preload
    : after.get? "LD_PRELOAD".toList
      = some (
        if (environ.get? "LD_PRELOAD".toList).getD [] = [] then
          utf8 intercSo
        else
          utf8 intercSo ++ ':' :: (environ.get? "LD_PRELOAD".toList).getD [])
  nodes : after.get? "KUMF_NODES".toList = some (nodesText nodes)
  conf : after.get? "KUMF_CONF".toList = (conf.map utf8).or (environ.get? "KUMF_CONF".toList)
  socket
    : after.get? "KUMF_DAEMON".toList
      = (socket.map utf8).or (environ.get? "KUMF_DAEMON".toList)
  others : ∀ key, key ∉ wrapNames → after.get? key = environ.get? key

theorem utf8_wrapName {name : List Char} (known : name ∈ wrapNames)
    : utf8 name = name := by
  have ascii : ∀ name ∈ wrapNames, name.all (fun c => c.toNat ≤ 127) = true := by decide
  exact utf8_ascii (by simpa [Ascii] using ascii name known)

/-- An override comes before the variable of that name. -/
theorem get?_updated (environ overrides : Env) (name : List Char) (known : name ∈ wrapNames)
    : (Dict.overlay utf8 utf8 environ overrides.entries).get? name
      = ((overrides.get? name).map utf8).or (environ.get? name) := by
  have read : (Dict.overlay utf8 utf8 environ overrides.entries).get? (utf8 name) = _ :=
    Dict.get?_overlay utf8_injective environ overrides.nodup name
  rwa [utf8_wrapName known] at read

/-- What the program finds in its environment. -/
theorem wrappedEnviron_runsIn (environ : Env) {overrides : Env} {intercSo : Path}
    {nodes : List Int} {conf socket : Option Path}
    (given : Overrides overrides intercSo nodes conf socket)
    : RunsIn environ (wrappedEnviron environ overrides) intercSo nodes conf socket := by
  have preload := get?_updated environ overrides "LD_PRELOAD".toList (by decide)
  have nodesSet := get?_updated environ overrides "KUMF_NODES".toList (by decide)
  have confSet := get?_updated environ overrides "KUMF_CONF".toList (by decide)
  have socketSet := get?_updated environ overrides "KUMF_DAEMON".toList (by decide)
  rw [given.preload] at preload
  rw [given.nodes, Option.map_some, utf8_ascii (ascii_nodesText nodes)] at nodesSet
  rw [given.conf] at confSet
  rw [given.socket] at socketSet
  have rest (key : List Char) (unknown : key ∉ wrapNames)
      : (Dict.overlay utf8 utf8 environ overrides.entries).get? key = environ.get? key := by
    apply Dict.get?_overlay_other
    intro entry member same
    have known : entry.1 ∈ wrapNames := by
      by_contra stranger
      have absent := Dict.valuesAt_entries overrides entry.1
      rw [given.others entry.1 stranger] at absent
      have present : entry.2 ∈ Dict.valuesAt entry.1 overrides.entries :=
        List.mem_filterMap.mpr ⟨entry, member, if_pos rfl⟩
      rw [absent] at present
      exact List.not_mem_nil present
    rw [utf8_wrapName known] at same
    exact unknown (same ▸ known)
  unfold wrappedEnviron
  generalize Dict.overlay utf8 utf8 environ overrides.entries = updated
    at preload nodesSet confSet socketSet rest
  dsimp only
  split
  case isTrue existing =>
      constructor
      · rw [Env.get?_set, if_pos rfl, given.preload, if_neg existing]
        rfl
      · exact (Env.get?_set _ _ _ _).trans nodesSet
      · exact (Env.get?_set _ _ _ _).trans confSet
      · exact (Env.get?_set _ _ _ _).trans socketSet
      · intro key unknown
        rw [Env.get?_set, rest key unknown]
        apply if_neg
        rintro rfl
        exact unknown (by decide)
  case isFalse nothing =>
      constructor
      · rw [preload, if_pos (not_not.mp nothing)]
        rfl
      · exact nodesSet
      · exact confSet
      · exact socketSet
      · exact rest

-----------------------------------------------------------------------------------------
-- The start of the program
-----------------------------------------------------------------------------------------

/-- The start of a process whose variables are set. -/
structure Starts (process : Interc.Host) (thread : Nat) (nodes : List Int)
    (rules : Option (List Char)) : Prop where
  unasked : process.settings = some process.environment
  active : (kumfInit process thread).lib.mode ≠ .passive
  rules : (kumfInit process thread).lib.rules = loadRules process.staleLine rules .initial
  nodes
    : 0 ≤ process.topology.available
      → (kumfInit process thread).affinity.nodes = usable process.topology nodes

/-- Binding does not change the nodes. -/
theorem bindForMode_nodes (topology : Interc.Topology) (affinity : Interc.Affinity)
    : (Interc.bindForMode topology affinity).nodes = affinity.nodes := by
  unfold Interc.bindForMode
  split <;> rfl

/-- The nodes of the library are those that its variables list. -/
theorem initAffinity_nodes {topology : Interc.Topology} (numa : 0 ≤ topology.available)
    (env : Interc.Environment) (layer2Active : Bool)
    : (Interc.initAffinity env topology layer2Active {}).nodes
      = Interc.affinityNodes env topology := by
  unfold Interc.initAffinity
  rw [if_neg (by omega)]
  dsimp only
  split
  case isTrue empty => rfl
  case isFalse =>
      split
      case isTrue => rfl
      case isFalse => exact bindForMode_nodes topology _

/-- A process with settings is not passive. -/
theorem initAffinity_active (env : Interc.Environment) (topology : Interc.Topology)
    (layer2Active : Bool)
    : (Interc.initAffinity env topology layer2Active {}).mode ≠ .passive := by
  unfold Interc.initAffinity
  split
  case isTrue => exact nofun
  case isFalse =>
      dsimp only
      split
      case isTrue => exact nofun
      case isFalse =>
          split
          case isTrue => exact nofun
          case isFalse =>
              unfold Interc.selectMode Interc.forcedMode
              rw [Interc.bindForMode_mode]
              dsimp only
              split_ifs <;> exact nofun

/-- A node list in the environment settles the start. -/
theorem kumfInit_starts {process : Interc.Host} {nodes : List Int}
    (set : process.environment.nodes = some (nodesText nodes))
    (small : ∀ n ∈ nodes, -2 ^ 31 ≤ n ∧ n < 2 ^ 31) (thread : Nat)
    : Starts process thread nodes (process.confText process.environment) := by
  have explicit : process.environment.Explicit := by
    apply Or.inr
    apply Or.inl
    rw [set]
    exact nofun
  have unasked : process.settings = some process.environment := if_pos explicit
  constructor
  · exact unasked
  · rw [Interc.kumfInit_mode unasked]
    exact initAffinity_active _ _ _
  · exact Interc.kumfInit_rules unasked
  · intro numa
    rw [← affinityNodes_nodesText process.topology set small]
    simp only [kumfInit, unasked]
    exact initAffinity_nodes numa _ _

/-- The name of a command reads as the file of the latest call for it. -/
theorem readThrough_latestProfile {File : Type} {host : Host File} (hash : List Char → List Char)
    {cmdHash : List Char} {calls : List SaveCall} (stored : AllStored host calls)
    : host.readThrough (calls.foldl (savedLinks host hash) (fun _ => none)) (profileConf cmdHash)
      = (latestProfile cmdHash calls).bind host.passed := by
  induction calls using List.reverseRecOn with
  | nil => rfl
  | append_singleton calls call ih =>
      have before := ih (stored.subset (List.subset_append_left _ _))
      have last : call ∈ calls ++ [call] := by simp
      obtain ⟨content, passed⟩ := Option.isSome_iff_exists.mp (stored.given call last)
      have stores := savedLinks_stores hash passed (stored.follow call last)
        (calls.foldl (savedLinks host hash) (fun _ => none))
      rw [List.foldl_append, List.foldl_cons, List.foldl_nil]
      by_cases same : call.cmdHash = cmdHash
      · rw [← same, stores.profile]
        simp [latestProfile, passed]
      · have untouched := stores.others (profileConf cmdHash)
          (fun again => same (profileConf_injective again).symm)
          (fun bytes _ => profileConf_ne_lookupConf _ _)
        rw [Host.readThrough, untouched, ← Host.readThrough, before]
        simp [latestProfile, same, List.filter_append]

/-- The daemon finds a profile exactly if one was saved. -/
theorem finds_latestProfile {File : Type} {host : Host File} (hash : List Char → List Char)
    {cmdHash : List Char} {calls : List SaveCall} (stored : AllStored host calls)
    : host.finds (calls.foldl (savedLinks host hash) (fun _ => none)) (profileConf cmdHash)
      = (latestProfile cmdHash calls).isSome := by
  rw [Host.finds, readThrough_latestProfile hash stored]
  cases latest : latestProfile cmdHash calls with
  | none => rfl
  | some call =>
      exact stored.given call (List.mem_filter.mp (List.mem_of_getLast? latest)).1

/-- The hash of a command as the daemon reads it. -/
def readHash (hash : List Char → List Char) (cmd : List PyStr) : List Char :=
  hash (utf8 (commandPart cmd))

/-- Whose topology the overrides describe. -/
def Exchange.described (wrapper daemon : KumfDaemon) : Exchange → KumfDaemon
  | .answered _ => daemon
  | _ => wrapper

/-- Only the daemon knows about profiles. -/
def Exchange.found (stored : Option SaveCall) : Exchange → Option SaveCall
  | .answered _ => stored
  | _ => none

/-- Only an answer names the socket of the daemon. -/
def Exchange.socket (daemon : KumfDaemon) : Exchange → Option Path
  | .answered _ => some daemon.socketPath
  | _ => none

/-- A `wrap` and a daemon that computed their configurations from their topologies, and how the
question of the one to the other ends; the daemon reads it whole and answers from the links of
that moment. The nodes in the overrides are no larger than the library can read.
-/
structure Wraps (host : Host (List Char)) (hash : List Char → List Char)
    (links : Links (List Char)) (wrapper daemon : KumfDaemon) (cmd : List PyStr)
    (exchange : Exchange)
    : Prop where
  wrapperConfig : wrapper.optimalConfig = getOptimalConfig wrapper.topology
  daemonConfig : daemon.optimalConfig = getOptimalConfig daemon.topology
  fits : (utf8 (wrapMessage cmd)).length ≤ 4096
  answer
    : ∀ env, exchange = .answered env → ∃ now,
        handleMessage host hash links now daemon (received (utf8 (wrapMessage cmd)))
          = some (daemon, .env env)
  small : ∀ n ∈ (exchange.described wrapper daemon).topology.nodes, -2 ^ 31 ≤ n ∧ n < 2 ^ 31

/-- A process that `wrap` has started in this environment, and that reads a file where the daemon
keeps the profile of its command.
-/
structure RunBy (host : Host (List Char)) (hash : List Char → List Char) (environ overrides : Env)
    (cmd : List PyStr) (file : Option (List Char)) (process : Interc.Host)
    : Prop where
  environment : process.environment = programVariables (wrappedEnviron environ overrides)
  file : process.files (utf8 (host.inStateDir (profileConf (readHash hash cmd)))) = file

/-- What `wrap` sets, by the way in which its question ended. -/
theorem Wraps.overrides {host : Host (List Char)} {hash : List Char → List Char}
    {saved : List SaveCall} (stored : AllStored host saved) {wrapper daemon : KumfDaemon}
    {cmd : List PyStr} {exchange : Exchange}
    (wraps : Wraps host hash (saved.foldl (savedLinks host hash) (fun _ => none)) wrapper daemon
      cmd exchange)
    : Overrides (envOverrides wrapper exchange) (exchange.described wrapper daemon).intercSo
        (exchange.described wrapper daemon).topology.nodes
        ((exchange.found (latestProfile (readHash hash cmd) saved)).map
          (fun _ => host.inStateDir (profileConf (readHash hash cmd))))
        (exchange.socket daemon) := by
  cases exchange with
  | notRunning => exact preloadAndNodes_overrides wrapper
  | failed =>
      rw [envOverrides, preload_merge wraps.wrapperConfig]
      exact preloadAndNodes_overrides wrapper
  | answered env =>
      obtain ⟨now, answer⟩ := wraps.answer env rfl
      rw [received_utf8 wraps.fits, handleMessage_wrap] at answer
      cases answer
      have reply := wrapReply_overrides host hash
        (saved.foldl (savedLinks host hash) (fun _ => none)) wraps.daemonConfig (wrap_command cmd)
      rw [finds_latestProfile hash stored] at reply
      dsimp only [envOverrides, Exchange.found, Exchange.described, Exchange.socket, readHash]
      cases latest : latestProfile (hash (utf8 (commandPart cmd))) saved with
      | none => simpa [latest] using reply
      | some call => simpa [latest] using reply

/-- However the question of `wrap` ends, the program runs on the listed nodes of its machine,
asks for nothing and keeps all other variables. It loads the latest profile of the command if one
was there when the daemon answered, and else what its own `KUMF_CONF` names.
-/
theorem wrap_starts (host : Host (List Char)) (hash : List Char → List Char)
    (saved later : List SaveCall) (stored : AllStored host (saved ++ later))
    (wrapper daemon : KumfDaemon) (cmd : List PyStr) (exchange : Exchange)
    (wraps : Wraps host hash (saved.foldl (savedLinks host hash) (fun _ => none)) wrapper daemon
      cmd exchange)
    (environ : Env) (process : Interc.Host) (thread : Nat)
    (runBy : RunBy host hash environ (envOverrides wrapper exchange) cmd
      (host.readThrough ((saved ++ later).foldl (savedLinks host hash) (fun _ => none))
        (profileConf (readHash hash cmd))) process)
    : let found := exchange.found (latestProfile (readHash hash cmd) saved)
      RunsIn environ (wrappedEnviron environ (envOverrides wrapper exchange))
        (exchange.described wrapper daemon).intercSo
        (exchange.described wrapper daemon).topology.nodes
        (found.map (fun _ => host.inStateDir (profileConf (readHash hash cmd))))
        (exchange.socket daemon)
      ∧ Starts process thread (exchange.described wrapper daemon).topology.nodes
          (match found with
          | some _ => (latestProfile (readHash hash cmd) (saved ++ later)).bind host.passed
          | none => process.files ((environ.get? "KUMF_CONF".toList).getD "kumf.conf".toList)) := by
  dsimp only
  have runs := wrappedEnviron_runsIn environ
    (wraps.overrides (stored.subset (List.subset_append_left _ _)))
  refine ⟨runs, ?_⟩
  have set : process.environment.nodes
      = some (nodesText (exchange.described wrapper daemon).topology.nodes) := by
    rw [runBy.environment]
    exact runs.nodes
  have starts := kumfInit_starts set wraps.small thread
  have confOf : process.environment.conf
      = (wrappedEnviron environ (envOverrides wrapper exchange)).get? "KUMF_CONF".toList := by
    rw [runBy.environment]
    rfl
  rw [Interc.Host.confText, confOf, runs.conf] at starts
  cases found : exchange.found (latestProfile (readHash hash cmd) saved) with
  | none =>
      rw [found] at starts
      exact starts
  | some call =>
      rw [found] at starts
      simp only [Option.map_some, Option.some_or, Option.getD_some] at starts
      rw [runBy.file, readThrough_latestProfile hash stored] at starts
      exact starts

open Queries (ruleHost appProcess)

/-- A shell that preloads a library and names a node. -/
def shellEnviron : Env :=
  Env.set (Env.set .empty "LD_PRELOAD".toList "libtrace.so".toList) "KUMF_NODES".toList "1".toList

/-- The answer of the daemon to `./bench`, with its profile stored. -/
def benchReply : Exchange :=
  .answered (wrapReply ruleHost benchHash
    (savedLinks ruleHost benchHash (fun _ => none) (saveCommand bench)) appDaemon
    (splitLimit ':' 2 (wrapMessage bench)))

/-- The wrapped `./bench`. -/
def benchProcess : Interc.Host :=
  { appProcess with
    environment :=
      programVariables (wrappedEnviron shellEnviron (envOverrides appDaemon benchReply))
    files := fun path =>
      if path = "/tmp/kumf_daemon/profile_85ee08ab.conf".toList then
        some "size_range:8192-65536 = 1\n".toList
      else
        none }

/-- The profile was saved before the answer, and the shell has variables of its own. -/
theorem benchProcess_starts
    : RunsIn shellEnviron (wrappedEnviron shellEnviron (envOverrides appDaemon benchReply))
        appDaemon.intercSo [0, 1] (some "/tmp/kumf_daemon/profile_85ee08ab.conf".toList)
        (some "/tmp/kumf_daemon.sock".toList)
      ∧ Starts benchProcess 0 [0, 1] (some "size_range:8192-65536 = 1\n".toList) := by
  have fits : (utf8 (wrapMessage bench)).length ≤ 4096 := by decide
  have only {call : SaveCall} (member : call ∈ [saveCommand bench] ++ [])
      : call = saveCommand bench :=
    List.mem_singleton.mp member
  have stored : AllStored ruleHost ([saveCommand bench] ++ []) := by
    constructor
    · intro call member
      rw [only member]
      rfl
    · intro call member
      rw [only member]
      exact ⟨nofun, ruleHost.reaches_absolute rfl⟩
  have wraps : Wraps ruleHost benchHash
      ([saveCommand bench].foldl (savedLinks ruleHost benchHash) (fun _ => none)) appDaemon
      appDaemon bench benchReply := by
    refine ⟨rfl, rfl, fits, ?_, by decide⟩
    intro env same
    cases same
    refine ⟨[], ?_⟩
    rw [received_utf8 fits, handleMessage_wrap]
    rfl
  have found : latestProfile (readHash benchHash bench) [saveCommand bench]
      = some (saveCommand bench) := by
    decide +kernel
  have starts := wrap_starts ruleHost benchHash [saveCommand bench] [] stored appDaemon appDaemon
    bench benchReply wraps shellEnviron benchProcess 0 ⟨rfl, by decide +kernel⟩
  dsimp only [benchReply, Exchange.found, Exchange.described, Exchange.socket] at starts
  rw [List.append_nil, found] at starts
  exact starts

end Kumf.Daemon
