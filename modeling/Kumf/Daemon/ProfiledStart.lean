import Kumf.Daemon.ProfileOutcomes
import Kumf.Daemon.WrapStart

/-! What a `profile` run means for the program that was profiled: asked by the library or wrapped,
a later start loads the configuration that the run left in its output directory.
-/

namespace Kumf.Daemon.Profiling

open Kumf.Library PyText PyStr
open Kumf.Interc (kumfInit loadRules)
open Queries (saves Carried Takes)

-----------------------------------------------------------------------------------------
-- The names that a run leaves
-----------------------------------------------------------------------------------------

/-- A call that returns has registered its executable, which could be encoded. -/
theorem encodable_of_saved {host : Host (List Char)} {hash : List Char → List Char}
    {call : SaveCall} {links after : Links (List Char)}
    (saved : (saveProfile host hash call).run links = .ok () after)
    : ∀ exePath ∈ call.exePath, (PyStr.encode exePath).isSome = true := by
  intro exePath named
  have present : call.exePath = some exePath := named
  unfold saveProfile at saved
  rw [EStateM.run_bind, present] at saved
  cases first : (replaceLink host call call.profileLinkable
      (profileConf call.cmdHash)).run links with
  | error raised left =>
      rw [first] at saved
      cases saved
  | ok value left =>
      rw [first] at saved
      dsimp only at saved
      by_cases empty : exePath = []
      · rw [empty]
        rfl
      · rw [if_neg empty] at saved
        cases encoded : PyStr.encode exePath with
        | none =>
            rw [encoded] at saved
            cases saved
        | some bytes => rfl

section
variable (system : System) (args : Arguments)

/-- Both names that the state directory has for a profile read as its configuration. -/
structure Linked (state : State) : Prop where
  present : HasConf state
  command
    : (host system args state.files).readThrough state.links (profileConf (cmdHash system args))
      = state.files.kumfConf
  program
    : ∀ exe ∈ (saveCall system args).exeBytes,
      (host system args state.files).readThrough state.links (lookupConf (system.hash exe))
        = state.files.kumfConf

theorem linked_reached (absolute : (confPath system args).head? = some '/')
    : Reached system args (Linked system args) where
  saves := by
    intro state value left present run
    obtain ⟨text, conf⟩ := Option.isSome_iff_exists.mp present
    let here := host system args state.files
    rw [callSaveProfile_run] at run
    dsimp only at run
    split at run
    case isTrue => cases run
    case isFalse =>
        split at run
        case h_2 => cases run
        case h_1 links stored =>
            cases run
            have follows : here.Follows (saveCall system args) :=
              ⟨encodable_of_saved stored, here.reaches_absolute absolute⟩
            have stores := savedLinks_stores system.hash
              ((host_passed system args state.files).trans conf) follows state.links
            rw [savedLinks, stored] at stores
            constructor
            · exact present
            · exact stores.profile.trans conf.symm
            · intro exe registered
              exact (stores.lookup exe registered).trans conf.symm
  stays message := by
    intro state value left linked printed
    cases printed
    exact ⟨linked.present, linked.command, linked.program⟩

theorem profile_linked (absolute : (confPath system args).head? = some '/')
    {start left : State}
    (succeeds : ∀ dumped ∈ dumpedFiles system args start, scriptFails system dumped = false)
    (run : (profile system args).run start = .ok 0 left)
    : Linked system args left :=
  (linked_reached system args absolute).profile succeeds run

end

-----------------------------------------------------------------------------------------
-- Other profiles in between
-----------------------------------------------------------------------------------------

/-- Profiles saved later, none of them under a certain name. -/
structure SavedElsewhere {File : Type} (host : Host File) (hash : List Char → List Char)
    (name : Path) (calls : List SaveCall)
    : Prop extends AllStored host calls where
  command : ∀ call ∈ calls, name ≠ profileConf call.cmdHash
  program : ∀ call ∈ calls, ∀ exe ∈ call.exeBytes, name ≠ lookupConf (hash exe)

theorem SavedElsewhere.readThrough {File : Type} {host : Host File}
    {hash : List Char → List Char} {name : Path} {calls : List SaveCall}
    (elsewhere : SavedElsewhere host hash name calls) (links : Links File)
    : host.readThrough (calls.foldl (savedLinks host hash) links) name
      = host.readThrough links name := by
  have untouched := foldl_savedLinks_others hash links elsewhere.given elsewhere.follow
    (fun later member => ⟨elsewhere.command later member, elsewhere.program later member⟩)
  rw [Host.readThrough, untouched, ← Host.readThrough]

theorem SavedElsewhere.front {File : Type} {host : Host File} {hash : List Char → List Char}
    {name : Path} {front back : List SaveCall}
    (elsewhere : SavedElsewhere host hash name (front ++ back))
    : SavedElsewhere host hash name front where
  toAllStored := elsewhere.toAllStored.subset (List.subset_append_left _ _)
  command call member := elsewhere.command call (List.mem_append_left _ member)
  program call member := elsewhere.program call (List.mem_append_left _ member)

-----------------------------------------------------------------------------------------
-- The start of a process
-----------------------------------------------------------------------------------------

/-- A start with a configuration on given nodes. -/
structure Loads (process : Interc.Host) (thread : Nat) (nodes : List Int)
    (text : Option (List Char)) : Prop where
  active : (kumfInit process thread).lib.mode ≠ .passive
  rules : (kumfInit process thread).lib.rules = loadRules process.staleLine text .initial
  nodes
    : 0 ≤ process.topology.available
      → (kumfInit process thread).affinity.nodes = usable process.topology nodes

theorem kumfInit_loads {process : Interc.Host} {env : Interc.Environment} {nodes : List Int}
    (settings : process.settings = some env) (set : env.nodes = some (nodesText nodes))
    (small : ∀ n ∈ nodes, -2 ^ 31 ≤ n ∧ n < 2 ^ 31) (thread : Nat)
    : Loads process thread nodes (process.confText env) := by
  constructor
  · rw [Interc.kumfInit_mode settings]
    exact initAffinity_active _ _ _
  · exact Interc.kumfInit_rules settings
  · intro numa
    rw [← affinityNodes_nodesText process.topology set small]
    simp only [kumfInit, settings]
    exact initAffinity_nodes numa _ _

/-- A process that got an answer to its query in a run, and finds the files as the run has left
them.
-/
structure Asked (host : Host (List Char)) (hash : List Char → List Char)
    (json : Reply → List Char) (daemon : KumfDaemon) (links : Links (List Char))
    (actions : List Queries.Action) (pid : Nat) (exe : Path) (process : Interc.Host) : Prop where
  run
    : Along (Queries.System.step host hash json) Queries.System.Orderly
        (Queries.System.initial daemon links) actions
  answered
    : ∃ reply,
      (actions.foldl (Queries.System.step host hash json)
        (Queries.System.initial daemon links)).queries pid = .answered exe reply
      ∧ Takes host hash exe reply
          (host.readThrough ((saves actions).foldl (savedLinks host hash) links)
            (lookupConf (hash exe))) process

/-- A daemon that knows nodes, and whose configuration is that of its topology. -/
structure Describes (daemon : KumfDaemon) : Prop where
  config : daemon.optimalConfig = getOptimalConfig daemon.topology
  known : daemon.topology.nodes ≠ []
  small : ∀ n ∈ daemon.topology.nodes, -2 ^ 31 ≤ n ∧ n < 2 ^ 31

/-- A process that `wrap` runs on an answer of the daemon, between the calls `saved` and `later`,
and that finds the files as the later ones have left them.
-/
structure Wrapped (host : Host (List Char)) (hash : List Char → List Char) (daemon : KumfDaemon)
    (links : Links (List Char)) (saved later : List SaveCall) (cmd : List PyStr)
    (process : Interc.Host) : Prop where
  answered
    : ∃ environ now env,
      handleMessage host hash (saved.foldl (savedLinks host hash) links) now daemon
          (received (utf8 (wrapMessage cmd)))
        = some (daemon, .env env)
      ∧ process.environment = programVariables (wrappedEnviron environ env)
  files
    : process.files (utf8 (host.inStateDir (profileConf (commandHash hash cmd))))
      = host.readThrough ((saved ++ later).foldl (savedLinks host hash) links)
          (profileConf (commandHash hash cmd))

section
variable {host : Host (List Char)} {hash : List Char → List Char} {json : Reply → List Char}
  {daemon : KumfDaemon} {links : Links (List Char)}

/-- An answer leads to what the name of the executable read as from the start. -/
theorem Asked.loads {actions : List Queries.Action} {pid : Nat} {exe : Path}
    {process : Interc.Host} (asked : Asked host hash json daemon links actions pid exe process)
    {text : List Char} (stored : host.readThrough links (lookupConf (hash exe)) = some text)
    (elsewhere : SavedElsewhere host hash (lookupConf (hash exe)) (saves actions))
    (valid : IsUtf8 exe) (carried : Carried host hash daemon.topology.nodes exe)
    (describes : Describes daemon) (thread : Nat)
    : Loads process thread daemon.topology.nodes (some text) := by
  obtain ⟨reply, answered, takes⟩ := asked.answered
  obtain ⟨front, now, back, split, answers, -⟩ := Queries.answer_own asked.run answered
  have whole : saves actions = saves front ++ saves (.handle now :: back) := by
    rw [split, saves, List.filterMap_append]
    rfl
  have read : readBack exe = exe := (readBack_eq_iff valid).mpr (.inl carried.short)
  obtain ⟨frontLinks, frontTopology⟩ :=
    Queries.run_frame host hash json front (Queries.System.initial daemon links)
  have early : host.readThrough (front.foldl (Queries.System.step host hash json)
      (Queries.System.initial daemon links)).links (lookupConf (hash exe)) = some text := by
    rw [whole] at elsewhere
    rw [frontLinks, elsewhere.front.readThrough]
    exact stored
  have same := answers.same
  rw [Queries.System.answer, read, frontTopology, Host.finds, early] at same
  simp only [Option.isSome_some, if_true, Queries.System.initial] at same
  subst same
  have settings := takes.configured carried
  rw [if_neg describes.known] at settings
  have loads := kumfInit_loads settings rfl describes.small thread
  rw [Interc.Host.confText] at loads
  dsimp only [Option.getD_some] at loads
  rwa [takes.file, elsewhere.readThrough, stored] at loads

/-- A command without a colon runs with what its name read as from the start. -/
theorem Wrapped.loads {saved later : List SaveCall} {cmd : List PyStr} {process : Interc.Host}
    (wrapped : Wrapped host hash daemon links saved later cmd process) {text : List Char}
    (stored : host.readThrough links (profileConf (commandHash hash cmd)) = some text)
    (elsewhere
      : SavedElsewhere host hash (profileConf (commandHash hash cmd)) (saved ++ later))
    (plain : ∀ arg ∈ cmd, ∀ c ∈ arg, c.val ≠ 0x3a)
    (fits : (utf8 (wrapMessage cmd)).length ≤ 4096) (describes : Describes daemon)
    (thread : Nat)
    : Loads process thread daemon.topology.nodes (some text) := by
  obtain ⟨environ, now, env, answer, environment⟩ := wrapped.answered
  rw [received_utf8 fits, handleMessage_wrap] at answer
  cases answer
  have overrides := wrapReply_overrides host hash (saved.foldl (savedLinks host hash) links)
    describes.config (wrap_command cmd)
  have whole : hash (utf8 (commandPart cmd)) = commandHash hash cmd := by
    rw [commandPart_eq plain, commandHash]
  rw [whole, Host.finds, elsewhere.front.readThrough, stored] at overrides
  simp only [Option.isSome_some, if_true] at overrides
  have runs := wrappedEnviron_runsIn environ overrides
  have set : process.environment.nodes = some (nodesText daemon.topology.nodes) := by
    rw [environment]
    exact runs.nodes
  have conf : process.environment.conf
      = some (utf8 (host.inStateDir (profileConf (commandHash hash cmd)))) := by
    rw [environment]
    exact runs.conf
  have explicit : process.environment.Explicit := by
    apply Or.inr
    apply Or.inl
    rw [set]
    exact Option.some_ne_none _
  have loads := kumfInit_loads (if_pos explicit) set describes.small thread
  rw [Interc.Host.confText, conf] at loads
  dsimp only [Option.getD_some] at loads
  rwa [wrapped.files, elsewhere.readThrough, stored] at loads

end

/-- An executable that was registered has a path in UTF-8. -/
theorem isUtf8_of_registered {call : SaveCall} {exe : Path} (registered : exe ∈ call.exeBytes)
    : IsUtf8 exe := by
  obtain ⟨exePath, -, encoded⟩ := Option.bind_eq_some_iff.mp registered
  split at encoded
  case isTrue => cases encoded
  case isFalse =>
      obtain ⟨text, -, same⟩ := PyStr.encode_eq_some.mp encoded
      exact ⟨text, same⟩

/-- A `profile` that returns 0 into an absolute directory, in which no script failed. -/
structure Succeeds (system : System) (args : Arguments) (start left : State) : Prop where
  absolute : (confPath system args).head? = some '/'
  scripts : ∀ dumped ∈ dumpedFiles system args start, scriptFails system dumped = false
  run : (profile system args).run start = .ok 0 left

/-- A `profile` that succeeds has left a configuration, and later starts of the program load it:
those that ask the daemon, in any run of queries, and those that `wrap` makes of a command without
a colon. Other profiles may be saved in between. Witness: the two names of the profile, which none
of them stores under.
-/
theorem profile_starts (system : System) (args : Arguments) (start left : State)
    (succeeds : Succeeds system args start left) (json : Reply → List Char)
    (daemon : KumfDaemon) (describes : Describes daemon) (thread : Nat)
    : let here := host system args left.files
      ∃ text,
        left.files.kumfConf = some text
        ∧ (∀ exe ∈ (saveCall system args).exeBytes,
          Carried here system.hash daemon.topology.nodes exe
          → ∀ actions pid process,
            SavedElsewhere here system.hash (lookupConf (system.hash exe)) (saves actions)
            → Asked here system.hash json daemon left.links actions pid exe process
            → Loads process thread daemon.topology.nodes (some text))
        ∧ ((∀ arg ∈ args.cmd, ∀ c ∈ arg, c.val ≠ 0x3a)
          → (utf8 (wrapMessage args.cmd)).length ≤ 4096
          → ∀ saved later process,
            SavedElsewhere here system.hash (profileConf (cmdHash system args)) (saved ++ later)
            → Wrapped here system.hash daemon left.links saved later args.cmd process
            → Loads process thread daemon.topology.nodes (some text)) := by
  dsimp only
  have linked := profile_linked system args succeeds.absolute succeeds.scripts succeeds.run
  obtain ⟨text, conf⟩ := Option.isSome_iff_exists.mp linked.present
  refine ⟨text, conf, ?_, ?_⟩
  · intro exe registered carried actions pid process elsewhere asked
    have stored := (linked.program exe registered).trans conf
    exact asked.loads stored elsewhere (isUtf8_of_registered registered) carried describes thread
  · intro plain fits saved later process elsewhere wrapped
    have stored := linked.command.trans conf
    exact wrapped.loads stored elsewhere plain fits describes thread

-----------------------------------------------------------------------------------------
-- A program that is profiled and started
-----------------------------------------------------------------------------------------

/-- A system in which pac_to_interc.py writes one rule. -/
def ruleSystem : System :=
  { scriptsExit 0 0 with
    hash := twoHashes
    run := fun program files =>
      match program with
      | .pacToInterc _ =>
          (some ⟨0, some [], []⟩,
            { files with kumfConf := some "size_range:8192-65536 = 1\n".toList })
      | other => (scriptsExit 0 0).run other files
    file := fun path => if path = "/home/user/out/kumf.conf".toList then some [] else none }

/-- `kumf_daemon profile -- /usr/bin/app` -/
def profileUsrBinApp : Arguments :=
  { profileApp with cmd := [PyStr.ofText "/usr/bin/app".toList] }

def shellThenApp : List Queries.Action :=
  [.save saveShell, .ask 7 "/usr/bin/app".toList true, .handle [], .receive 7]

theorem ruleSystem_starts
    : ∃ left,
      (profile ruleSystem profileUsrBinApp).run (begin noFiles (fun _ => none)) = .ok 0 left
      ∧ Loads Queries.appProcess 0 [0, 1] (some "size_range:8192-65536 = 1\n".toList) := by
  refine ⟨_, rfl, ?_⟩
  obtain ⟨text, conf, asked, -⟩ := profile_starts ruleSystem profileUsrBinApp
    (begin noFiles (fun _ => none)) _ ⟨rfl, by intro dumped member; cases member; rfl, rfl⟩
    (fun _ => []) appDaemon ⟨rfl, by decide, by decide⟩ 0
  cases conf
  apply asked "/usr/bin/app".toList rfl
    ⟨by decide, by decide, by decide, by decide⟩ shellThenApp 7
  · have only {call : SaveCall} (member : call ∈ saves shellThenApp) : call = saveShell :=
      List.mem_singleton.mp member
    refine ⟨⟨?_, ?_⟩, ?_, ?_⟩
    · intro call member
      rw [only member]
      rfl
    · intro call member
      rw [only member]
      exact ⟨fun exePath named => by cases named; rfl, Host.reaches_absolute _ rfl⟩
    · intro call member
      rw [only member]
      decide
    · intro call member exe registered
      rw [only member] at registered
      cases registered
      decide
  · constructor
    · decide +kernel
    · refine ⟨_, by decide +kernel, ?_, ⟨[], rfl⟩, by decide +kernel⟩
      intro explicit
      rcases explicit with set | set | set
      all_goals exact set rfl

end Kumf.Daemon.Profiling
