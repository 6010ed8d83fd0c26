import Kumf.Interc.Affinity
import Kumf.Interc.DaemonQuery
import Kumf.Interc.Ledger

/-! `kumf_init`, and what its BATCH mode means for the allocations that follow. Routing is
switched on by the rule loader alone, so a start that ends in BATCH mode for another reason
than the absence of rules routes all the same.
-/

namespace Kumf.Interc

open Kumf.Library

/-- What `kumf_init` finds: the environment, the files that `fopen` can open, the answer to
its `LOOKUP` over a stale buffer (if one arrives in time) and libnuma.
-/
structure Host where
  environment : Environment
  files : List Char → Option (List Char)
  answer : Option (List Char × List Char)
  topology : Topology
  staleLine : List Char

/-- The library after `kumf_init`. -/
structure Started where
  lib : Globals
  affinity : Affinity

/-- `query_daemon_for_config`, on the environment; `none` is passive mode. -/
def queryDaemonForConfig (host : Host) : Option Environment :=
  match host.answer with
  | none => none
  | some (stale, reply) =>
      match applyReply stale ⟨host.environment.nodes, host.environment.conf⟩ reply with
      | none => none
      | some set => some { host.environment with nodes := set.nodes, conf := set.conf }

/-- A variable of the user counts before the daemon. -/
def Environment.Explicit (env : Environment) : Prop :=
  env.affinity ≠ none ∨ env.nodes ≠ none ∨ env.conf ≠ none

instance (env : Environment) : Decidable env.Explicit :=
  inferInstanceAs (Decidable (_ ∨ _ ∨ _))

/-- The environment that `load_rules` and `init_affinity` read; `none` is passive mode. -/
def Host.settings (host : Host) : Option Environment :=
  if host.environment.Explicit then some host.environment else queryDaemonForConfig host

/-- What `fopen` in `load_rules` opens. -/
def Host.confText (host : Host) (env : Environment) : Option (List Char) :=
  host.files (env.conf.getD "kumf.conf".toList)

/-- `kumf_init` on the thread that loads the library. -/
def kumfInit (host : Host) (thread : Nat) : Started :=
  let statics (mode : Mode) (rules : RuleState) (homeNode : Int) : Globals :=
    { mode
      rules
      routingEverUsed := false
      addrHash := .empty
      locals := Function.update (fun _ => {}) thread { homeNode } }
  match host.settings with
  | none => ⟨statics .passive .initial (-1), { mode := .passive }⟩
  | some env =>
      let rules := loadRules host.staleLine (host.confText env) .initial
      let affinity := initAffinity env host.topology rules.layer2Active {}
      ⟨statics affinity.mode rules affinity.homeNode, affinity⟩

-----------------------------------------------------------------------------------------
-- Calls that libc alone serves
-----------------------------------------------------------------------------------------

/-- The caller and the sizes of a call are machine words. -/
def Call.InWords (call : Call) : Prop :=
  call.site.caller < 2 ^ 64
  ∧ match call.op with
    | .malloc sz => sz < 2 ^ 64
    | .calloc nmemb size => nmemb < 2 ^ 64 ∧ size < 2 ^ 64
    | .realloc _ size => size < 2 ^ 64
    | .free _ => True

/-- `malloc` and `calloc` pass the request to libc and its answer back, and nothing is asked
of `numa_alloc_onnode`.
-/
structure ServedByLibc (globals : Globals) (call : Call) : Prop where
  unrouted
    : ∀ size node ret, .numaAllocOnnode size node ret ∉ (exec globals call).events
  malloc
    : ∀ sz,
        call.op = .malloc sz
        → (exec globals call).events = [.libcMalloc sz call.replies.libc]
          ∧ (exec globals call).ret = call.replies.libc
  calloc
    : ∀ nmemb size,
        call.op = .calloc nmemb size
        → (exec globals call).events = [.libcCalloc nmemb size call.replies.libc]
          ∧ (exec globals call).ret = call.replies.libc

/-- All later calls are served by libc. -/
def Globals.NoIntercept (globals : Globals) : Prop :=
  ∀ calls : List Call,
    (∀ call ∈ calls, call.InWords)
    → Along (fun globals call => (exec globals call).globals) ServedByLibc globals calls

/-- Some request that the shared block looks at matches a rule with a node. -/
def RuleTables.RoutesSome (tables : RuleTables) : Prop :=
  ∃ caller sz, caller < 2 ^ 64 ∧ sz < 2 ^ 64 ∧ routeThreshold < sz
    ∧ (0 ≤ matchSize tables.sizeRules sz ∨ 0 ≤ matchAddr tables.addrRules caller)

/-- BATCH mode with nothing in the table and no request that would be routed. -/
structure Globals.Quiet (globals : Globals) : Prop where
  mode : globals.mode = .batch
  untracked : globals.addrHash.entries = []
  unrouted : globals.rules.layer2Active = true → ¬ globals.rules.tables.RoutesSome

section
variable {globals : Globals}

/-- Who is quiet is not passive. -/
theorem Globals.Quiet.active (quiet : globals.Quiet) : globals.mode ≠ .passive := by
  rw [quiet.mode]
  exact nofun

/-- Who is quiet routes no request. -/
theorem Globals.Quiet.not_routes (quiet : globals.Quiet) {caller sz : Nat}
    (callerWord : caller < 2 ^ 64) (sizeWord : sz < 2 ^ 64)
    : ¬ globals.Routes caller sz := by
  rintro ⟨active, large, matched⟩
  exact quiet.unrouted active ⟨caller, sz, callerWord, sizeWord, large, matched⟩

/-- Quiet is a matter of the settings and the table. -/
theorem Globals.Quiet.of_setup {after : Globals} (quiet : globals.Quiet)
    (setup : SameSetup globals after) (same : after.addrHash = globals.addrHash)
    : after.Quiet := by
  obtain ⟨mode, untracked, unrouted⟩ := quiet
  constructor
  · rw [setup.mode, mode]
  · rw [same, untracked]
  · rw [setup.rules]
    exact unrouted

/-- Who is quiet has no entry to unlink. -/
theorem Globals.Quiet.unlink (quiet : globals.Quiet) (p : Addr)
    : globals.addrHash.unlink p = none := by
  cases unlinked : globals.addrHash.unlink p with
  | none => rfl
  | some found =>
      obtain ⟨entry, smaller⟩ := found
      have perm := (ChainedTable.unlink_some unlinked).2
      rw [quiet.untracked] at perm
      exact absurd perm.symm.eq_nil (List.cons_ne_nil _ _)

/-- The shared block does nothing, and libc is asked. -/
theorem Globals.Quiet.tryRoute (quiet : globals.Quiet) {site : CallSite} (replies : Replies)
    {sz : Nat} (callerWord : site.caller < 2 ^ 64) (sizeWord : sz < 2 ^ 64) (asked : Event)
    : ((tryRoute site replies globals sz).orLibc replies.libc asked).events = [asked]
      ∧ ((tryRoute site replies globals sz).orLibc replies.libc asked).ret = replies.libc
      ∧ ((tryRoute site replies globals sz).orLibc replies.libc asked).globals.Quiet := by
  have skipped := quiet.not_routes callerWord sizeWord
  have routing := tryRoute_step site replies globals sz
  revert routing
  generalize Kumf.Interc.tryRoute site replies globals sz = routed
  intro routing
  cases routing with
  | recorded selected => exact absurd selected skipped
  | unrecorded selected => exact absurd selected skipped
  | refused selected => exact absurd selected skipped
  | unrouted _ setup _ same => exact ⟨rfl, rfl, quiet.of_setup setup same⟩

/-- Of the other operations nothing more is asked. -/
theorem ServedByLibc.of_other {call : Call} (notMalloc : ∀ sz, call.op ≠ .malloc sz)
    (notCalloc : ∀ nmemb size, call.op ≠ .calloc nmemb size)
    (unrouted : ∀ size node ret, .numaAllocOnnode size node ret ∉ (exec globals call).events)
    : ServedByLibc globals call where
  unrouted
  malloc sz op := absurd op (notMalloc sz)
  calloc nmemb size op := absurd op (notCalloc nmemb size)

/-- A quiet library stays quiet and leaves every call to libc. -/
theorem Globals.Quiet.exec (quiet : globals.Quiet) {call : Call} (words : call.InWords)
    : ServedByLibc globals call ∧ (exec globals call).globals.Quiet := by
  obtain ⟨site, replies, op⟩ := call
  obtain ⟨callerWord, sizes⟩ := words
  have active := quiet.active
  cases op with
  | malloc sz =>
      obtain ⟨events, ret, after⟩ := quiet.tryRoute replies callerWord sizes
        (.libcMalloc sz replies.libc)
      have body : Kumf.Interc.exec globals ⟨site, replies, .malloc sz⟩ = _ :=
        malloc_eq active site replies sz
      refine ⟨⟨?_, ?_, ?_⟩, by rwa [body]⟩
      · rw [body, events]
        simp
      · rintro _ ⟨⟩
        rw [body]
        exact ⟨events, ret⟩
      · rintro _ _ ⟨⟩
  | calloc nmemb size =>
      have total : nmemb * size % 2 ^ 64 < 2 ^ 64 := Nat.mod_lt _ (by decide)
      obtain ⟨events, ret, after⟩ := quiet.tryRoute replies callerWord total
        (.libcCalloc nmemb size replies.libc)
      have body : Kumf.Interc.exec globals ⟨site, replies, .calloc nmemb size⟩ = _ :=
        if_neg active
      refine ⟨⟨?_, ?_, ?_⟩, by rwa [body]⟩
      · rw [body, events]
        simp
      · rintro _ ⟨⟩
      · rintro _ _ ⟨⟩
        rw [body]
        exact ⟨events, ret⟩
  | realloc ptr size =>
      cases ptr with
      | none =>
          obtain ⟨events, _, after⟩ := quiet.tryRoute replies callerWord sizes
            (.libcMalloc size replies.libc)
          have body : Kumf.Interc.exec globals ⟨site, replies, .realloc none size⟩ = _ :=
            (if_neg active).trans (malloc_eq active site replies size)
          refine ⟨.of_other (by simp) (by simp) ?_, by rwa [body]⟩
          rw [body, events]
          simp
      | some p =>
          have body : Kumf.Interc.exec globals ⟨site, replies, .realloc (some p) size⟩
              = ⟨globals, replies.libc, [.libcRealloc p size replies.libc]⟩ := by
            simp [Kumf.Interc.exec, realloc, active, checkAndRemoveSeg, quiet.unlink]
          refine ⟨.of_other (by simp) (by simp) ?_, by rwa [body]⟩
          rw [body]
          simp
  | free ptr =>
      have body : (Kumf.Interc.exec globals ⟨site, replies, .free ptr⟩).globals = globals
          ∧ ∀ size node ret, .numaAllocOnnode size node ret
            ∉ (Kumf.Interc.exec globals ⟨site, replies, .free ptr⟩).events := by
        cases ptr with
        | none => simp [Kumf.Interc.exec, free]
        | some p =>
            simp only [Kumf.Interc.exec, free, if_neg active]
            split <;> simp [checkAndRemoveSeg, quiet.unlink]
      exact ⟨.of_other (by simp) (by simp) body.2, by rwa [body.1]⟩

/-- Who is quiet leaves every call to the libc. -/
theorem Globals.Quiet.noIntercept (quiet : globals.Quiet) : globals.NoIntercept := by
  intro calls
  induction calls generalizing globals with
  | nil => exact fun _ => trivial
  | cons call rest ih =>
      intro words
      obtain ⟨served, after⟩ := quiet.exec (words call List.mem_cons_self)
      exact ⟨served, ih after (fun later member => words later (List.mem_cons_of_mem _ member))⟩

/-- With active rules that route something, some `malloc` asks `numa_alloc_onnode`. -/
theorem not_noIntercept (notPassive : globals.mode ≠ .passive)
    (active : globals.rules.layer2Active = true) (routes : globals.rules.tables.RoutesSome)
    : ¬ globals.NoIntercept := by
  obtain ⟨caller, sz, callerWord, sizeWord, large, matched⟩ := routes
  intro noIntercept
  let call : Call :=
    { site := { thread := 0, caller, place := ⟨0, fun _ => 0⟩, stale := [], conf := none }
      replies := ⟨none, none, none⟩
      op := .malloc sz }
  have served := (noIntercept [call] (by simpa using ⟨callerWord, sizeWord⟩)).1.malloc sz rfl
  have body : exec globals call = _ := malloc_eq notPassive call.site call.replies sz
  rw [body] at served
  have routing := tryRoute_step call.site call.replies globals sz
  revert served routing
  generalize tryRoute call.site call.replies globals sz = routed
  intro served routing
  cases routing with
  | recorded _ granted => cases granted
  | unrecorded _ granted => cases granted
  | refused => cases served.1
  | unrouted skipped => exact skipped ⟨active, large, matched⟩

end

-----------------------------------------------------------------------------------------
-- Starts that end in BATCH mode
-----------------------------------------------------------------------------------------

/-- A start that is disabled or told to stay in BATCH mode, with rules that route. -/
def Host.Contradictory (host : Host) : Prop :=
  ∃ env text, host.settings = some env
    ∧ Disabled env host.topology
    ∧ host.confText env = some text
    ∧ (loadText host.staleLine {} text).RoutesSome

/-- Only with a rule is anything routed. -/
theorem RuleTables.RoutesSome.nonempty {tables : RuleTables} (routes : tables.RoutesSome)
    : 0 < tables.addrRules.length + tables.sizeRules.length + tables.nameRules.length := by
  obtain ⟨caller, sz, _, _, _, matched⟩ := routes
  rcases matched with bySize | byAddr
  · cases rules : tables.sizeRules with
    | nil => simp [rules, matchSize] at bySize
    | cons rule rest =>
        rw [List.length_cons]
        omega
  · cases rules : tables.addrRules with
    | nil => simp [rules, matchAddr] at byAddr
    | cons rule rest =>
        rw [List.length_cons]
        omega

section
variable {host : Host} {env : Environment} {thread : Nat}

/-- The rules are those of the file. -/
theorem kumfInit_rules (found : host.settings = some env)
    : (kumfInit host thread).lib.rules
      = loadRules host.staleLine (host.confText env) .initial := by
  simp [kumfInit, found]

/-- The mode is the one the settings choose. -/
theorem kumfInit_mode (found : host.settings = some env)
    : (kumfInit host thread).lib.mode
      = (initAffinity env host.topology (kumfInit host thread).lib.rules.layer2Active {}).mode := by
  simp [kumfInit, found]

/-- Nothing is tracked at the start. -/
theorem kumfInit_untracked : (kumfInit host thread).lib.addrHash.entries = [] := by
  unfold kumfInit
  cases host.settings <;> exact ChainedTable.entries_empty

/-- Loaded rules that route something are active. -/
theorem kumfInit_active (thread : Nat) {text : List Char} (found : host.settings = some env)
    (opened : host.confText env = some text)
    (routes : (loadText host.staleLine {} text).RoutesSome)
    : (kumfInit host thread).lib.rules.layer2Active = true
      ∧ (kumfInit host thread).lib.rules.tables.RoutesSome := by
  rw [kumfInit_rules found, opened]
  exact ⟨decide_eq_true routes.nonempty, routes⟩

/-- A BATCH start whose rules route nothing is quiet. -/
theorem kumfInit_quiet (found : host.settings = some env)
    (batch : (kumfInit host thread).lib.mode = .batch)
    (unrouted : ∀ text, host.confText env = some text
      → ¬ (loadText host.staleLine {} text).RoutesSome)
    : (kumfInit host thread).lib.Quiet := by
  refine ⟨batch, kumfInit_untracked, ?_⟩
  rw [kumfInit_rules found]
  cases opened : host.confText env with
  | none => exact nofun
  | some text => exact fun _ => unrouted text opened

end

/-- Whether BATCH mode keeps its promise of no interception is decided by the rules: it does
unless a disabled start read rules that route something. Witness: routing looks at the rules
and never at the mode.
-/
theorem kumfInit_noIntercept_iff (host : Host) (thread : Nat)
    : ((kumfInit host thread).lib.mode = .batch → (kumfInit host thread).lib.NoIntercept)
      ↔ ¬ host.Contradictory := by
  constructor
  · rintro promise ⟨env, text, found, disabled, opened, routes⟩
    obtain ⟨active, loaded⟩ := kumfInit_active thread found opened routes
    have batch : (kumfInit host thread).lib.mode = .batch := by
      rw [kumfInit_mode found, active]
      exact (initAffinity_batch_iff env host.topology rfl).mpr disabled
    refine not_noIntercept ?_ active loaded (promise batch)
    rw [batch]
    exact nofun
  · intro consistent batch
    cases found : host.settings with
    | none =>
        have passive : (kumfInit host thread).lib.mode = .passive := by simp [kumfInit, found]
        rw [passive] at batch
        cases batch
    | some env =>
        refine (kumfInit_quiet found batch ?_).noIntercept
        intro text opened routes
        obtain ⟨active, _⟩ := kumfInit_active thread found opened routes
        rw [kumfInit_mode found, active] at batch
        have disabled := (initAffinity_batch_iff env host.topology rfl).mp batch
        exact consistent ⟨env, text, found, disabled, opened, routes⟩

/-- Two nodes on one socket, `KUMF_AFFINITY=batch` and a rule for middle sizes. -/
def forcedBatch : Host where
  environment := { affinity := some "batch".toList }
  files := fun path =>
    if path = "kumf.conf".toList then some "size_range:8192-65536 = 1\n".toList else none
  answer := none
  topology :=
    { available := 0
      maxNode := 1
      nodeSize := fun n => if n = 0 ∨ n = 1 then 1024 else -1
      distance := fun i j => if i = j then 10 else 12
      nodeCpus := fun _ => 4 }
  staleLine := []

/-- A request of 8192 bytes, which the rule sends to node 1. -/
def middleSize : Call := .idle ⟨some 65536, some 32, none⟩ (.malloc 8192)

theorem forcedBatch_intercepts
    : (kumfInit forcedBatch 0).lib.mode = .batch
      ∧ (exec (kumfInit forcedBatch 0).lib middleSize).events
        = [.numaAllocOnnode 8192 1 (some 65536), .libcMalloc entrySize (some 32)]
      ∧ ¬ (kumfInit forcedBatch 0).lib.NoIntercept := by
  have events : (exec (kumfInit forcedBatch 0).lib middleSize).events
      = [.numaAllocOnnode 8192 1 (some 65536), .libcMalloc entrySize (some 32)] := by
    decide +kernel
  refine ⟨by decide +kernel, events, fun noIntercept => ?_⟩
  have words : middleSize.InWords := ⟨by decide, (by decide : 8192 < 2 ^ 64)⟩
  have served := (noIntercept [middleSize] (by simpa using words)).1.malloc 8192 rfl
  rw [events] at served
  cases served.1

end Kumf.Interc
