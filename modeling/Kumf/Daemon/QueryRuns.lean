import Kumf.Daemon.Lookups
import Kumf.Library.Runs

/-! Queries of many processes to one daemon. Each waits for a while on a socket named after its
process id, and the daemon answers to that name; profiles may be saved in between.
-/

namespace Kumf.Daemon.Queries

open Kumf.Library PyText
open Kumf.Interc (lookupMessage)

/-- Where `query_daemon_for_config` stands in a process. The socket of a waiting one holds the
answers that have arrived; without an answer it ends in passive mode.
-/
inductive Query where
  | unasked
  | waiting (exe : Path) (inbox : List (List Char))
  | answered (exe : Path) (reply : List Char)
  | passive (exe : Path)
  deriving DecidableEq, Repr

/-- The daemon, its state directory, the datagrams on its socket, each with the process whose
query socket sent it, and the query of every process.
-/
structure System (File : Type) where
  daemon : KumfDaemon
  links : Links File
  queue : List (Option Nat × List Char)
  queries : Nat → Query

/-- A query may find the queue of the daemon full, and other datagrams come from other sockets. -/
inductive Action where
  | ask (pid : Nat) (exe : Path) (sent : Bool)
  | post (datagram : List Char)
  | handle (now : List Char)
  | receive (pid : Nat)
  | timeout (pid : Nat)
  | save (call : SaveCall)

/-- The process makes a query of its own. -/
def Action.Asks (pid : Nat) : Action → Prop
  | ask other _ _ => other = pid
  | _ => False

/-- A socket takes an answer while its process waits. -/
def Query.deliver (reply : List Char) : Query → Query
  | waiting exe inbox => waiting exe (inbox ++ [reply])
  | query => query

/-- `recvfrom`, where a datagram has arrived. -/
def Query.receive : Query → Query
  | waiting exe (reply :: _) => answered exe reply
  | query => query

/-- `poll` gives up, or the process ends. -/
def Query.giveUp : Query → Query
  | waiting exe _ => passive exe
  | query => query

section
variable {File : Type} (host : Host File) (hash : List Char → List Char)
  (json : Reply → List Char)

/-- The bytes of an answer; `json` gives those of a value. -/
def encoded : Reply → List Char
  | .text line => utf8 line
  | reply => json reply

namespace System

def setQuery (system : System File) (pid : Nat) (change : Query → Query) : System File :=
  { system with queries := Function.update system.queries pid (change (system.queries pid)) }

/-- One round of the main loop of the daemon. -/
def handle (system : System File) (now : List Char) : System File :=
  match system.queue with
  | [] => system
  | (sender, datagram) :: queue =>
      let system := { system with queue }
      match handleMessage host hash system.links now system.daemon (received datagram) with
      | none => system
      | some (daemon, reply) =>
          match sender with
          | none => { system with daemon }
          | some pid => { system with daemon }.setQuery pid (.deliver (encoded json reply))

def step (system : System File) : Action → System File
  | .ask pid exe sent =>
      { system.setQuery pid (fun _ => .waiting exe []) with
        queue := system.queue ++ if sent then [(some pid, lookupMessage pid exe)] else [] }
  | .post datagram => { system with queue := system.queue ++ [(none, datagram)] }
  | .handle now => system.handle host hash json now
  | .receive pid => system.setQuery pid .receive
  | .timeout pid => system.setQuery pid .giveUp
  | .save call => { system with links := savedLinks host hash system.links call }

/-- No query yet, and nothing on the socket. -/
def initial (daemon : KumfDaemon) (links : Links File) : System File :=
  ⟨daemon, links, [], fun _ => .unasked⟩

/-- The condition on a step: a process id asks for a file, and no earlier question from its
socket is on the way.
-/
def Orderly (system : System File) : Action → Prop
  | .ask pid exe _ =>
      pid < 2 ^ 31 ∧ FilePath exe ∧ ∀ sent ∈ system.queue, sent.1 ≠ some pid
  | _ => True

/-- What the daemon answers at the moment to the query of a process that runs `exe`. -/
def answer (system : System File) (exe : Path) : List Char :=
  let name := lookupConf (hash (readBack exe))
  if host.finds system.links name then
    utf8 (configLine system.daemon.topology.nodes (host.inStateDir name))
  else
    utf8 "NOCONFIG".toList

end System
end

-----------------------------------------------------------------------------------------
-- What the daemon makes of a question
-----------------------------------------------------------------------------------------

section
variable {File : Type} {host : Host File} {hash : List Char → List Char}
  {json : Reply → List Char}

/-- A question changes nothing in the daemon, and is answered. -/
theorem handleMessage_question (links : Links File) (now : List Char) (daemon : KumfDaemon)
    {pid : Nat} {exe : Path} (small : pid < 2 ^ 31) (file : FilePath exe)
    : handleMessage host hash links now daemon (received (lookupMessage pid exe))
      = some (daemon, .text
          (let name := lookupConf (hash (readBack exe))
          if host.finds links name then
            configLine daemon.topology.nodes (host.inStateDir name)
          else
            "NOCONFIG".toList)) := by
  have reply : lookupReply host hash links daemon
      ["LOOKUP".toList, Nat.toDigits 10 pid, decodeUtf8 (exe.take 255)]
      = (let name := lookupConf (hash (readBack exe))
        if host.finds links name then
          configLine daemon.topology.nodes (host.inStateDir name)
        else
          "NOCONFIG".toList) := rfl
  rw [← reply]
  unfold handleMessage
  rw [received_lookup small file, lookup_parts]
  simp

/-- The answer is the line that names the configuration, as bytes. -/
theorem encoded_answer (system : System File) (exe : Path)
    : encoded json (.text
        (let name := lookupConf (hash (readBack exe))
        if host.finds system.links name then
          configLine system.daemon.topology.nodes (host.inStateDir name)
        else
          "NOCONFIG".toList))
      = system.answer host hash exe := by
  dsimp only [encoded, System.answer]
  split <;> rfl

-----------------------------------------------------------------------------------------
-- Answers over a run
-----------------------------------------------------------------------------------------

/-- The latest query of a process, for the executable that it runs, and its question was sent. -/
def LastAsked (past : List Action) (pid : Nat) (exe : Path) : Prop :=
  ∃ before since, past = before ++ .ask pid exe true :: since
    ∧ ∀ action ∈ since, ¬ action.Asks pid

variable (host hash json)

/-- With its next round the daemon answers the latest query of a process that waits for it. -/
structure Answers (start : System File) (past : List Action) (pid : Nat) (exe : Path)
    (reply : List Char)
    : Prop where
  asked : LastAsked past pid exe
  waiting : (past.foldl (System.step host hash json) start).queries pid = .waiting exe []
  head
    : (past.foldl (System.step host hash json) start).queue.head?
      = some (some pid, lookupMessage pid exe)
  same : reply = (past.foldl (System.step host hash json) start).answer host hash exe

/-- At some moment of a run the daemon gave this answer to the query of a process, which has made
no other query since.
-/
def Justified (start : System File) (past : List Action) (pid : Nat) (exe : Path)
    (reply : List Char)
    : Prop :=
  ∃ front now back, past = front ++ Action.handle now :: back
    ∧ Answers host hash json start front pid exe reply
    ∧ ∀ action ∈ back, ¬ action.Asks pid

/-- What a query may have in its socket and on the way to the daemon. -/
def Tracks (asked : Path → Prop) (justified : Path → List Char → Prop)
    (pending : List (Option Nat × List Char)) (pid : Nat)
    : Query → Prop
  | .unasked => True
  | .waiting exe inbox =>
      pid < 2 ^ 31 ∧ FilePath exe
      ∧ (inbox = [] ∧ asked exe ∧ pending = [(some pid, lookupMessage pid exe)]
        ∨ pending = [] ∧ ∀ reply ∈ inbox, justified exe reply)
  | .answered exe reply => justified exe reply
  | .passive _ => True

/-- The datagrams on the way that came from the query socket of a process. -/
def System.pending (system : System File) (pid : Nat) : List (Option Nat × List Char) :=
  system.queue.filter (fun sent => sent.1 = some pid)

def Tracked (start : System File) (past : List Action) (system : System File) : Prop :=
  ∀ pid, Tracks (LastAsked past pid) (Justified host hash json start past pid)
    (system.pending pid) pid (system.queries pid)

variable {host hash json} {start : System File} {past : List Action}

/-- Silence goes on with an action that asks nothing. -/
theorem not_asks_concat {pid : Nat} {actions : List Action} {action : Action}
    (silent : ∀ earlier ∈ actions, ¬ earlier.Asks pid) (also : ¬ action.Asks pid)
    : ∀ earlier ∈ actions ++ [action], ¬ earlier.Asks pid := by
  intro earlier member
  rcases List.mem_append.mp member with before | last
  · exact silent earlier before
  · rwa [List.mem_singleton.mp last]

/-- A process that is silent asked last what it asked before. -/
theorem LastAsked.later {pid : Nat} {exe : Path} {action : Action} (silent : ¬ action.Asks pid)
    (asked : LastAsked past pid exe)
    : LastAsked (past ++ [action]) pid exe := by
  obtain ⟨before, since, split, others⟩ := asked
  exact ⟨before, since ++ [action], by simp [split], not_asks_concat others silent⟩

/-- An answer stays justified while the process is silent. -/
theorem Justified.later {pid : Nat} {exe : Path} {reply : List Char} {action : Action}
    (silent : ¬ action.Asks pid) (justified : Justified host hash json start past pid exe reply)
    : Justified host hash json start (past ++ [action]) pid exe reply := by
  obtain ⟨front, now, back, split, answers, others⟩ := justified
  exact ⟨front, now, back ++ [action], by simp [split], answers, not_asks_concat others silent⟩

/-- Whatever follows from what was asked and answered is tracked as well. -/
theorem Tracks.imp {asked also : Path → Prop} {justified later : Path → List Char → Prop}
    (keeps : ∀ exe, asked exe → also exe)
    (gives : ∀ exe reply, justified exe reply → later exe reply)
    {pending : List (Option Nat × List Char)} {pid : Nat} {query : Query}
    (tracks : Tracks asked justified pending pid query)
    : Tracks also later pending pid query := by
  cases query with
  | unasked => trivial
  | waiting exe inbox =>
      obtain ⟨small, file, either⟩ := tracks
      refine ⟨small, file, ?_⟩
      rcases either with ⟨empty, asks, only⟩ | ⟨none_, arrived⟩
      · exact .inl ⟨empty, keeps exe asks, only⟩
      · exact .inr ⟨none_, fun reply member => gives exe reply (arrived reply member)⟩
  | answered exe reply => exact gives exe reply tracks
  | passive exe => trivial

/-- A process that takes an answer or gives up. -/
theorem Tracks.receive {asked : Path → Prop} {justified : Path → List Char → Prop}
    {pending : List (Option Nat × List Char)} {pid : Nat} {query : Query}
    (tracks : Tracks asked justified pending pid query)
    : Tracks asked justified pending pid query.receive := by
  cases query with
  | unasked => trivial
  | waiting exe inbox =>
      cases inbox with
      | nil => exact tracks
      | cons reply rest =>
          rcases tracks.2.2 with ⟨empty, _⟩ | ⟨_, justified⟩
          · cases empty
          · exact justified reply List.mem_cons_self
  | answered exe reply => exact tracks
  | passive exe => trivial

/-- A query given up is not waited for. -/
theorem Tracks.giveUp {asked : Path → Prop} {justified : Path → List Char → Prop}
    {pending : List (Option Nat × List Char)} {pid : Nat} {query : Query}
    (tracks : Tracks asked justified pending pid query)
    : Tracks asked justified pending pid query.giveUp := by
  cases query with
  | unasked => trivial
  | waiting exe inbox => trivial
  | answered exe reply => exact tracks
  | passive exe => trivial

/-- A step on the query of one process. -/
theorem tracked_setQuery {system : System File}
    (tracked : Tracked host hash json start past system) (pid : Nat) {change : Query → Query}
    (tracks : Tracks (LastAsked past pid) (Justified host hash json start past pid)
      (system.pending pid) pid (change (system.queries pid)))
    : Tracked host hash json start past (system.setQuery pid change) := by
  intro other
  by_cases same : other = pid
  · rw [same]
    simpa [System.setQuery, System.pending] using tracks
  · simpa [System.setQuery, System.pending, same] using tracked other

/-- Only a new query of the process takes away what its earlier one rests on. -/
theorem Tracked.later {system : System File} {action : Action} {pid : Nat}
    (silent : ¬ action.Asks pid) (tracked : Tracked host hash json start past system)
    : Tracks (LastAsked (past ++ [action]) pid)
        (Justified host hash json start (past ++ [action]) pid) (system.pending pid) pid
        (system.queries pid) :=
  (tracked pid).imp (fun _ asked => asked.later silent)
  (fun _ _ justified => justified.later silent)

/-- What is on the way from a process stays the same when a datagram of another sender leaves. -/
theorem pending_of_other {system : System File} {sender : Option Nat} {datagram : List Char}
    {queue : List (Option Nat × List Char)} (next : system.queue = (sender, datagram) :: queue)
    {pid : Nat} (other : sender ≠ some pid) (daemon : KumfDaemon)
    : ({ system with queue, daemon } : System File).pending pid = system.pending pid := by
  simp [System.pending, next, other]

/-- The question of a waiting process is the only one of its socket on the way. -/
theorem Tracks.question {asked : Path → Prop} {justified : Path → List Char → Prop}
    {system : System File} {pid : Nat} {datagram : List Char}
    {queue : List (Option Nat × List Char)} {exe : Path} {inbox : List (List Char)}
    (next : system.queue = (some pid, datagram) :: queue)
    (tracks : Tracks asked justified (system.pending pid) pid (.waiting exe inbox))
    : inbox = [] ∧ asked exe ∧ datagram = lookupMessage pid exe
      ∧ queue.filter (fun sent => sent.1 = some pid) = [] := by
  have head : system.pending pid
      = (some pid, datagram) :: queue.filter (fun sent => sent.1 = some pid) := by
    simp [System.pending, next]
  rcases tracks.2.2 with ⟨empty, asks, only⟩ | ⟨none_, _⟩
  · obtain ⟨same, rest⟩ := List.cons.inj (head.symm.trans only)
    exact ⟨empty, asks, congrArg Prod.snd same, rest⟩
  · cases head.symm.trans none_

/-- A query that does not wait has nothing to do with what is on the way. -/
theorem Tracks.of_not_waiting {asked : Path → Prop} {justified : Path → List Char → Prop}
    {pending other : List (Option Nat × List Char)} {pid : Nat} {query : Query}
    (notWaiting : ∀ exe inbox, query ≠ .waiting exe inbox)
    (tracks : Tracks asked justified pending pid query)
    : Tracks asked justified other pid query := by
  cases query with
  | unasked => trivial
  | waiting exe inbox => exact absurd rfl (notWaiting exe inbox)
  | answered exe reply => exact tracks
  | passive exe => trivial

/-- A datagram no query waits for is dropped. -/
theorem deliver_of_not_waiting {query : Query} (reply : List Char)
    (notWaiting : ∀ exe inbox, query ≠ .waiting exe inbox)
    : query.deliver reply = query := by
  cases query with
  | waiting exe inbox => exact absurd rfl (notWaiting exe inbox)
  | unasked => rfl
  | answered exe reply => rfl
  | passive exe => rfl

section
variable {system : System File} {now : List Char}
  (reached : past.foldl (System.step host hash json) start = system)
  (tracked : Tracked host hash json start past system)

include tracked in
/-- What another process relies on when a datagram leaves. -/
theorem tracks_other {sender : Option Nat} {datagram : List Char}
    {queue : List (Option Nat × List Char)} (next : system.queue = (sender, datagram) :: queue)
    {pid : Nat} (other : sender ≠ some pid) (daemon : KumfDaemon)
    : Tracks (LastAsked (past ++ [.handle now]) pid)
        (Justified host hash json start (past ++ [.handle now]) pid)
        (({ system with queue, daemon } : System File).pending pid) pid (system.queries pid) := by
  rw [pending_of_other next other daemon]
  exact tracked.later id

include reached tracked in
/-- The daemon answers a waiting process. -/
theorem tracked_answer {pid : Nat} {datagram : List Char}
    {queue : List (Option Nat × List Char)} {exe : Path} {inbox : List (List Char)}
    (next : system.queue = (some pid, datagram) :: queue)
    (waiting : system.queries pid = .waiting exe inbox)
    : Tracked host hash json start (past ++ [.handle now]) (system.handle host hash json now) := by
  have tracks := tracked pid
  rw [waiting] at tracks
  obtain ⟨rfl, asked, rfl, none_⟩ := tracks.question next
  obtain ⟨small, file, _⟩ := tracks
  have answers : Answers host hash json start past pid exe (system.answer host hash exe) := by
    subst reached
    exact ⟨asked, waiting, by rw [next]; rfl, rfl⟩
  have arrived : Justified host hash json start (past ++ [.handle now]) pid exe
      (system.answer host hash exe) :=
    ⟨past, now, [], rfl, answers, fun action member => absurd member List.not_mem_nil⟩
  unfold System.handle
  rw [next]
  dsimp only
  rw [handleMessage_question _ now _ small file]
  dsimp only
  rw [encoded_answer system exe]
  intro other
  by_cases same : other = pid
  · rw [same]
    simpa [System.setQuery, waiting, Query.deliver, System.pending, none_, Tracks, file]
      using And.intro small arrived
  · have unchanged : (({ system with queue } : System File).setQuery pid
        (.deliver (system.answer host hash exe))).queries other
        = system.queries other :=
      Function.update_of_ne same ..
    rw [unchanged]
    exact tracks_other tracked next (by simpa using Ne.symm same) system.daemon

include tracked in
/-- A datagram of a process that does not wait for an answer leaves. -/
theorem tracked_drop {pid : Nat} {datagram : List Char}
    {queue : List (Option Nat × List Char)} (next : system.queue = (some pid, datagram) :: queue)
    (notWaiting : ∀ exe inbox, system.queries pid ≠ .waiting exe inbox) (daemon : KumfDaemon)
    : Tracked host hash json start (past ++ [.handle now])
        ({ system with queue, daemon } : System File) := by
  intro other
  by_cases same : other = pid
  · rw [same]
    exact (tracked.later id).of_not_waiting notWaiting
  · exact tracks_other tracked next (by simpa using Ne.symm same) daemon

include reached tracked in
/-- The daemon answers the datagram at the head of its queue. -/
theorem tracked_handle
    : Tracked host hash json start (past ++ [.handle now]) (system.handle host hash json now) := by
  cases next : system.queue with
  | nil =>
      rw [System.handle, next]
      exact fun pid => tracked.later id
  | cons first queue =>
      obtain ⟨sender, datagram⟩ := first
      cases sender with
      | none =>
          rw [System.handle, next]
          dsimp only
          split
          case h_1 => exact fun pid => tracks_other tracked next (by simp) system.daemon
          case h_2 daemon reply _ => exact fun pid => tracks_other tracked next (by simp) daemon
      | some pid =>
          by_cases waits : ∃ exe inbox, system.queries pid = .waiting exe inbox
          · obtain ⟨exe, inbox, waiting⟩ := waits
            exact tracked_answer reached tracked next waiting
          · have notWaiting : ∀ exe inbox, system.queries pid ≠ .waiting exe inbox :=
              fun exe inbox waiting => waits ⟨exe, inbox, waiting⟩
            rw [System.handle, next]
            dsimp only
            split
            case h_1 => exact tracked_drop tracked next notWaiting system.daemon
            case h_2 daemon reply _ =>
                refine tracked_setQuery (tracked_drop tracked next notWaiting daemon) pid ?_
                rw [deliver_of_not_waiting _ notWaiting]
                exact tracked_drop tracked next notWaiting daemon pid

end

/-- A new query is put on the way, and the last one of its process is over. -/
theorem tracked_ask {system : System File} (tracked : Tracked host hash json start past system)
    {pid : Nat} {exe : Path} {sent : Bool} (orderly : system.Orderly (.ask pid exe sent))
    : Tracked host hash json start (past ++ [.ask pid exe sent])
        (system.step host hash json (.ask pid exe sent)) := by
  obtain ⟨small, file, quiet⟩ := orderly
  have none_ : system.queue.filter (fun asked => asked.1 = some pid) = [] := by
    refine List.filter_eq_nil_iff.mpr (fun asked member => ?_)
    simpa using quiet asked member
  intro other
  by_cases same : other = pid
  · rw [same]
    have asks : (system.step host hash json (.ask pid exe sent)).queries pid
        = .waiting exe [] :=
      Function.update_self ..
    rw [asks]
    refine ⟨small, file, ?_⟩
    cases sent with
    | true =>
        have last : LastAsked (past ++ [.ask pid exe true]) pid exe :=
          ⟨past, [], rfl, fun action member => absurd member List.not_mem_nil⟩
        exact .inl ⟨rfl, last, by simp [System.step, System.setQuery, System.pending, none_]⟩
    | false =>
        refine .inr ⟨by simpa [System.step, System.setQuery, System.pending] using none_, ?_⟩
        exact fun reply member => absurd member List.not_mem_nil
  · have silent : ¬ (Action.ask pid exe sent).Asks other := Ne.symm same
    have tracks := tracked.later silent
    cases sent <;>
      simpa [System.step, System.setQuery, System.pending, same, Ne.symm same] using tracks

/-- Every orderly step keeps track. -/
theorem tracked_step {action : Action}
    (tracked : Tracked host hash json start past (past.foldl (System.step host hash json) start))
    (orderly : (past.foldl (System.step host hash json) start).Orderly action)
    : Tracked host hash json start (past ++ [action])
        ((past.foldl (System.step host hash json) start).step host hash json action) := by
  cases action with
  | ask pid exe sent => exact tracked_ask tracked orderly
  | post datagram =>
      intro pid
      have silent : ¬ (Action.post datagram).Asks pid := id
      have later := tracked.later silent
      simpa [System.step, System.pending] using later
  | handle now => exact tracked_handle rfl tracked
  | receive pid =>
      exact tracked_setQuery (fun other => tracked.later id) pid (tracked.later id).receive
  | timeout pid =>
      exact tracked_setQuery (fun other => tracked.later id) pid (tracked.later id).giveUp
  | save call => exact fun pid => tracked.later id

end

/-- An answer that is read is the one to the reader's last question. -/
theorem answer_own {File : Type} {host : Host File} {hash : List Char → List Char}
    {json : Reply → List Char} {daemon : KumfDaemon} {links : Links File} {actions : List Action}
    (run : Along (System.step host hash json) System.Orderly (System.initial daemon links) actions)
    {pid : Nat} {exe : Path} {reply : List Char}
    (answered : (actions.foldl (System.step host hash json)
      (System.initial daemon links)).queries pid = .answered exe reply)
    : Justified host hash json (System.initial daemon links) actions pid exe reply := by
  have tracked : Tracked host hash json (System.initial daemon links) actions _ :=
    Along.history _ (fun _ _ tracked orderly => tracked_step tracked orderly) (fun _ => trivial)
      run
  have tracks := tracked pid
  rw [answered] at tracks
  exact tracks

/-- Every answer that a query takes is one that the daemon gave to this very query, for its own
executable and from the profiles of that moment, whatever other processes ask or save. Witness:
the round in which the daemon took its question off the queue.
-/
theorem run_answers_own {File : Type} (host : Host File) (hash : List Char → List Char)
    (json : Reply → List Char) (daemon : KumfDaemon) (links : Links File) (actions : List Action)
    (run : Along (System.step host hash json) System.Orderly (System.initial daemon links) actions)
    (pid : Nat) (exe : Path) (reply : List Char)
    (answered : (actions.foldl (System.step host hash json)
      (System.initial daemon links)).queries pid = .answered exe reply)
    : Justified host hash json (System.initial daemon links) actions pid exe reply :=
  answer_own run answered

instance {File : Type} (system : System File) : ∀ action, Decidable (system.Orderly action)
  | .ask pid exe _ =>
      inferInstanceAs (Decidable (pid < 2 ^ 31 ∧ FilePath exe
        ∧ ∀ sent ∈ system.queue, sent.1 ≠ some pid))
  | .post _ => isTrue trivial
  | .handle _ => isTrue trivial
  | .receive _ => isTrue trivial
  | .timeout _ => isTrue trivial
  | .save _ => isTrue trivial

/-- A shell and a profiled program ask at the same time, behind a registration. -/
def shellAndApp : List Action :=
  [.save (saveApp "/home/user/out/kumf.conf".toList), .post "REG:6:2".toList,
    .ask 7 "/usr/bin/app".toList true, .ask 8 "/bin/sh".toList true, .handle [], .handle [],
    .handle [], .receive 8, .receive 7]

theorem shellAndApp_own
    : Justified homeHost twoHashes (fun _ => []) (System.initial appDaemon (fun _ => none))
        shellAndApp 7 "/usr/bin/app".toList
        (utf8 (configLine [0, 1] "/tmp/kumf_daemon/lookup_26d35b61.conf".toList)) :=
  run_answers_own homeHost twoHashes (fun _ => []) appDaemon (fun _ => none) shellAndApp
    (by decide +kernel) 7 "/usr/bin/app".toList _ (by decide +kernel)

/-- The shell gives up and the same process goes on as the program: it takes the late answer to
the shell.
-/
theorem lateAnswer_taken
    : (([.save (saveApp "/home/user/out/kumf.conf".toList), .ask 7 "/bin/sh".toList true,
          .timeout 7, .ask 7 "/usr/bin/app".toList true, .handle [], .receive 7]
            : List Action).foldl
        (System.step homeHost twoHashes (fun _ => []))
        (System.initial appDaemon (fun _ => none))).queries 7
      = .answered "/usr/bin/app".toList "NOCONFIG".toList := by
  decide +kernel

end Kumf.Daemon.Queries
