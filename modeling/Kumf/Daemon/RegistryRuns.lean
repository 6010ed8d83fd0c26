import Kumf.Daemon.Registry
import Kumf.Library.Runs

/-! Once nothing is on the way, every registry is the set of its live processes, as long as only
processes on the default socket exit, and a process id that is used again is registered again
only after the messages of its old process.
-/

namespace Kumf.Daemon

open Kumf.Library
open Kumf.Interc (kumfSockPath sunPath)

/-- A live process that registers with a daemon. -/
def Instance.belongs (path : Path) (pid : Int) (inst : Instance) : Bool :=
  inst.live && decide ((inst.proc.pid : Int) = pid) && decide (inst.proc.socket = path)

namespace System

/-- What is assumed of the system: the id of a live process is not given to another one. -/
def Possible (system : System) : Action → Prop
  | .start proc => ∀ inst ∈ system.procs, inst.proc.pid = proc.pid → inst.live = false
  | _ => True

/-- The condition on a step: a process that exits uses the default socket, and a message
reaches a daemon after those of earlier processes with the same id.
-/
def Orderly (system : System) : Action → Prop
  | .start _ => True
  | .exit index => ∀ inst ∈ system.procs[index]?,
      inst.live = true → inst.proc.socket = kumfSockPath
  | .deliver index _ => ∀ inst ∈ system.procs[index]?, ∀ notice ∈ inst.outbox.head?,
      ∀ earlier ∈ system.procs.take index,
        earlier.proc.pid = inst.proc.pid
        → ∀ other ∈ earlier.outbox, other.dest earlier.proc ≠ notice.dest inst.proc

instance (system : System) : (action : Action) → Decidable (system.Possible action)
  | .start _ => inferInstanceAs (Decidable (∀ inst ∈ system.procs, _))
  | .exit _ => isTrue trivial
  | .deliver _ _ => isTrue trivial

instance (system : System) : (action : Action) → Decidable (system.Orderly action)
  | .start _ => isTrue trivial
  | .exit index => inferInstanceAs (Decidable (∀ inst ∈ system.procs[index]?, _))
  | .deliver index _ => inferInstanceAs (Decidable (∀ inst ∈ system.procs[index]?, _))

-----------------------------------------------------------------------------------------
-- The invariant
-----------------------------------------------------------------------------------------

/-- The messages of a process about an id that are on the way to a daemon. -/
def onTheWay (path : Path) (pid : Int) (inst : Instance) : List Notice :=
  if (inst.proc.pid : Int) = pid then
    inst.outbox.filter (fun notice => notice.dest inst.proc = path)
  else
    []

/-- Whether an id is registered after some messages about it. -/
def settled (registered : Bool) (notices : List Notice) : Bool :=
  notices.foldl (fun _ notice => notice.registers) registered

/-- Every registry will agree with the live processes, and a live process has the last messages
about its id.
-/
structure Consistent (system : System) : Prop where
  alone : system.procs.Pairwise
    (fun earlier later => earlier.proc.pid = later.proc.pid → earlier.live = false)
  settles : ∀ path pid,
    settled ((system.daemons path).registers pid) (system.procs.flatMap (onTheWay path pid))
      = system.procs.any (Instance.belongs path pid)

/-- Notices settle one after another. -/
theorem settled_append (registered : Bool) (front back : List Notice)
    : settled registered (front ++ back) = settled (settled registered front) back :=
  List.foldl_append

/-- A step on one process leaves the others in place. -/
theorem procs_split {procs : List Instance} {index : Nat} {inst : Instance}
    (found : procs[index]? = some inst) (change : Instance → Instance)
    : ∃ front back,
        procs = front ++ inst :: back
        ∧ procs.take index = front
        ∧ procs.modify index change = front ++ change inst :: back := by
  have inside : index < procs.length := (List.getElem?_eq_some_iff.mp found).1
  obtain ⟨front, other, back, same, length, changed⟩ := List.exists_of_modify change inside
  have here : procs[index]? = some other := by
    rw [same, ← length, List.getElem?_append_right (Nat.le_refl _), Nat.sub_self]
    rfl
  obtain rfl := Option.some.inj (here.symm.trans found)
  exact ⟨front, back, same, by rw [same, ← length, List.take_left], changed⟩

/-- Around a process, no other live one has its id. -/
theorem Consistent.around {system : System} (consistent : system.Consistent)
    {front back : List Instance} {inst : Instance} (split : system.procs = front ++ inst :: back)
    : (∀ earlier ∈ front, earlier.proc.pid = inst.proc.pid → earlier.live = false)
      ∧ (inst.live = true → ∀ later ∈ back, later.proc.pid ≠ inst.proc.pid) := by
  have alone := consistent.alone
  rw [split, List.pairwise_append] at alone
  obtain ⟨-, tail, across⟩ := alone
  refine ⟨fun earlier member => across earlier member inst List.mem_cons_self, ?_⟩
  intro live later member same
  rw [(List.pairwise_cons.mp tail).1 later member same.symm] at live
  cases live

/-- A process may change in place as long as it does not come back to life. -/
theorem alone_change {front back : List Instance} {inst changed : Instance}
    (alone : (front ++ inst :: back).Pairwise
      (fun earlier later => earlier.proc.pid = later.proc.pid → earlier.live = false))
    (same : changed.proc = inst.proc) (dies : inst.live = false → changed.live = false)
    : (front ++ changed :: back).Pairwise
        (fun earlier later => earlier.proc.pid = later.proc.pid → earlier.live = false) := by
  obtain ⟨first, tail, across⟩ := List.pairwise_append.mp alone
  obtain ⟨here, last⟩ := List.pairwise_cons.mp tail
  refine List.pairwise_append.mpr ⟨first, List.pairwise_cons.mpr ⟨?_, last⟩, ?_⟩
  · intro later member equal
    rw [same] at equal
    exact dies (here later member equal)
  · intro earlier member later inTail equal
    rcases List.mem_cons.mp inTail with rfl | inBack
    · rw [same] at equal
      exact across earlier member inst List.mem_cons_self equal
    · exact across earlier member later (List.mem_cons_of_mem inst inBack) equal

/-- Another process has nothing on the way for a pid. -/
theorem onTheWay_other {path : Path} {pid : Int} {inst : Instance}
    (other : (inst.proc.pid : Int) ≠ pid)
    : onTheWay path pid inst = [] :=
  if_neg other

/-- Who belongs to a socket under a pid. -/
theorem belongs_iff {path : Path} {pid : Int} {inst : Instance}
    : inst.belongs path pid = true
      ↔ inst.live = true ∧ inst.proc.socket = path ∧ (inst.proc.pid : Int) = pid := by
  simp only [Instance.belongs, Bool.and_eq_true, decide_eq_true_eq, and_assoc]
  exact and_congr_right (fun _ => and_comm)

/-- A process of another pid does not belong. -/
theorem belongs_other {path : Path} {pid : Int} {inst : Instance}
    (other : (inst.proc.pid : Int) ≠ pid)
    : inst.belongs path pid = false := by
  simp [Instance.belongs, other]

/-- A process that is dead does not belong. -/
theorem belongs_dead {path : Path} {pid : Int} {inst : Instance} (dead : inst.live = false)
    : inst.belongs path pid = false := by
  simp [Instance.belongs, dead]

theorem dest_reg (proc : Proc) : Notice.dest proc .reg = proc.socket :=
  List.take_of_length_le proc.socket_fits

/-- A leave-taking goes to the default socket. -/
theorem dest_dereg (proc : Proc) : Notice.dest proc .dereg = kumfSockPath :=
  List.take_of_length_le (by decide)

-----------------------------------------------------------------------------------------
-- What the steps keep
-----------------------------------------------------------------------------------------

section
variable {File : Type} {host : Host File} {hash : List Char → List Char} {links : Links File}
  {system : System}

/-- The message of a new process registers it. -/
theorem settled_start (registered : Bool) (path : Path) (pid : Int) (proc : Proc)
    : settled registered (onTheWay path pid ⟨proc, true, [.reg]⟩)
      = (registered || Instance.belongs path pid ⟨proc, true, [.reg]⟩) := by
  by_cases same : (proc.pid : Int) = pid
  · by_cases here : proc.socket = path
    · simp [onTheWay, Instance.belongs, same, dest_reg, here, settled, Notice.registers]
    · simp [onTheWay, Instance.belongs, same, dest_reg, here, settled]
  · simp [onTheWay, Instance.belongs, same, settled]

/-- A start keeps the registry consistent. -/
theorem start_consistent (consistent : system.Consistent) {proc : Proc}
    (possible : system.Possible (.start proc))
    : (step host hash links system (.start proc)).Consistent := by
  constructor
  · refine List.pairwise_append.mpr ⟨consistent.alone, List.pairwise_singleton _ _, ?_⟩
    intro earlier member later inLast same
    rw [List.mem_singleton.mp inLast] at same
    exact possible earlier member same
  · intro path pid
    have before := consistent.settles path pid
    rw [step, List.flatMap_append, List.flatMap_singleton, settled_append, before, settled_start,
      List.any_append, List.any_cons, List.any_nil, Bool.or_false]

/-- A live process is the only one with its id that belongs to a registry, and nothing is on the
way from later ones.
-/
theorem Consistent.around_live {front back : List Instance} {inst : Instance}
    (consistent : system.Consistent) (split : system.procs = front ++ inst :: back)
    (live : inst.live = true) {pid : Int} (same : (inst.proc.pid : Int) = pid) (path : Path)
    : front.any (Instance.belongs path pid) = false
      ∧ back.any (Instance.belongs path pid) = false
      ∧ back.flatMap (onTheWay path pid) = [] := by
  obtain ⟨earlierDead, laterOther⟩ := consistent.around split
  have otherBack : ∀ later ∈ back, (later.proc.pid : Int) ≠ pid :=
    fun later member equal => laterOther live later member (by omega)
  refine ⟨List.any_eq_false.mpr ?_, List.any_eq_false.mpr ?_, List.flatMap_eq_nil_iff.mpr ?_⟩
  · intro earlier member belongs
    by_cases equal : (earlier.proc.pid : Int) = pid
    · rw [belongs_dead (earlierDead earlier member (by omega))] at belongs
      cases belongs
    · rw [belongs_other equal] at belongs
      cases belongs
  · intro later member belongs
    rw [belongs_other (otherBack later member)] at belongs
    cases belongs
  · exact fun later member => onTheWay_other (otherBack later member)

/-- The exit of a live process on the default socket. -/
theorem settles_exit {front back : List Instance} {inst : Instance}
    (consistent : system.Consistent) (split : system.procs = front ++ inst :: back)
    (live : inst.live = true) (default_ : inst.proc.socket = kumfSockPath)
    (path : Path) (pid : Int)
    : settled ((system.daemons path).registers pid)
        ((front ++ inst.exit :: back).flatMap (onTheWay path pid))
      = (front ++ inst.exit :: back).any (Instance.belongs path pid) := by
  have before := consistent.settles path pid
  have exits : inst.exit = ⟨inst.proc, false, inst.outbox ++ [.dereg]⟩ := if_pos live
  rw [split] at before
  rw [exits]
  by_cases same : (inst.proc.pid : Int) = pid
  · obtain ⟨noneFront, noneBack, quiet⟩ := consistent.around_live split live same path
    have sent : onTheWay path pid ⟨inst.proc, false, inst.outbox ++ [.dereg]⟩
        = onTheWay path pid inst ++ if kumfSockPath = path then [.dereg] else [] := by
      simp [onTheWay, same, List.filter_append, List.filter_singleton, dest_dereg]
    have gone : (front ++ ⟨inst.proc, false, inst.outbox ++ [.dereg]⟩ :: back).any
        (Instance.belongs path pid) = false := by
      simp [noneFront, noneBack, belongs_dead]
    have was : settled ((system.daemons path).registers pid)
        (front.flatMap (onTheWay path pid) ++ onTheWay path pid inst)
        = inst.belongs path pid := by
      simpa [quiet, noneFront, noneBack] using before
    rw [gone, List.flatMap_append, List.flatMap_cons, quiet, List.append_nil, sent,
      ← List.append_assoc, settled_append, was]
    split_ifs with here
    · rfl
    · simp [settled, Instance.belongs, default_, here]
  · have other
        : ((⟨inst.proc, false, inst.outbox ++ [.dereg]⟩ : Instance).proc.pid : Int) ≠ pid :=
      same
    simpa [onTheWay_other same, onTheWay_other other, belongs_other same, belongs_other other]
      using before

/-- An exit keeps it consistent. -/
theorem exit_consistent (consistent : system.Consistent) {index : Nat}
    (orderly : system.Orderly (.exit index))
    : (step host hash links system (.exit index)).Consistent := by
  cases found : system.procs[index]? with
  | none =>
      have outside : system.procs.length ≤ index := List.getElem?_eq_none_iff.mp found
      rw [step, List.modify_eq_self outside]
      exact consistent
  | some inst =>
      obtain ⟨front, back, split, -, changed⟩ := procs_split found Instance.exit
      rw [step, changed]
      cases live : inst.live with
      | false =>
          have stays : inst.exit = inst := if_neg (by simp [live])
          rw [stays, ← split]
          exact consistent
      | true =>
          have settles := settles_exit consistent split live (orderly inst found live)
          refine ⟨alone_change (split ▸ consistent.alone) ?_ ?_, settles⟩
          · simp [Instance.exit, live]
          · simp [live]

/-- A message that reaches its daemon in front of all others about its id. -/
theorem settles_sent {front back : List Instance} {inst : Instance} {notice : Notice}
    {rest : List Notice} (consistent : system.Consistent)
    (split : system.procs = front ++ inst :: back) (outbox : inst.outbox = notice :: rest)
    (first : ∀ earlier ∈ front,
      earlier.proc.pid = inst.proc.pid
      → ∀ other ∈ earlier.outbox, other.dest earlier.proc ≠ notice.dest inst.proc)
    {daemon : KumfDaemon}
    (received : ∀ pid : Int,
      daemon.registers pid = if (inst.proc.pid : Int) = pid then notice.registers
        else (system.daemons (notice.dest inst.proc)).registers pid)
    (path : Path) (pid : Int)
    : settled ((Function.update system.daemons (notice.dest inst.proc) daemon path).registers pid)
        ((front ++ inst.sent :: back).flatMap (onTheWay path pid))
      = (front ++ inst.sent :: back).any (Instance.belongs path pid) := by
  have before := consistent.settles path pid
  have belongs : inst.sent.belongs path pid = inst.belongs path pid := rfl
  have proc : inst.sent.proc = inst.proc := rfl
  rw [split, List.any_append, List.any_cons, List.flatMap_append, List.flatMap_cons] at before
  rw [List.any_append, List.any_cons, belongs, ← before, List.flatMap_append, List.flatMap_cons]
  by_cases same : (inst.proc.pid : Int) = pid
  · have left : onTheWay path pid inst.sent
        = rest.filter (fun other => other.dest inst.proc = path) := by
      simp [onTheWay, Instance.sent, same, outbox]
    by_cases here : notice.dest inst.proc = path
    · have quiet : front.flatMap (onTheWay path pid) = [] := by
        refine List.flatMap_eq_nil_iff.mpr (fun earlier member => ?_)
        by_cases equal : (earlier.proc.pid : Int) = pid
        · rw [onTheWay, if_pos equal, List.filter_eq_nil_iff]
          intro other inOutbox arrives
          refine first earlier member (by omega) other inOutbox ?_
          rw [here]
          exact of_decide_eq_true arrives
        · exact onTheWay_other equal
      have waiting : onTheWay path pid inst = notice :: onTheWay path pid inst.sent := by
        rw [left, onTheWay, if_pos same, outbox, List.filter_cons_of_pos (by simpa using here)]
      rw [← here, Function.update_self, here, received, if_pos same, quiet, waiting]
      rfl
    · have waiting : onTheWay path pid inst = onTheWay path pid inst.sent := by
        rw [left, onTheWay, if_pos same, outbox, List.filter_cons_of_neg (by simpa using here)]
      rw [Function.update_of_ne (Ne.symm here), waiting]
  · have stays : (Function.update system.daemons (notice.dest inst.proc) daemon path).registers pid
        = (system.daemons path).registers pid := by
      by_cases here : path = notice.dest inst.proc
      · rw [here, Function.update_self, received, if_neg same]
      · rw [Function.update_of_ne here]
    rw [stays, onTheWay_other same, onTheWay_other (proc ▸ same)]

/-- A delivery keeps it consistent. -/
theorem deliver_consistent (consistent : system.Consistent) {index : Nat} (now : List Char)
    (orderly : system.Orderly (.deliver index now))
    : (step host hash links system (.deliver index now)).Consistent := by
  rw [step, deliver]
  cases found : system.procs[index]? with
  | none => exact consistent
  | some inst =>
      cases outbox : inst.outbox with
      | nil => simpa only [outbox] using consistent
      | cons notice rest =>
          obtain ⟨front, back, split, earlier, changed⟩ := procs_split found Instance.sent
          have first := orderly inst found notice (by rw [outbox]; rfl)
          rw [earlier] at first
          have settles := settles_sent consistent split outbox first
            (fun pid => registers_receive host hash links now _ inst.proc notice pid)
          have alone := consistent.alone
          rw [split] at alone
          simp only [outbox, changed]
          exact ⟨alone_change alone rfl id, settles⟩

/-- In an orderly run, a daemon knows exactly its live processes once nothing is on the way. -/
theorem run_registry {File : Type} (host : Host File) (hash : List Char → List Char)
    (links : Links File) (daemons : Path → KumfDaemon)
    (fresh : ∀ path, (daemons path).registeredProcs = .empty) (actions : List Action)
    (run : Along (step host hash links)
      (fun system action => system.Possible action ∧ system.Orderly action)
      (initial daemons) actions)
    : let system := actions.foldl (step host hash links) (initial daemons)
      (∀ inst ∈ system.procs, inst.outbox = [])
      → ∀ (path : Path) (pid : Int),
        pid ∈ (system.daemons path).registeredProcs.keys
        ↔ ∃ inst ∈ system.procs,
            inst.live = true ∧ inst.proc.socket = path ∧ (inst.proc.pid : Int) = pid := by
  intro system delivered path pid
  have start : (initial daemons).Consistent := by
    refine ⟨List.Pairwise.nil, fun path pid => ?_⟩
    simp [initial, settled, KumfDaemon.registers, fresh, Dict.keys, Dict.empty]
  have consistent : system.Consistent := by
    refine run.invariant (step host hash links) (fun system action consistent given => ?_) start
    cases action with
    | start proc => exact start_consistent consistent given.1
    | exit index => exact exit_consistent consistent given.2
    | deliver index now => exact deliver_consistent consistent now given.2
  have empty : system.procs.flatMap (onTheWay path pid) = [] := by
    refine List.flatMap_eq_nil_iff.mpr (fun inst member => ?_)
    simp [onTheWay, delivered inst member]
  have settles := consistent.settles path pid
  rw [empty] at settles
  have registered : pid ∈ (system.daemons path).registeredProcs.keys
      ↔ system.procs.any (Instance.belongs path pid) = true := by
    rw [← settles]
    exact (decide_eq_true_iff (p := pid ∈ _)).symm
  simp only [registered, List.any_eq_true, belongs_iff]

end

def appDaemons (path : Path) : KumfDaemon := { appDaemon with socketPath := path }

def sideSocket : Path := "/run/kumf.sock".toList

/-- A process with a given socket that starts and exits, with both messages delivered. -/
def startAndExit (proc : Proc) : List Action :=
  [.start proc, .deliver 0 [], .exit 0, .deliver 0 []]

def defaultProc : Proc := ⟨7, kumfSockPath, 2, by omega, by omega, by decide⟩

def sideProc : Proc := ⟨7, sideSocket, 2, by omega, by omega, by decide⟩

/-- A process on the default socket whose id is given to another one afterwards. -/
def restarted : List Action :=
  startAndExit defaultProc ++ [.start defaultProc, .deliver 1 []]

theorem run_registry_restarted
    : let system := restarted.foldl (step homeHost appHash (fun _ => none)) (initial appDaemons)
      ∀ (path : Path) (pid : Int),
        pid ∈ (system.daemons path).registeredProcs.keys
        ↔ ∃ inst ∈ system.procs,
            inst.live = true ∧ inst.proc.socket = path ∧ (inst.proc.pid : Int) = pid :=
  run_registry homeHost appHash (fun _ => none) appDaemons (fun _ => rfl) restarted (by decide)
    (by decide)

/-- A process on another socket leaves its entry behind when it exits. -/
theorem sideSocket_staysRegistered
    : let system := (startAndExit sideProc).foldl (step homeHost appHash (fun _ => none))
        (initial appDaemons)
      (∀ inst ∈ system.procs, inst.outbox = [] ∧ inst.live = false)
      ∧ 7 ∈ (system.daemons sideSocket).registeredProcs.keys := by
  decide +kernel

end System

end Kumf.Daemon
