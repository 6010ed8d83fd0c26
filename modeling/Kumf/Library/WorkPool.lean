import Kumf.Library.Runs
import Mathlib.Algebra.BigOperators.Group.Finset.Piecewise
import Mathlib.Algebra.GroupWithZero.Nat
import Mathlib.Data.Fintype.BigOperators
import Mathlib.Data.List.Perm.Basic

/-! Workers that share a queue of tasks. Each takes the next task when it is free and performs the
actions of the task on a cell that only this task uses. What the cells hold in the end, and how
many steps that takes, does not depend on the order in which the workers move.
-/

namespace Kumf.Library

/-- The tasks that nobody has taken, the actions that each worker has still to perform, and the
cell of every task.
-/
structure WorkPool (ι α σ : Type) where
  queue : List α
  busy : ι → Option (α × List (σ → σ))
  cells : α → σ

namespace WorkPool

variable {ι α σ : Type} (script : α → List (σ → σ))

/-- A step of a worker: take a task, perform an action, or be done with the task. -/
def step [DecidableEq ι] [DecidableEq α] (pool : WorkPool ι α σ) (worker : ι)
    : WorkPool ι α σ :=
  match pool.busy worker with
  | none =>
      match pool.queue with
      | [] => pool
      | task :: queue =>
          { pool with
            queue
            busy := Function.update pool.busy worker (some (task, script task)) }
  | some (task, action :: rest) =>
      { pool with
        busy := Function.update pool.busy worker (some (task, rest))
        cells := Function.update pool.cells task (action (pool.cells task)) }
  | some (_, []) => { pool with busy := Function.update pool.busy worker none }

/-- All workers are free. -/
def initial (tasks : List α) (cells : α → σ) : WorkPool ι α σ :=
  ⟨tasks, fun _ => none, cells⟩

/-- A worker that is free finds no task any more. -/
def Finished (pool : WorkPool ι α σ) : Prop :=
  pool.queue = [] ∧ ∀ worker, pool.busy worker = none

/-- The worker has something to do. -/
def Moves (pool : WorkPool ι α σ) (worker : ι) : Prop :=
  pool.busy worker ≠ none ∨ pool.queue ≠ []

instance (pool : WorkPool ι α σ) (worker : ι)
    : Decidable (pool.Moves worker) :=
  inferInstanceAs (Decidable (_ ∨ _))

/-- The cell of a task that was performed from its start. -/
def performed (cells : α → σ) (task : α) : σ :=
  (script task).foldl (fun cell action => action cell) (cells task)

/-- The steps that a worker has to make before it is free. -/
def load : Option (α × List (σ → σ)) → Nat
  | none => 0
  | some (_, rest) => rest.length + 1

@[simp]
theorem load_none
    : load (none : Option (α × List (σ → σ))) = 0 := rfl

@[simp]
theorem load_some (task : α) (rest : List (σ → σ))
    : load (some (task, rest)) = rest.length + 1 := rfl

-----------------------------------------------------------------------------------------
-- What the cells hold
-----------------------------------------------------------------------------------------

/-- A task waits with its cell as it was, or one worker is on the way to what the task gives, or
it is done.
-/
inductive Progress (start : α → σ) (pool : WorkPool ι α σ) (task : α) : Prop
  | waiting (queued : task ∈ pool.queue)
    (free : ∀ worker rest, pool.busy worker ≠ some (task, rest))
    (cell : pool.cells task = start task)
  | running (taken : task ∉ pool.queue) {worker : ι} {rest : List (σ → σ)}
    (here : pool.busy worker = some (task, rest))
    (only : ∀ other rest, pool.busy other = some (task, rest) → other = worker)
    (cell : rest.foldl (fun cell action => action cell) (pool.cells task)
      = performed script start task)
  | done (taken : task ∉ pool.queue)
    (free : ∀ worker rest, pool.busy worker ≠ some (task, rest))
    (cell : pool.cells task = performed script start task)

/-- Every task is in progress, and nothing else is touched. -/
structure Sound (tasks : List α) (start : α → σ) (pool : WorkPool ι α σ) : Prop where
  distinct : pool.queue.Nodup
  queued : ∀ task ∈ pool.queue, task ∈ tasks
  taken : ∀ worker task rest, pool.busy worker = some (task, rest) → task ∈ tasks
  progress : ∀ task ∈ tasks, Progress script start pool task
  untouched : ∀ task, task ∉ tasks → pool.cells task = start task

variable {script} {tasks : List α} {start : α → σ} {pool : WorkPool ι α σ}

/-- A pool that has just been filled is sound. -/
theorem sound_initial (distinct : tasks.Nodup)
    : Sound script tasks start (initial tasks start : WorkPool ι α σ) where
  distinct
  queued _ member := member
  taken _ _ _ here := by cases here
  progress _ member := .waiting member (fun _ _ here => by cases here) rfl
  untouched _ _ := rfl

/-- Nobody is at work on a task in the queue. -/
theorem Sound.free_of_queued {task : α} (sound : Sound script tasks start pool)
    (queued : task ∈ pool.queue)
    : (∀ worker rest, pool.busy worker ≠ some (task, rest))
      ∧ pool.cells task = start task := by
  cases sound.progress task (sound.queued task queued) with
  | waiting _ free cell => exact ⟨free, cell⟩
  | running taken => exact absurd queued taken
  | done taken => exact absurd queued taken

/-- A task that a worker is at. -/
theorem Sound.at_work {worker : ι} {task : α} {rest : List (σ → σ)}
    (sound : Sound script tasks start pool) (here : pool.busy worker = some (task, rest))
    : task ∉ pool.queue
      ∧ (∀ other rest, pool.busy other = some (task, rest) → other = worker)
      ∧ rest.foldl (fun cell action => action cell) (pool.cells task)
        = performed script start task := by
  cases sound.progress task (sound.taken worker task rest here) with
  | waiting _ free => exact absurd here (free worker rest)
  | @running taken found others there only cell =>
      obtain rfl := only worker rest here
      obtain ⟨-, rfl⟩ := Prod.mk.inj (Option.some.inj (here.symm.trans there))
      exact ⟨taken, only, cell⟩
  | done _ free => exact absurd here (free worker rest)

/-- A step that is not about a task leaves its progress as it is. -/
theorem Progress.congr {task : α} {after : WorkPool ι α σ}
    (progress : Progress script start pool task)
    (queue : task ∈ after.queue ↔ task ∈ pool.queue)
    (busy : ∀ worker rest,
      after.busy worker = some (task, rest) ↔ pool.busy worker = some (task, rest))
    (cells : after.cells task = pool.cells task)
    : Progress script start after task := by
  cases progress with
  | waiting queued free cell =>
      exact .waiting (queue.mpr queued)
        (fun worker rest here => free worker rest ((busy worker rest).mp here)) (cells.trans cell)
  | running taken here only cell =>
      refine .running (fun queued => taken (queue.mp queued)) ((busy _ _).mpr here) ?_ ?_
      · exact fun other rest there => only other rest ((busy other rest).mp there)
      · rw [cells]
        exact cell
  | done taken free cell =>
      exact .done (fun queued => taken (queue.mp queued))
        (fun worker rest here => free worker rest ((busy worker rest).mp here)) (cells.trans cell)

variable [DecidableEq ι]

/-- Who is at a task when one worker turns to something else. -/
theorem busy_update {worker : ι} {work : Option (α × List (σ → σ))} {task : α}
    (before : ∀ rest, pool.busy worker ≠ some (task, rest))
    (after : ∀ rest, work ≠ some (task, rest))
    (other : ι) (rest : List (σ → σ))
    : Function.update pool.busy worker work other = some (task, rest)
      ↔ pool.busy other = some (task, rest) := by
  by_cases same : other = worker
  · rw [same, Function.update_self]
    exact iff_of_false (after rest) (before rest)
  · rw [Function.update_of_ne same]

/-- A worker that takes a task keeps the pool sound. -/
theorem Sound.take {worker : ι} {task : α} {queue : List α}
    (sound : Sound script tasks start pool) (idle : pool.busy worker = none)
    (next : pool.queue = task :: queue)
    : Sound script tasks start
        { pool with
          queue
          busy := Function.update pool.busy worker (some (task, script task)) } := by
  have queued : task ∈ pool.queue := by simp [next]
  obtain ⟨free, cell⟩ := sound.free_of_queued queued
  obtain ⟨outside, distinct⟩ := List.nodup_cons.mp (next ▸ sound.distinct)
  constructor
  · exact distinct
  · exact fun other member =>
      sound.queued other (by rw [next]; exact List.mem_cons_of_mem _ member)
  · intro other taken rest here
    by_cases same : other = worker
    · dsimp only at here
      rw [same, Function.update_self] at here
      rw [← (Prod.mk.inj (Option.some.inj here)).1]
      exact sound.queued task queued
    · exact sound.taken other taken rest ((Function.update_of_ne same ..).symm.trans here)
  · intro other member
    by_cases same : other = task
    · rw [same]
      refine .running outside (Function.update_self ..) (fun another rest here => ?_) ?_
      · by_contra apart
        exact free another rest ((Function.update_of_ne apart ..).symm.trans here)
      · dsimp only
        rw [cell, performed]
    · refine (sound.progress other member).congr ?_ (busy_update (by simp [idle]) ?_) rfl
      · simp [next, same]
      · intro rest here
        exact same (Prod.mk.inj (Option.some.inj here)).1.symm
  · exact sound.untouched

variable [DecidableEq α]

/-- An action of a task keeps the pool sound. -/
theorem Sound.act {worker : ι} {task : α} {action : σ → σ} {rest : List (σ → σ)}
    (sound : Sound script tasks start pool)
    (here : pool.busy worker = some (task, action :: rest))
    : Sound script tasks start
        { pool with
          busy := Function.update pool.busy worker (some (task, rest))
          cells := Function.update pool.cells task (action (pool.cells task)) } := by
  obtain ⟨taken, only, cell⟩ := sound.at_work here
  have inTasks := sound.taken worker task _ here
  constructor
  · exact sound.distinct
  · exact sound.queued
  · intro other another left there
    by_cases same : other = worker
    · dsimp only at there
      rw [same, Function.update_self] at there
      rw [← (Prod.mk.inj (Option.some.inj there)).1]
      exact inTasks
    · exact sound.taken other another left ((Function.update_of_ne same ..).symm.trans there)
  · intro other member
    by_cases same : other = task
    · rw [same]
      refine .running taken (Function.update_self ..) (fun another left there => ?_) ?_
      · by_contra apart
        exact apart (only another left ((Function.update_of_ne apart ..).symm.trans there))
      · dsimp only
        rw [Function.update_self]
        exact cell
    · refine (sound.progress other member).congr Iff.rfl (busy_update ?_ ?_)
        (Function.update_of_ne same ..)
      · intro left there
        exact same (Prod.mk.inj (Option.some.inj (here.symm.trans there))).1.symm
      · intro left there
        exact same (Prod.mk.inj (Option.some.inj there)).1.symm
  · intro other outside
    have apart : other ≠ task := fun same => outside (same ▸ inTasks)
    exact (Function.update_of_ne apart ..).trans (sound.untouched other outside)

/-- A worker that is done keeps the pool sound. -/
theorem Sound.leave {worker : ι} {task : α} (sound : Sound script tasks start pool)
    (here : pool.busy worker = some (task, []))
    : Sound script tasks start
        { pool with busy := Function.update pool.busy worker none } := by
  obtain ⟨taken, only, cell⟩ := sound.at_work here
  constructor
  · exact sound.distinct
  · exact sound.queued
  · intro other another left there
    by_cases same : other = worker
    · dsimp only at there
      rw [same, Function.update_self] at there
      cases there
    · exact sound.taken other another left ((Function.update_of_ne same ..).symm.trans there)
  · intro other member
    by_cases same : other = task
    · rw [same]
      refine .done taken (fun another left there => ?_) cell
      by_cases atWork : another = worker
      · dsimp only at there
        rw [atWork, Function.update_self] at there
        cases there
      · exact atWork (only another left ((Function.update_of_ne atWork ..).symm.trans there))
    · refine (sound.progress other member).congr Iff.rfl (busy_update ?_ (by simp)) rfl
      intro left there
      exact same (Prod.mk.inj (Option.some.inj (here.symm.trans there))).1.symm
  · exact sound.untouched

/-- Every step keeps the pool sound. -/
theorem Sound.step (sound : Sound script tasks start pool) (worker : ι)
    : Sound script tasks start (pool.step script worker) := by
  unfold WorkPool.step
  split
  case h_1 idle =>
      split
      case h_1 => exact sound
      case h_2 next => exact sound.take idle next
  case h_2 here => exact sound.act here
  case h_3 here => exact sound.leave here

/-- When all workers have finished, every task was performed once from the start of its cell, and
no other cell has changed, whichever order the workers moved in.
-/
theorem cells_of_finished (distinct : tasks.Nodup) {moves : List ι}
    (finished : (moves.foldl (step script) (initial tasks start)).Finished) (task : α)
    : (moves.foldl (step script) (initial tasks start)).cells task
      = if task ∈ tasks then performed script start task else start task := by
  have sound : ∀ (moves : List ι) {pool : WorkPool ι α σ}, Sound script tasks start pool
      → Sound script tasks start (moves.foldl (step script) pool) := by
    intro moves
    induction moves with
    | nil => exact id
    | cons worker rest ih => exact fun sound => ih (sound.step worker)
  have last := sound moves (sound_initial distinct)
  split
  case isTrue member =>
      cases last.progress task member with
      | waiting queued =>
          rw [finished.1] at queued
          cases queued
      | running _ here => cases here.symm.trans (finished.2 _)
      | done _ _ cell => exact cell
  case isFalse outside => exact last.untouched task outside

-----------------------------------------------------------------------------------------
-- How many steps it takes
-----------------------------------------------------------------------------------------

variable [Fintype ι]

/-- The steps that are left for all workers together. -/
def left (script : α → List (σ → σ)) (pool : WorkPool ι α σ) : Nat :=
  (pool.queue.map (fun task => (script task).length + 2)).sum + ∑ worker, load (pool.busy worker)

omit [DecidableEq α] in
/-- A change of one worker's load changes the sum by it. -/
theorem load_update (busy : ι → Option (α × List (σ → σ))) (worker : ι)
    (work : Option (α × List (σ → σ)))
    : ∑ other, load (Function.update busy worker work other) + load (busy worker)
      = ∑ other, load (busy other) + load work := by
  have changed := Finset.sum_update_of_mem (Finset.mem_univ worker) (fun other => load (busy other))
    (load work)
  have same : (fun other => load (Function.update busy worker work other))
      = Function.update (fun other => load (busy other)) worker (load work) := by
    funext other
    by_cases here : other = worker
    · rw [here, Function.update_self, Function.update_self]
    · rw [Function.update_of_ne here, Function.update_of_ne here]
  have split := Finset.add_sum_erase Finset.univ (fun other => load (busy other))
    (Finset.mem_univ worker)
  rw [same, changed, Finset.sdiff_singleton_eq_erase]
  omega

variable (script) in
/-- A step that moves leaves one less to do. -/
theorem left_step {pool : WorkPool ι α σ} {worker : ι} (moves : pool.Moves worker)
    : left script (pool.step script worker) + 1 = left script pool := by
  unfold WorkPool.step
  split
  case h_1 idle =>
      split
      case h_1 empty => exact absurd empty (moves.resolve_left (fun busy => busy idle))
      case h_2 task queue next =>
          have update := load_update pool.busy worker (some (task, script task))
          simp only [idle, load_none, load_some] at update
          simp only [left, next, List.map_cons, List.sum_cons]
          omega
  case h_2 task action rest here =>
      have update := load_update pool.busy worker (some (task, rest))
      simp only [here, load_some, List.length_cons] at update
      simp only [left]
      omega
  case h_3 task here =>
      have update := load_update pool.busy worker none
      simp only [here, load_none, load_some, List.length_nil] at update
      simp only [left]
      omega

variable (script) in
omit [DecidableEq ι] [DecidableEq α] in
/-- The pool is finished when nothing is left to do. -/
theorem finished_iff {pool : WorkPool ι α σ} : pool.Finished ↔ left script pool = 0 := by
  unfold Finished left
  rw [Nat.add_eq_zero_iff, Finset.sum_eq_zero_iff]
  refine and_congr ?_ ?_
  · cases pool.queue with
    | nil => simp
    | cons task queue => simp
  · refine forall_congr' (fun worker => ?_)
    cases pool.busy worker with
    | none => simp
    | some work => simp [load]

omit [Fintype ι] [DecidableEq ι] [DecidableEq α] in
/-- Someone has something to do until all have finished. -/
theorem exists_moves [Nonempty ι] {pool : WorkPool ι α σ} (unfinished : ¬ pool.Finished)
    : ∃ worker, pool.Moves worker := by
  by_contra none
  apply unfinished
  constructor
  · by_contra queued
    exact none ⟨Classical.arbitrary ι, .inr queued⟩
  · intro worker
    by_contra busy
    exact none ⟨worker, .inl busy⟩

/-- A run in which every chosen worker has something to do takes at most as many steps as the
scripts have, and two for each task; with that many, all workers have finished.
-/
theorem length_of_moves {moves : List ι} {tasks : List α} {start : α → σ}
    (run : Along (step script) Moves (initial tasks start) moves)
    : moves.length ≤ (tasks.map (fun task => (script task).length + 2)).sum
      ∧ ((moves.foldl (step script) (initial tasks start)).Finished
        ↔ moves.length = (tasks.map (fun task => (script task).length + 2)).sum) := by
  have counted
    : ∀ {moves : List ι} {pool : WorkPool ι α σ}, Along (step script) Moves pool moves
      → left script (moves.foldl (step script) pool) + moves.length = left script pool := by
    intro moves
    induction moves with
    | nil => exact fun _ => rfl
    | cons worker rest ih =>
        intro pool run
        have first := left_step script run.1
        have later := ih run.2
        rw [List.foldl_cons, List.length_cons]
        omega
  have whole := counted run
  have begun : left script (initial tasks start : WorkPool ι α σ)
      = (tasks.map (fun task => (script task).length + 2)).sum := by
    simp [left, initial]
  rw [finished_iff script]
  omega

end WorkPool

end Kumf.Library
