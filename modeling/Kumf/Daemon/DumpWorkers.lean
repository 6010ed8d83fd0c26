import Kumf.Daemon.ProfileOutcomes
import Kumf.Library.WorkPool

/-! The dump of a large recording: threads take the CPUs from a queue and write a chunk for each,
and the chunks are merged into one file. Which thread takes which CPU makes no difference.
-/

namespace Kumf.Daemon.Profiling

open Kumf.Library

/-- What `perf report` does for a CPU: whether the chunk can be opened, what is written to it piece
by piece, and whether `subprocess.run` raises in the end.
-/
structure CpuDump where
  opens : Bool
  pieces : List (List UInt8)
  raises : Bool

/-- An exception in the `try` of the CPU. -/
def CpuDump.fails (dump : CpuDump) : Bool := !dump.opens || dump.raises

/-- The chunk of a CPU, and whether the CPU is among the `errors`. -/
structure Chunk where
  file : Option (List UInt8)
  failed : Bool
  deriving DecidableEq

def Chunk.truncate (chunk : Chunk) : Chunk := { chunk with file := some [] }

def Chunk.write (piece : List UInt8) (chunk : Chunk) : Chunk :=
  { chunk with file := chunk.file.map (fun bytes => bytes ++ piece) }

def Chunk.fail (chunk : Chunk) : Chunk := { chunk with failed := true }

/-- The bytes of a chunk, none if it is not there. -/
def Chunk.bytes (chunk : Chunk) : List UInt8 := chunk.file.getD []

/-- A turn of the loop of `_dump_worker`. -/
def CpuDump.actions (dump : CpuDump) : List (Chunk → Chunk) :=
  if dump.opens then
    Chunk.truncate :: dump.pieces.map Chunk.write ++ (if dump.raises then [Chunk.fail] else [])
  else
    [Chunk.fail]

/-- `cpu_chunks` -/
def cpuChunks (ncpus : Nat) : List Nat := List.range (min ncpus 256)

/-- Every CPU is dumped once. -/
theorem cpuChunks_nodup (ncpus : Nat)
    : (cpuChunks ncpus).Nodup :=
  List.nodup_range

/-- `max_procs` -/
def maxProcs (ncpus : Nat) : Nat := min 32 (cpuChunks ncpus).length

section
variable (ncpus : Nat) (perf : Nat → CpuDump) (leftOver : Nat → Option (List UInt8))

/-- The chunks of an earlier run, and no errors yet. -/
def firstChunks (cpu : Nat) : Chunk := ⟨leftOver cpu, false⟩

/-- The threads after some of their steps. -/
def dumpWorkers (moves : List (Fin (maxProcs ncpus)))
    : WorkPool (Fin (maxProcs ncpus)) Nat Chunk :=
  moves.foldl (WorkPool.step (fun cpu => (perf cpu).actions))
    (WorkPool.initial (cpuChunks ncpus) (firstChunks leftOver))

/-- A turn of the loop that merges the chunks. -/
def mergeChunk (merging : List UInt8 × (Nat → Chunk)) (cpu : Nat)
    : List UInt8 × (Nat → Chunk) :=
  if 0 < (merging.2 cpu).bytes.length then
    (merging.1 ++ (merging.2 cpu).bytes,
      Function.update merging.2 cpu { merging.2 cpu with file := none })
  else
    merging

/-- The raw file, and the chunks that are left. -/
def mergeChunks (chunks : Nat → Chunk) : List UInt8 × (Nat → Chunk) :=
  (cpuChunks ncpus).foldl mergeChunk ([], chunks)

/-- What a CPU adds to the raw file: what perf has written for it, or the chunk of an earlier run
that could not be opened.
-/
def cpuBytes (cpu : Nat) : List UInt8 :=
  if (perf cpu).opens then (perf cpu).pieces.flatten else (leftOver cpu).getD []

-----------------------------------------------------------------------------------------
-- One CPU
-----------------------------------------------------------------------------------------

/-- Pieces are written one behind another. -/
theorem foldl_write (pieces : List (List UInt8)) (chunk : Chunk)
    : (pieces.map Chunk.write).foldl (fun cell action => action cell) chunk
      = { chunk with file := chunk.file.map (fun bytes => bytes ++ pieces.flatten) } := by
  induction pieces generalizing chunk with
  | nil => cases chunk with | mk file failed => cases file <;> simp
  | cons piece pieces ih =>
      rw [List.map_cons, List.foldl_cons, ih]
      cases chunk with
      | mk file failed => cases file <;> simp [Chunk.write]

/-- What a thread makes of a chunk. -/
theorem performed_actions (cpu : Nat)
    : WorkPool.performed (fun cpu => (perf cpu).actions) (firstChunks leftOver) cpu
      = { file := if (perf cpu).opens then some (perf cpu).pieces.flatten else leftOver cpu
          failed := (perf cpu).fails } := by
  unfold WorkPool.performed CpuDump.actions CpuDump.fails
  dsimp only
  cases opens : (perf cpu).opens with
  | false => rfl
  | true =>
      rw [if_pos rfl, List.cons_append, List.foldl_cons, List.foldl_append, foldl_write]
      cases raises : (perf cpu).raises with
      | false => simp [Chunk.truncate, firstChunks]
      | true => simp [Chunk.truncate, Chunk.fail]

/-- A chunk ends with all of its CPU's bytes. -/
theorem performed_bytes (cpu : Nat)
    : (WorkPool.performed (fun cpu => (perf cpu).actions) (firstChunks leftOver) cpu).bytes
      = cpuBytes perf leftOver cpu := by
  rw [performed_actions, cpuBytes, Chunk.bytes]
  cases (perf cpu).opens with
  | false => rfl
  | true => rfl

-----------------------------------------------------------------------------------------
-- The merged file
-----------------------------------------------------------------------------------------

/-- The chunks are appended in order, and the empty ones are left. -/
theorem foldl_mergeChunk {cpus : List Nat} (distinct : cpus.Nodup) (raw : List UInt8)
    (chunks : Nat → Chunk)
    : cpus.foldl mergeChunk (raw, chunks)
      = (raw ++ cpus.flatMap (fun cpu => (chunks cpu).bytes),
        fun cpu =>
          if cpu ∈ cpus ∧ 0 < (chunks cpu).bytes.length then { chunks cpu with file := none }
          else chunks cpu) := by
  induction cpus generalizing raw chunks with
  | nil => simp
  | cons cpu cpus ih =>
      obtain ⟨outside, distinct⟩ := List.nodup_cons.mp distinct
      have apart {other : Nat} (member : other ∈ cpus) : other ≠ cpu := fun same =>
        outside (same ▸ member)
      rw [List.foldl_cons, mergeChunk]
      dsimp only
      split
      case isTrue some =>
          rw [ih distinct, List.flatMap_cons, ← List.append_assoc]
          congr 1
          · congr 1
            refine List.flatMap_congr fun other member => ?_
            rw [Function.update_of_ne (apart member)]
          · funext other
            by_cases same : other = cpu
            · subst other
              rw [Function.update_self, if_neg (fun both => outside both.1), if_pos]
              exact ⟨List.mem_cons_self, some⟩
            · rw [Function.update_of_ne same]
              simp [same]
      case isFalse none =>
          have empty : (chunks cpu).bytes = [] :=
            List.length_eq_zero_iff.mp (Nat.eq_zero_of_not_pos none)
          rw [ih distinct, List.flatMap_cons, empty, List.nil_append]
          congr 1
          funext other
          by_cases same : other = cpu
          · subst other
            rw [if_neg (fun both => none both.2), if_neg (fun both => none both.2)]
          · simp [same]

-----------------------------------------------------------------------------------------
-- All threads
-----------------------------------------------------------------------------------------

/-- The steps of all threads together: opening and each piece, an error, and a CPU taken and done
with.
-/
def dumpSteps : Nat :=
  ((cpuChunks ncpus).map (fun cpu => (perf cpu).actions.length + 2)).sum

/-- However the threads take turns, they go on until they come to an end, after the same number of
steps, and then the raw file holds what perf has written, in the order of the CPUs, the CPUs with
errors are those that raised, and of the chunks only empty ones are left.
-/
theorem dumpWorkers_merge {moves : List (Fin (maxProcs ncpus))}
    (run : Along (WorkPool.step (fun cpu => (perf cpu).actions)) WorkPool.Moves
      (WorkPool.initial (cpuChunks ncpus) (firstChunks leftOver)) moves)
    : moves.length ≤ dumpSteps ncpus perf
      ∧ ((dumpWorkers ncpus perf leftOver moves).Finished
        ↔ moves.length = dumpSteps ncpus perf)
      ∧ (¬ (dumpWorkers ncpus perf leftOver moves).Finished →
        ∃ worker, (dumpWorkers ncpus perf leftOver moves).Moves worker)
      ∧ ((dumpWorkers ncpus perf leftOver moves).Finished →
        (mergeChunks ncpus (dumpWorkers ncpus perf leftOver moves).cells).1
          = (cpuChunks ncpus).flatMap (cpuBytes perf leftOver)
        ∧ ∀ cpu ∈ cpuChunks ncpus,
          ((dumpWorkers ncpus perf leftOver moves).cells cpu).failed = (perf cpu).fails
          ∧ ((mergeChunks ncpus (dumpWorkers ncpus perf leftOver moves).cells).2 cpu).bytes = [])
      := by
  obtain ⟨bound, finishes⟩ := WorkPool.length_of_moves run
  refine ⟨bound, finishes, fun unfinished => ?_, fun finished => ?_⟩
  · cases ncpus with
    | zero => exact absurd (finishes.mpr (Nat.le_zero.mp bound)) unfinished
    | succ others =>
        have : Nonempty (Fin (maxProcs (others + 1))) := ⟨0, by simp [maxProcs, cpuChunks]⟩
        exact WorkPool.exists_moves unfinished
  have distinct := cpuChunks_nodup ncpus
  have cells {cpu : Nat} (member : cpu ∈ cpuChunks ncpus)
      : (dumpWorkers ncpus perf leftOver moves).cells cpu
        = WorkPool.performed (fun cpu => (perf cpu).actions) (firstChunks leftOver) cpu :=
    (WorkPool.cells_of_finished distinct finished cpu).trans (if_pos member)
  rw [mergeChunks, foldl_mergeChunk distinct]
  refine ⟨?_, fun cpu member => ⟨?_, ?_⟩⟩
  · rw [List.nil_append]
    refine List.flatMap_congr fun cpu member => ?_
    rw [cells member, performed_bytes]
  · rw [cells member, performed_actions]
  · dsimp only
    split
    case isTrue => rfl
    case isFalse empty =>
        refine List.length_eq_zero_iff.mp (Nat.eq_zero_of_not_pos fun some => ?_)
        exact empty ⟨member, some⟩

-----------------------------------------------------------------------------------------
-- The dump in `profile`
-----------------------------------------------------------------------------------------

variable (system : System)

/-- A system in which `perf report` dumps a CPU as said and does nothing else, and in which the
merge can open its files.
-/
structure Dumps : Prop where
  opens : ∀ cpu, system.fails (.openChunk cpu) = !(perf cpu).opens
  runs : ∀ cpu files, (system.run (.perfReportCpu cpu) files).2
    = { files with
        speCpu := Function.update files.speCpu cpu (some (perf cpu).pieces.flatten.length) }
  raw : system.fails .openRaw = false
  merges : ∀ cpu, system.fails (.mergeChunk cpu) = false

/-- The end of a dump by CPU: at once, when that has given nothing. -/
def dumpFallback : Run Bool := do
  if (← rawSize) = 0 then
    openRaw system
    let result ← subprocessRun system .perfReport
    if result.returncode ≠ 0 then
      unlinkRaw system
      pure false
    else
      pure true
  else
    pure true

variable {system} {perf}

/-- The size of the chunk that a CPU is left with. -/
def sizeAfter (perf : Nat → CpuDump) (sizes : Nat → Option Nat) (cpu : Nat) : Option Nat :=
  if (perf cpu).opens then some (perf cpu).pieces.flatten.length else sizes cpu

/-- A state with other sizes of the chunks. -/
def State.withChunks (state : State) (sizes : Nat → Option Nat) : State :=
  { state with files := { state.files with speCpu := sizes } }

@[simp]
theorem State.withChunks_speCpu (state : State) (sizes : Nat → Option Nat)
    : (state.withChunks sizes).files.speCpu = sizes := rfl

@[simp]
theorem State.withChunks_withChunks (state : State) (sizes later : Nat → Option Nat)
    : (state.withChunks sizes).withChunks later = state.withChunks later := rfl

/-- What the dump of a CPU does to a state. -/
theorem dumpCpu_run (dumps : Dumps perf system) (cpu : Nat) (state : State)
    : (dumpCpu system cpu).run state
      = .ok () (state.withChunks (Function.update state.files.speCpu cpu
          (sizeAfter perf state.files.speCpu cpu))) := by
  have opens := dumps.opens cpu
  unfold dumpCpu sizeAfter
  rw [run_tryCatch, operate, opens]
  cases (perf cpu).opens with
  | false =>
      simp only [Bool.not_false, if_true, Bool.false_eq_true, if_false, Function.update_eq_self]
      rfl
  | true =>
      let opened := { state.files with
        speCpu := Function.update state.files.speCpu cpu (some 0) }
      have wrote := dumps.runs cpu opened
      have ran := subprocessRun_run system (.perfReportCpu cpu) { state with files := opened }
      simp only [opened, Function.update_idem] at wrote
      simp only [Bool.not_true, Bool.false_eq_true, if_false, if_true, EStateM.run_bind,
        EStateM.run_pure, changeFiles, EStateM.run_modify]
      cases result : system.run (.perfReportCpu cpu) opened with
      | mk completed files =>
          rw [result] at ran
          rw [result] at wrote
          dsimp only [opened] at ran wrote
          -- an exception of perf is caught, and what is written stays
          cases completed with
          | none =>
              rw [ran, wrote]
              rfl
          | some completed =>
              rw [ran, wrote]
              rfl

/-- The chunks behind the loop over the CPUs. -/
theorem forM_dumpCpu_run (dumps : Dumps perf system) {cpus : List Nat} (distinct : cpus.Nodup)
    (state : State)
    : (cpus.forM (dumpCpu system)).run state
      = .ok () (state.withChunks (fun cpu =>
          if cpu ∈ cpus then sizeAfter perf state.files.speCpu cpu
          else state.files.speCpu cpu)) := by
  induction cpus generalizing state with
  | nil => simp [State.withChunks]
  | cons cpu cpus ih =>
      obtain ⟨outside, distinct⟩ := List.nodup_cons.mp distinct
      have loop : (cpu :: cpus).forM (dumpCpu system)
          = (do dumpCpu system cpu; cpus.forM (dumpCpu system)) := rfl
      rw [loop, EStateM.run_bind, dumpCpu_run dumps]
      dsimp only
      rw [ih distinct, State.withChunks_withChunks]
      congr 2
      funext other
      by_cases same : other = cpu
      · subst other
        simp [outside]
      · simp [same, sizeAfter]

/-- The sizes of some chunks. -/
def sizesOf (chunks : Nat → Chunk) (cpu : Nat) : Option Nat := (chunks cpu).file.map List.length

/-- A chunk that changes changes its own size. -/
theorem sizesOf_update (chunks : Nat → Chunk) (cpu : Nat) (chunk : Chunk)
    : sizesOf (Function.update chunks cpu chunk)
      = Function.update (sizesOf chunks) cpu (chunk.file.map List.length) :=
  Function.comp_update (fun chunk : Chunk => chunk.file.map List.length) chunks cpu chunk

/-- A state in the middle of the merge. -/
def State.merging (state : State) (merging : List UInt8 × (Nat → Chunk)) : State :=
  { state with files := { state.files with
      speRaw := some merging.1.length
      speCpu := sizesOf merging.2 } }

/-- What the merge of a chunk does to a state. -/
theorem mergeCpu_run (dumps : Dumps perf system) (cpu : Nat) (state : State)
    (merging : List UInt8 × (Nat → Chunk))
    : (mergeCpu system cpu).run (state.merging merging)
      = .ok () (state.merging (mergeChunk merging cpu)) := by
  have size : (sizesOf merging.2 cpu).getD 0 = (merging.2 cpu).bytes.length := by
    unfold sizesOf Chunk.bytes
    cases (merging.2 cpu).file with
    | none => rfl
    | some bytes => rfl
  unfold mergeCpu operate changeFiles mergeChunk
  simp only [EStateM.run_bind, EStateM.run_get, dumps.merges, Bool.false_eq_true, if_false]
  simp only [State.merging, size]
  split
  case isTrue => simp [sizesOf_update]
  case isFalse => rfl

/-- The merge of some chunks, one after another. -/
theorem forM_mergeCpu_run (dumps : Dumps perf system) (cpus : List Nat) (state : State)
    (merging : List UInt8 × (Nat → Chunk))
    : (cpus.forM (mergeCpu system)).run (state.merging merging)
      = .ok () (state.merging (cpus.foldl mergeChunk merging)) := by
  induction cpus generalizing merging with
  | nil => rfl
  | cons cpu cpus ih =>
      have loop : (cpu :: cpus).forM (mergeCpu system)
          = (do mergeCpu system cpu; cpus.forM (mergeCpu system)) := rfl
      rw [loop, EStateM.run_bind, mergeCpu_run dumps]
      exact ih (mergeChunk merging cpu)

/-- The chunks that the threads leave have the sizes of a dump of one CPU after the other. -/
theorem sizesOf_dumpWorkers {ncpus : Nat} {moves : List (Fin (maxProcs ncpus))}
    (finished : (dumpWorkers ncpus perf leftOver moves).Finished)
    : sizesOf (dumpWorkers ncpus perf leftOver moves).cells
      = fun cpu =>
        if cpu ∈ cpuChunks ncpus then
          sizeAfter perf (fun cpu => (leftOver cpu).map List.length) cpu
        else (leftOver cpu).map List.length := by
  funext cpu
  have cell := WorkPool.cells_of_finished (cpuChunks_nodup ncpus) finished cpu
  rw [sizesOf, dumpWorkers, cell]
  split
  case isTrue =>
      rw [performed_actions, sizeAfter]
      cases (perf cpu).opens with
      | false => rfl
      | true => rfl
  case isFalse => rfl

/-- A dump of one CPU after the other comes to the state that the threads leave, whichever takes
which CPU.
-/
theorem dumpLarge_run (dumps : Dumps perf system) {state : State}
    (before : state.files.speCpu = fun cpu => (leftOver cpu).map List.length)
    {moves : List (Fin (maxProcs (cpusOr system 120)))}
    (finished : (dumpWorkers (cpusOr system 120) perf leftOver moves).Finished)
    : (dumpLarge system).run state
      = (dumpFallback system).run (state.merging
          (mergeChunks (cpusOr system 120)
            (dumpWorkers (cpusOr system 120) perf leftOver moves).cells)) := by
  have code : dumpLarge system
      = (do
        (cpuChunks (cpusOr system 120)).forM (dumpCpu system)
        openRaw system
        (cpuChunks (cpusOr system 120)).forM (mergeCpu system)
        dumpFallback system) := rfl
  have opens (chunks : Nat → Chunk)
      : (openRaw system).run (state.withChunks (sizesOf chunks))
        = .ok () (state.merging ([], chunks)) := by
    rw [openRaw, operate, dumps.raw]
    rfl
  have dumped := sizesOf_dumpWorkers leftOver finished
  rw [code, EStateM.run_bind, forM_dumpCpu_run dumps (cpuChunks_nodup _), before, ← dumped]
  dsimp only
  rw [EStateM.run_bind, opens]
  dsimp only
  rw [EStateM.run_bind, forM_mergeCpu_run dumps]
  rfl

end

/-- The first CPU is dumped in two pieces, and the chunk of the second one cannot be opened. -/
def twoCpuDumps (cpu : Nat) : CpuDump where
  opens := cpu ≠ 1
  pieces := [[80, 67], [10]]
  raises := false

/-- The second CPU has a chunk from before. -/
def oldChunk (cpu : Nat) : Option (List UInt8) := if cpu = 1 then some [84] else none

/-- The second thread is the one that takes the first CPU. -/
def twoThreads : List (Fin (maxProcs 2)) :=
  let first : Fin (maxProcs 2) := ⟨0, by decide⟩
  let second : Fin (maxProcs 2) := ⟨1, by decide⟩
  [second, first, second, first, second, first, second, second]

theorem twoThreads_moves
    : Along (WorkPool.step (fun cpu => (twoCpuDumps cpu).actions)) WorkPool.Moves
      (WorkPool.initial (cpuChunks 2) (firstChunks oldChunk)) twoThreads := by
  decide

theorem twoThreads_merge
    : twoThreads.length = dumpSteps 2 twoCpuDumps
      ∧ (mergeChunks 2 (dumpWorkers 2 twoCpuDumps oldChunk twoThreads).cells).1
        = [80, 67, 10, 84] := by
  obtain ⟨-, finishes, -, merged⟩ := dumpWorkers_merge 2 twoCpuDumps oldChunk twoThreads_moves
  have steps : twoThreads.length = dumpSteps 2 twoCpuDumps := by decide
  exact ⟨steps, (merged (finishes.mpr steps)).1.trans (by decide)⟩

/-- A system with the two CPUs. -/
def twoCpus : System := { scriptsExit 0 0 with
  run := fun program files =>
    match program with
    | .perfReportCpu cpu => (some ⟨0, some [], []⟩,
        { files with speCpu := Function.update files.speCpu cpu (some 3) })
    | other => (scriptsExit 0 0).run other files
  fails := fun op => op = .openChunk 1 }

/-- The recording, and the chunk from before. -/
def withOldChunk : State := begin
  { noFiles with
    spePerf := some (10 * 1024 * 1024)
    speCpu := fun cpu => (oldChunk cpu).map List.length }
  (fun _ => none)

/-- The dump in `profile` is of four bytes, as that of the two threads. -/
theorem twoCpus_dumped
    : (dumpLarge twoCpus).run withOldChunk
      = (dumpFallback twoCpus).run (withOldChunk.merging
          (mergeChunks 2 (dumpWorkers 2 twoCpuDumps oldChunk twoThreads).cells)) := by
  have dumps : Dumps twoCpuDumps twoCpus := by
    refine ⟨fun cpu => ?_, fun cpu files => rfl, rfl, fun cpu => rfl⟩
    simp [twoCpus, twoCpuDumps]
  have finished := WorkPool.length_of_moves twoThreads_moves
  exact dumpLarge_run oldChunk dumps rfl (finished.2.mpr (by decide))

end Kumf.Daemon.Profiling
