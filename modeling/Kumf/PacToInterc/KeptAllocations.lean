import Kumf.PacToInterc.Allocations
import Kumf.PacToInterc.ProfLog
import Kumf.Prof.RecordedCalls

/-! `cross_correlate` on the log of a profiled run: which recorded calls count as allocations. -/

namespace Kumf.PacToInterc

open Kumf.Library PyText
open Kumf.Prof

-----------------------------------------------------------------------------------------
-- The filter of `cross_correlate`
-----------------------------------------------------------------------------------------

section
variable {F : Type} [PyFloat F]

theorem tallyPages_totalPages (index : Dict Nat (ScoredPage F)) (addr size : Nat)
    : (tallyPages index addr size).totalPages = (coveredPages addr size).length := by
  have count (covered : List Nat) (tally : PageTally F)
      : (covered.foldl (PageTally.step index) tally).totalPages
        = tally.totalPages + covered.length := by
    induction covered generalizing tally with
    | nil => rfl
    | cons pageAddr covered ih =>
        have next : (PageTally.step index tally pageAddr).totalPages = tally.totalPages + 1 := by
          unfold PageTally.step
          dsimp only
          split
          · rfl
          · rfl
        rw [List.foldl_cons, ih, next, List.length_cons]
        omega
  rw [tallyPages, count]
  exact Nat.zero_add _

theorem coveredPages_nonempty (addr : Nat) {size : Nat} (large : 4096 ≤ size)
    : (coveredPages addr size).length ≠ 0 := by
  rw [coveredPages, List.length_range']
  omega

/-- An allocation is kept by its entry type and its size alone. -/
theorem correlate_isSome (index : Dict Nat (ScoredPage F)) (alloc : ProfAllocation)
    : (correlate index alloc).isSome = true ↔ alloc.entryType ≠ 0 ∧ 4096 ≤ alloc.size := by
  unfold correlate
  by_cases free : alloc.entryType = 0
  · simp [free]
  · rw [if_neg free]
    split
    case isTrue large =>
        have covers : (tallyPages index alloc.addr alloc.size).totalPages ≠ 0 := by
          rw [tallyPages_totalPages]
          exact coveredPages_nonempty _ large
        dsimp only
        rw [if_neg covers]
        exact iff_of_true rfl ⟨free, large⟩
    case isFalse small => simp [small]

end

-----------------------------------------------------------------------------------------
-- The entry types of the hooks
-----------------------------------------------------------------------------------------

/-- The records that `cross_correlate` reads the wrong way: pages that are unmapped, and
mappings with the entry type 0.
-/
def misread : Hook → Bool
  | .munmap _ length => 4096 ≤ length.val
  | .mmap length flags => 4096 ≤ length.val && toInt32 (flags + 100) = 0
  | .mmap64 length flags => 4096 ≤ length.val && toInt32 (flags + 200) = 0
  | _ => false

/-- Apart from the misread ones, the large records with another entry type than 0 are those of
the allocating functions.
-/
theorem kept_iff (hook : Hook)
    : (toInt32 hook.entryType ≠ 0 ∧ 4096 ≤ hook.size.val
        ↔ hook.allocates = true ∧ 4096 ≤ hook.size.val)
      ↔ misread hook = false := by
  cases hook with
  | malloc sz => simp [Hook.entryType, Hook.allocates, misread, toInt32]
  | calloc nmemb size => simp [Hook.entryType, Hook.allocates, misread, toInt32]
  | realloc ptr size => simp [Hook.entryType, Hook.allocates, misread, toInt32]
  | memalign align sz => simp [Hook.entryType, Hook.allocates, misread, toInt32]
  | posixMemalign align sz => simp [Hook.entryType, Hook.allocates, misread, toInt32]
  | free p => simp [Hook.size, misread]
  | mmap length flags =>
      simp only [Hook.entryType, Hook.size, Hook.allocates, misread, toInt32_toInt32]
      grind
  | mmap64 length flags =>
      simp only [Hook.entryType, Hook.size, Hook.allocates, misread, toInt32_toInt32]
      grind
  | munmap start length => simp [Hook.entryType, Hook.size, Hook.allocates, misread, toInt32]

-----------------------------------------------------------------------------------------
-- The log of a run
-----------------------------------------------------------------------------------------

/-- An allocation as `load_prof_log` returns it. -/
def ProfAllocation.record (alloc : ProfAllocation) : ProfRecord where
  callerSym := alloc.callerSym
  callerAddr := alloc.callerAddr
  timestamp := alloc.timestamp
  size := alloc.size
  addr := alloc.addr
  entryType := alloc.entryType

section
variable {dladdr : Dladdr} (named : ∀ callerAddr, Named dladdr callerAddr)

/-- The allocation that a log entry reads as. -/
def profAllocation (entry : LogEntry) : ProfAllocation where
  callerSym := callerSym dladdr entry.callerAddr
  callerAddr := if printsRaw dladdr entry.callerAddr then entry.callerAddr.val else 0
  timestamp := entry.rdt.val
  size := entry.size.val
  addr := entry.addr.val
  entryType := toInt32 entry.entryType
  word := (callerSym_word (named _)).2.solid
  fits := entry.size.isLt

theorem record_profAllocation (entry : LogEntry)
    : (profAllocation named entry).record = profRecord dladdr entry := by
  rw [profRecord, ProfAllocation.record, profAllocation]
  dsimp only
  split
  · rfl
  · rfl

variable {F : Type} [PyFloat F]

/-- The entry of a call is kept exactly for a large allocation, unless it is misread. -/
theorem keeps_iff (pages : List (ScoredPage F)) (call : Call) (old : LogEntry)
    (classified : misread call.hook = false)
    : (correlate (pagePac pages) (profAllocation named (call.fill old))).isSome = true
      ↔ call.hook.allocates = true ∧ 4096 ≤ call.hook.size.val :=
  (correlate_isSome _ _).trans ((kept_iff call.hook).mpr classified)

end

/-- The step records no call that is misread. -/
def Classified (world : World) : Event → Prop
  | .init => True
  | .call call => (world.target call).isSome = true → misread call.hook = false

instance (world : World) : ∀ event, Decidable (Classified world event)
  | .init => inferInstanceAs (Decidable True)
  | .call _ => inferInstanceAs (Decidable (_ → _))

/-- None of the recorded calls is misread. -/
def WellRead (world : World) : Prop :=
  ∀ i, ∀ call ∈ world.recorded i, misread call.hook = false

theorem step_wellRead (world : World) (event : Event) (wellRead : WellRead world)
    (classified : Classified world event)
    : WellRead (world.step event) := by
  intro i call member
  rcases World.mem_recorded_step member with earlier | ⟨rfl, target⟩
  · exact wellRead i call earlier
  · exact classified (Option.isSome_iff_exists.mpr ⟨i, target⟩)

/-- In every run in which no misread call is recorded and no log buffer comes late,
`cross_correlate` keeps of the written logs, in whatever order they are, the entries of the
large allocations.
-/
theorem run_keepsAllocations {F : Type} [PyFloat F] (dladdr : Dladdr)
    (named : ∀ callerAddr, Named dladdr callerAddr) (pages : List (ScoredPage F))
    (events : List Event)
    (run : Along World.step (fun world event => world.Prompt event ∧ Classified world event)
      .initial events)
    (files : List (Nat × List LogEntry))
    (cleanup : profCleanup (events.foldl World.step .initial).globals = some files)
    (order : List (List (Call × LogEntry)))
    (reordered : order.Perm (events.foldl World.step .initial).written)
    : files.map Prod.snd = (events.foldl World.step .initial).written.map (List.map Prod.snd)
      ∧ loadProfLog (order.flatMap (fun log => dumpLog dladdr (log.map Prod.snd)))
        = order.flatten.map (fun written => (profAllocation named written.2).record)
      ∧ crossCorrelate pages
          (order.flatten.map (fun written => profAllocation named written.2))
        = order.flatten.filterMap
          (fun written => correlate (pagePac pages) (profAllocation named written.2))
      ∧ ∀ written ∈ order.flatten,
        (∃ old, written.2 = written.1.fill old)
        ∧ ((correlate (pagePac pages) (profAllocation named written.2)).isSome = true
          ↔ written.1.hook.allocates = true ∧ 4096 ≤ written.2.size.val) := by
  have filled : (events.foldl World.step .initial).Filled :=
    World.run_filled (run.imp World.step (fun _ _ admitted => admitted.1))
  have wellRead : WellRead (events.foldl World.step .initial) :=
    run.invariant World.step (fun world event wellRead admitted =>
      step_wellRead world event wellRead admitted.2) (fun _ _ member => nomatch member)
  refine ⟨filled.files cleanup, ?_, ?_, ?_⟩
  · have text : order.flatMap (fun log => dumpLog dladdr (log.map Prod.snd))
        = (order.map (List.map Prod.snd)).flatMap (dumpLog dladdr) := by
      rw [List.flatMap_map]
    rw [text, loadProfLog_dumps (fun entry _ => named entry.callerAddr), ← List.map_flatten,
      List.map_map]
    exact List.map_congr_left (fun written _ => (record_profAllocation named written.2).symm)
  · rw [crossCorrelate, List.filterMap_map]
    rfl
  · rintro ⟨call, entry⟩ member
    obtain ⟨⟨i, recorded⟩, old, rfl⟩ := filled.mem_written
      ((reordered.flatten.mem_iff).mp member)
    exact ⟨⟨old, rfl⟩, keeps_iff named pages call old (wellRead i call recorded)⟩

/-- A call from `main` in a thread whose log buffer is zero. -/
def madeBy (hook : Hook) (ret : Word) (rdt : Word) : Call where
  thread := 1
  tid := 100
  hook
  ret
  rdt
  caller := 0x400ab0
  inTrace := false
  inOurAlloc := false
  buffer := some (fun _ => ⟨0, 0, 0, 0, 0⟩)

/-- A block that is freed again, and a small one. -/
def mallocAndFree : List Call :=
  [madeBy (.malloc 8192) 0x5000 10, madeBy (.free 0x5000) 0 20, madeBy (.malloc 16) 0x5000 30]

theorem run_keepsAllocations_mallocAndFree
    : let world := (.init :: mallocAndFree.map .call).foldl World.step .initial
      [[⟨10, 0x5000, 8192, 1, 0x400ab0⟩, ⟨20, 0x5000, 0, 2, 0⟩,
        ⟨30, 0x5000, 16, 1, 0x400ab0⟩]]
        = world.written.map (List.map Prod.snd)
      ∧ loadProfLog (world.written.flatMap (fun log => dumpLog mainOnly (log.map Prod.snd)))
        = world.written.flatten.map
          (fun written => (profAllocation named_mainOnly written.2).record) := by
  have result := run_keepsAllocations mainOnly named_mainOnly ([] : List (ScoredPage ℚ))
    (.init :: mallocAndFree.map .call) (by decide +kernel)
    [(100, [⟨10, 0x5000, 8192, 1, 0x400ab0⟩, ⟨20, 0x5000, 0, 2, 0⟩,
      ⟨30, 0x5000, 16, 1, 0x400ab0⟩])]
    (by decide +kernel) _ (.refl _)
  exact ⟨result.1, result.2.1⟩

/-- A page run that is given back is logged with its length, and counts as an allocation. -/
theorem munmap_countsAsAllocation
    : let unmapping := madeBy (.munmap 0x5000 8192) 0 10
      let entry : LogEntry := ⟨10, 0x5000, 8192, 90, 0x400ab0⟩
      let world := [.init, .call unmapping].foldl World.step .initial
      profCleanup world.globals = some [(100, [entry])]
      ∧ loadProfLog (dumpLog mainOnly [entry]) = [(profAllocation named_mainOnly entry).record]
      ∧ (crossCorrelate ([] : List (ScoredPage ℚ))
          [profAllocation named_mainOnly entry]).length = 1
      ∧ unmapping.hook.allocates = false := by
  decide +kernel

end Kumf.PacToInterc
