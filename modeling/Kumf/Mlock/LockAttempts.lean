import Kumf.Mlock.FailedRealloc

/-! Which blocks `try_mlock` asks the kernel to lock. The counter of large allocations is an `int`
that goes on growing behind the limit, and the hot page list only switches the locking on.
-/

namespace Kumf.Mlock

open Kumf.Library
open Kumf.Interc (Addr Op)

/-- A block that is passed to `mlock`, with the range of its pages. -/
structure Attempt where
  block : Addr
  start : Nat
  length : Nat
  deriving DecidableEq, Repr

/-- The call of `mlock` that an event is. -/
def Event.attempt : Event → Option Attempt
  | .mlock block start length _ => some ⟨block, start, length⟩
  | _ => none

def attempts (events : List Event) : List Attempt := events.filterMap Event.attempt

/-- The size that the hooks hand to `record_alloc`. -/
def recordedSize : Op → Nat
  | .malloc sz => sz
  | .calloc nmemb size => nmemb * size % 2 ^ 64
  | .realloc _ size => size
  | .free _ => 0

namespace Call

/-- The new block of a call, when it is a large one. -/
def largeBlock (call : Call) : Option (Addr × Nat) :=
  call.replies.libc.bind
    (fun addr =>
      if routeThreshold < recordedSize call.op then some (addr, recordedSize call.op) else none)

/-- The large block that gets an entry of the table. -/
def recorded (call : Call) : Option (Addr × Nat) :=
  if call.replies.entry.isSome then call.largeBlock else none

/-- The library once the old block of a call is out of the table. -/
def cleared (call : Call) (lib : Globals) : Globals :=
  match call.op.pointer with
  | some p => (removeAlloc lib p).1
  | none => lib

end Call

/-- The budget lets a block pass. -/
def BudgetOpen (lib : Globals) (addr : Addr) (size : Nat) : Prop :=
  ¬ (0 < lib.mlockBudget
    ∧ lib.mlockBudget < (lib.totalLockedBytes + lockSize addr size) % 2 ^ 64)

instance (lib : Globals) (addr : Addr) (size : Nat) : Decidable (BudgetOpen lib addr size) :=
  inferInstanceAs (Decidable (¬ _))

/-- The counter lets the next large allocation pass. -/
def CounterOpen (lib : Globals) : Prop := toInt32 (lib.allocCount + 1) ≤ mlockFirstN

instance (lib : Globals) : Decidable (CounterOpen lib) := inferInstanceAs (Decidable (_ ≤ _))

-----------------------------------------------------------------------------------------
-- What the parts of an operation do
-----------------------------------------------------------------------------------------

/-- What stays the same outside of `try_mlock`. -/
structure SameLimits (before after : Globals) : Prop where
  loaded : after.hotPagesLoaded = before.hotPagesLoaded
  hotPages : after.hotPages = before.hotPages
  allocCount : after.allocCount = before.allocCount

/-- Taking a block out tries no lock and changes no limit. -/
theorem removeAlloc_limits (lib : Globals) (ptr : Addr)
    : SameLimits lib (removeAlloc lib ptr).1 ∧ attempts (removeAlloc lib ptr).2 = [] := by
  have steps := removeAlloc_step lib ptr
  generalize removeAlloc lib ptr = done at steps
  cases steps with
  | missing => exact ⟨⟨rfl, rfl, rfl⟩, rfl⟩
  | plain => exact ⟨⟨rfl, rfl, rfl⟩, rfl⟩
  | locked => exact ⟨⟨rfl, rfl, rfl⟩, rfl⟩

theorem Call.cleared_limits (call : Call) (lib : Globals) : SameLimits lib (call.cleared lib) := by
  unfold cleared
  split
  case h_1 p _ => exact (removeAlloc_limits lib p).1
  case h_2 => exact ⟨rfl, rfl, rfl⟩

/-- A large allocation is counted, and its pages are asked for if both limits let it pass. -/
structure TriesLock (lib : Globals) (addr : Addr) (size : Nat) (after : Globals)
    (events : List Event)
    : Prop where
  loaded : after.hotPagesLoaded = lib.hotPagesLoaded
  hotPages : after.hotPages = lib.hotPages
  allocCount : after.allocCount = toInt32 (lib.allocCount + 1)
  attempts
    : attempts events
      = if CounterOpen lib ∧ BudgetOpen lib addr size then
          [⟨addr, pageStart addr, lockSize addr size⟩]
        else
          []

/-- What `try_mlock` asks the kernel for, and when. -/
theorem tryMlock_tries (lib : Globals) (addr : Addr) {size : Nat} (answer : Bool)
    (large : size ≠ 0)
    : TriesLock lib addr size (tryMlock lib addr size answer).1
        (tryMlock lib addr size answer).2 := by
  unfold tryMlock
  rw [if_neg large]
  dsimp only
  split
  case isTrue behind =>
      refine ⟨rfl, rfl, rfl, ?_⟩
      rw [if_neg (fun both => absurd both.1 (Int.not_le.mpr behind))]
      rfl
  case isFalse counted =>
      split
      case isTrue full =>
          refine ⟨rfl, rfl, rfl, ?_⟩
          rw [if_neg (fun both => both.2 full)]
          rfl
      case isFalse room =>
          have passes : CounterOpen lib ∧ BudgetOpen lib addr size :=
            ⟨Int.not_lt.mp counted, room⟩
          cases answer <;> exact ⟨rfl, rfl, rfl, (if_pos passes).symm⟩

/-- A call asks for the pages of a block: it is large and recorded, there is a hot page list, and
both limits let it pass. The budget is that after the old block is gone.
-/
structure Attempted (lib : Globals) (call : Call) (addr : Addr) (size : Nat) : Prop where
  recorded : call.recorded = some (addr, size)
  hot : lib.hotPages ≠ []
  counter : CounterOpen lib
  budget : BudgetOpen (call.cleared lib) addr size

/-- What a call with a loaded hot page list does to the counter, and what it locks. -/
structure LimitStep (lib : Globals) (call : Call) (after : Globals) (events : List Event)
    : Prop where
  loaded : after.hotPagesLoaded = lib.hotPagesLoaded
  hotPages : after.hotPages = lib.hotPages
  allocCount
    : after.allocCount
      = if call.recorded ≠ none ∧ lib.hotPages ≠ [] then toInt32 (lib.allocCount + 1)
        else lib.allocCount
  asks
    : ∀ attempt,
        attempt ∈ attempts events
        ↔ ∃ addr size,
            Attempted lib call addr size
            ∧ attempt = ⟨addr, pageStart addr, lockSize addr size⟩

/-- A call that records no block leaves the counter alone. -/
theorem LimitStep.idle {lib : Globals} {call : Call} {after : Globals} {events : List Event}
    (limits : SameLimits lib after) (quiet : attempts events = [])
    (unrecorded : call.recorded = none ∨ lib.hotPages = [])
    : LimitStep lib call after events where
  loaded := limits.loaded
  hotPages := limits.hotPages
  allocCount := by
    rw [if_neg (fun both => unrecorded.elim both.1 both.2)]
    exact limits.allocCount
  asks := by
    intro attempt
    rw [quiet]
    constructor
    · exact (List.not_mem_nil · |>.elim)
    · rintro ⟨addr, size, attempted, _⟩
      rcases unrecorded with none | cold
      · rw [attempted.recorded] at none
        cases none
      · exact absurd cold attempted.hot

/-- `record_alloc` of a large block that gets an entry. -/
theorem recordAlloc_large (lib : Globals) (addr : Addr) {loc : Addr} {size : Nat}
    {replies : Replies} (large : routeThreshold < size) (given : replies.entry = some loc)
    : (lib.hotPages = []
        ∧ SameLimits lib (recordAlloc lib (some addr) size replies).1
        ∧ attempts (recordAlloc lib (some addr) size replies).2 = [])
      ∨ (lib.hotPages ≠ []
        ∧ TriesLock lib addr size (recordAlloc lib (some addr) size replies).1
          (recordAlloc lib (some addr) size replies).2) := by
  simp only [recordAlloc, if_neg (Nat.not_le.mpr large), given]
  by_cases cold : lib.hotPages = []
  · rw [if_neg (by simp [cold])]
    exact .inl ⟨cold, ⟨rfl, rfl, rfl⟩, rfl⟩
  · rw [if_pos (by simp [cold])]
    have nonzero : size ≠ 0 := Nat.ne_of_gt (Nat.zero_lt_of_lt large)
    have tries (before : Globals) := tryMlock_tries before addr replies.mlock nonzero
    exact .inr ⟨cold, (tries _).loaded, (tries _).hotPages, (tries _).allocCount,
      (tries _).attempts⟩

/-- `record_alloc` behind the removal of the old block. -/
theorem recordAlloc_limits (lib : Globals) (call : Call)
    : let done :=
        recordAlloc (call.cleared lib) call.replies.libc (recordedSize call.op) call.replies
      LimitStep lib call done.1 done.2 := by
  have limits := call.cleared_limits lib
  dsimp only
  cases block : call.replies.libc with
  | none => exact .idle limits rfl (.inl (by simp [Call.recorded, Call.largeBlock, block]))
  | some addr =>
      rcases Nat.lt_or_ge routeThreshold (recordedSize call.op) with large | small
      · have taken : call.largeBlock = some (addr, recordedSize call.op) := by
          rw [Call.largeBlock, block, Option.bind_some, if_pos large]
        cases given : call.replies.entry with
        | none =>
            simp only [recordAlloc, if_neg (Nat.not_le.mpr large), given]
            exact .idle limits rfl (.inl (by simp [Call.recorded, given]))
        | some loc =>
            have recorded : call.recorded = some (addr, recordedSize call.op) := by
              simp [Call.recorded, given, taken]
            rcases recordAlloc_large (call.cleared lib) addr large given with
              ⟨cold, same, quiet⟩ | ⟨hot, tries⟩
            · exact .idle
                ⟨same.loaded.trans limits.loaded, same.hotPages.trans limits.hotPages,
                  same.allocCount.trans limits.allocCount⟩
                quiet (.inr (limits.hotPages ▸ cold))
            · have warm : lib.hotPages ≠ [] := limits.hotPages ▸ hot
              have counter : CounterOpen (call.cleared lib) ↔ CounterOpen lib := by
                rw [CounterOpen, CounterOpen, limits.allocCount]
              constructor
              case loaded => exact tries.loaded.trans limits.loaded
              case hotPages => exact tries.hotPages.trans limits.hotPages
              case allocCount =>
                  have counts : call.recorded ≠ none := by
                    rw [recorded]
                    exact Option.some_ne_none _
                  rw [if_pos ⟨counts, warm⟩, tries.allocCount, limits.allocCount]
              case asks =>
                  intro attempt
                  rw [tries.attempts]
                  constructor
                  · intro member
                    split at member
                    case isFalse => cases member
                    case isTrue passes =>
                        exact ⟨addr, recordedSize call.op,
                          ⟨recorded, warm, counter.mp passes.1, passes.2⟩,
                          List.mem_singleton.mp member⟩
                  · rintro ⟨other, size, attempted, rfl⟩
                    obtain ⟨rfl, rfl⟩ :=
                      Prod.mk.inj (Option.some.inj (recorded.symm.trans attempted.recorded))
                    rw [if_pos ⟨counter.mpr attempted.counter, attempted.budget⟩]
                    exact List.mem_singleton_self _
      · have none : call.largeBlock = none := by
          rw [Call.largeBlock, block, Option.bind_some, if_neg (Nat.not_lt.mpr small)]
        simp only [recordAlloc, if_pos small]
        exact .idle limits rfl (.inl (by simp [Call.recorded, none]))

/-- Every hook removes the old block, asks libc, and records the new one. -/
theorem exec_limits {lib : Globals} (loaded : lib.hotPagesLoaded = true) (call : Call)
    : LimitStep lib call (exec lib call).globals (exec lib call).events := by
  have limits := recordAlloc_limits lib call
  obtain ⟨replies, op⟩ := call
  have quiet (p : Addr) : (removeAlloc lib p).2.filterMap Event.attempt = [] :=
    (removeAlloc_limits lib p).2
  have still (p : Addr) : (removeAlloc lib p).1.hotPagesLoaded = true :=
    (removeAlloc_limits lib p).1.loaded.trans loaded
  cases op with
  | malloc sz =>
      simp only [exec, malloc, track, loaded, if_true]
      exact ⟨limits.loaded, limits.hotPages, limits.allocCount, limits.asks⟩
  | calloc nmemb size =>
      simp only [exec, calloc, track, loaded, if_true]
      exact ⟨limits.loaded, limits.hotPages, limits.allocCount, limits.asks⟩
  | realloc ptr size =>
      cases ptr with
      | none =>
          simp only [exec, realloc, track, loaded, if_true]
          exact ⟨limits.loaded, limits.hotPages, limits.allocCount, limits.asks⟩
      | some p =>
          simp only [exec, realloc, track, still p, if_true]
          refine ⟨limits.loaded, limits.hotPages, limits.allocCount, fun attempt => ?_⟩
          rw [attempts, List.filterMap_append, quiet p]
          exact limits.asks attempt
  | free ptr =>
      have unrecorded : Call.recorded ⟨replies, .free ptr⟩ = none := by
        cases block : replies.libc <;> simp [Call.recorded, Call.largeBlock, recordedSize, block]
      cases ptr with
      | none => exact .idle ⟨rfl, rfl, rfl⟩ rfl (.inl unrecorded)
      | some p =>
          simp only [exec, free, loaded, if_true]
          refine .idle (removeAlloc_limits lib p).1 ?_ (.inl unrecorded)
          rw [attempts, List.filterMap_append, quiet p]
          rfl

-----------------------------------------------------------------------------------------
-- The first large allocations
-----------------------------------------------------------------------------------------

/-- The library with the numbers of its large allocations so far: all, and those with an entry. -/
structure Tally where
  lib : Globals
  large : Nat
  recorded : Nat

namespace Tally

def start (file : Option (List Char)) : Tally where
  lib := loadHotPages file unloaded
  large := 0
  recorded := 0

def step (tally : Tally) (call : Call) : Tally where
  lib := (exec tally.lib call).globals
  large := tally.large + if call.largeBlock.isSome then 1 else 0
  recorded := tally.recorded + if call.recorded.isSome then 1 else 0

/-- A call asks for a lock only when it brings one of the first large allocations. -/
def AsksAmongFirst (tally : Tally) (call : Call) : Prop :=
  attempts (exec tally.lib call).events ≠ [] → (tally.large : Int) < mlockFirstN

/-- The number of recorded allocations so far, modulo the range of an `int`, lies between the
limit and the largest `int`.
-/
def Passed (tally : Tally) : Prop :=
  mlockFirstN ≤ ((tally.recorded % 2 ^ 32 : Nat) : Int) ∧ tally.recorded % 2 ^ 32 < 2 ^ 31 - 1

/-- A recorded allocation behind the first ones finds the counter beyond the limit, or the budget
used up.
-/
def CountsOn (tally : Tally) (call : Call) : Prop :=
  ∀ addr size,
    call.recorded = some (addr, size)
    → tally.lib.hotPages ≠ []
    → mlockFirstN ≤ tally.large
    → BudgetOpen (call.cleared tally.lib) addr size
    → tally.Passed

/-- The counter is the number of recorded allocations as an `int`. -/
structure Counted (tally : Tally) : Prop where
  loaded : tally.lib.hotPagesLoaded = true
  counter : tally.lib.hotPages ≠ [] → tally.lib.allocCount = toInt32 tally.recorded

/-- At the start nothing was tried. -/
theorem start_counted (file : Option (List Char)) : (start file).Counted where
  loaded := rfl
  counter := fun _ => (toInt32_eq (n := 0) (by omega) (by omega)).symm

/-- The counter is that of the large blocks, call after call. -/
theorem Counted.step {tally : Tally} (counted : tally.Counted) (call : Call)
    : (tally.step call).Counted := by
  have limits := exec_limits counted.loaded call
  constructor
  case loaded => exact limits.loaded.trans counted.loaded
  case counter =>
      intro hot
      have lib : (tally.step call).lib = (exec tally.lib call).globals := rfl
      have count : (tally.step call).recorded
          = tally.recorded + if call.recorded.isSome then 1 else 0 :=
        rfl
      rw [lib, limits.hotPages] at hot
      rw [lib, count, limits.allocCount, counted.counter hot]
      by_cases recorded : call.recorded = none
      · rw [if_neg (fun both => both.1 recorded), recorded]
        rfl
      · rw [if_pos ⟨recorded, hot⟩, if_pos (Option.isSome_iff_ne_none.mpr recorded), toInt32,
          toInt32, toInt32]
        omega

/-- The counter lets a call pass in the first turn of its range, and while it is negative. -/
theorem Counted.counterOpen_iff {tally : Tally} (counted : tally.Counted)
    (hot : tally.lib.hotPages ≠ [])
    : CounterOpen tally.lib ↔ ¬ tally.Passed := by
  rw [CounterOpen, counted.counter hot, toInt32, toInt32, Passed, mlockFirstN]
  omega

/-- A call asks among the first blocks exactly if its counter says so. -/
theorem Counted.asks_iff {tally : Tally} (counted : tally.Counted) (call : Call)
    : tally.AsksAmongFirst call ↔ tally.CountsOn call := by
  have limits := exec_limits counted.loaded call
  constructor
  · intro first addr size recorded hot behind budget
    by_contra passes
    have counter := (counted.counterOpen_iff hot).mpr passes
    have asked := (limits.asks _).mpr ⟨addr, size, ⟨recorded, hot, counter, budget⟩, rfl⟩
    exact absurd (first (List.ne_nil_of_mem asked)) (Int.not_lt.mpr behind)
  · intro countsOn asked
    obtain ⟨attempt, member⟩ := List.exists_mem_of_ne_nil _ asked
    obtain ⟨addr, size, attempted, _⟩ := (limits.asks attempt).mp member
    by_contra behind
    exact (counted.counterOpen_iff attempted.hot).mp attempted.counter
      (countsOn addr size attempted.recorded attempted.hot (Int.not_lt.mp behind) attempted.budget)

/-- A run asks for locks on its first large allocations alone just if all its calls count on. -/
theorem run_asksAmongFirst_iff (file : Option (List Char)) (calls : List Call)
    : Along step AsksAmongFirst (start file) calls ↔ Along step CountsOn (start file) calls :=
  along_congr step (fun _ call counted _ => counted.step call)
    (fun _ call counted => counted.asks_iff call) (start_counted file)

/-- Fewer than 2^31 large allocations, all of them with an entry, count on. -/
theorem countsOn_of_few {tally : Tally} {calls : List Call}
    (entries : ∀ call ∈ calls, call.recorded = call.largeBlock)
    (level : tally.recorded = tally.large)
    (few : tally.large + calls.countP (fun call => call.largeBlock.isSome) < 2 ^ 31)
    : Along step CountsOn tally calls := by
  induction calls generalizing tally with
  | nil => trivial
  | cons call rest ih =>
      have same := entries call List.mem_cons_self
      rw [List.countP_cons] at few
      constructor
      · intro addr size recorded _ behind _
        have large : call.largeBlock.isSome = true := by rw [← same, recorded]; rfl
        rw [if_pos large] at few
        rw [Passed, level, Nat.mod_eq_of_lt (by omega)]
        exact ⟨behind, by omega⟩
      · refine ih (fun other member => entries other (List.mem_cons_of_mem call member)) ?_ ?_
        · simp only [step, same, level]
        · simp only [step]
          omega

-----------------------------------------------------------------------------------------
-- A block that is resized over and over
-----------------------------------------------------------------------------------------

/-- A resize in place that stays behind the last lock; the kernel refuses every lock. -/
def resizeInPlace : Call :=
  ⟨⟨some 0x10000, some 0x200, false⟩, .realloc (some 0x10000) 5000⟩

/-- After `n` such resizes. -/
structure Resized (tally : Tally) (n : Nat) : Prop extends Counted tally where
  hot : tally.lib.hotPages ≠ []
  unlocked : tally.lib.totalLockedBytes = 0
  budget : tally.lib.mlockBudget = 10485760
  large : tally.large = n
  recorded : tally.recorded = n

/-- Without locked bytes the account stays empty. -/
theorem removeAlloc_unlocked {lib : Globals} (unlocked : lib.totalLockedBytes = 0) (ptr : Addr)
    : (removeAlloc lib ptr).1.totalLockedBytes = 0
      ∧ (removeAlloc lib ptr).1.mlockBudget = lib.mlockBudget := by
  unfold removeAlloc
  split
  case h_1 => exact ⟨unlocked, rfl⟩
  case h_2 entry table _ =>
      dsimp only
      split
      case isFalse => exact ⟨unlocked, rfl⟩
      case isTrue =>
          rw [unlocked, Nat.zero_sub, ite_self]
          exact ⟨rfl, rfl⟩

/-- A refused lock changes no account. -/
theorem tryMlock_refused (lib : Globals) (addr : Addr) (size : Nat)
    : (tryMlock lib addr size false).1.totalLockedBytes = lib.totalLockedBytes
      ∧ (tryMlock lib addr size false).1.mlockBudget = lib.mlockBudget := by
  simp only [tryMlock, Bool.false_eq_true, if_false]
  repeat' split
  all_goals exact ⟨rfl, rfl⟩

/-- A block without a lock changes no account. -/
theorem recordAlloc_refused (lib : Globals) (ptr : Option Addr) (size : Nat) {replies : Replies}
    (refused : replies.mlock = false)
    : (recordAlloc lib ptr size replies).1.totalLockedBytes = lib.totalLockedBytes
      ∧ (recordAlloc lib ptr size replies).1.mlockBudget = lib.mlockBudget := by
  unfold recordAlloc
  rw [refused]
  split
  case h_1 => exact ⟨rfl, rfl⟩
  case h_2 addr =>
      split
      case isTrue => exact ⟨rfl, rfl⟩
      case isFalse =>
          split
          case h_1 => exact ⟨rfl, rfl⟩
          case h_2 loc _ =>
              dsimp only
              split
              case isTrue => exact tryMlock_refused _ addr size
              case isFalse => exact ⟨rfl, rfl⟩

theorem resizeInPlace_recorded
    : resizeInPlace.largeBlock = some (0x10000, 5000)
      ∧ resizeInPlace.recorded = some (0x10000, 5000) := by
  decide

/-- What a resize in place does to the library. -/
theorem resizeInPlace_globals {lib : Globals} (loaded : lib.hotPagesLoaded = true)
    : (exec lib resizeInPlace).globals
      = (recordAlloc (removeAlloc lib 0x10000).1 (some 0x10000) 5000 resizeInPlace.replies).1 := by
  have still : (removeAlloc lib 0x10000).1.hotPagesLoaded = true :=
    (removeAlloc_limits lib 0x10000).1.loaded.trans loaded
  simp only [exec, realloc, track, resizeInPlace, still, if_true]

/-- Every such resize counts. -/
theorem Resized.step {tally : Tally} {n : Nat} (resized : Resized tally n)
    : Resized (tally.step resizeInPlace) (n + 1) where
  toCounted := resized.toCounted.step resizeInPlace
  hot := by
    have limits := exec_limits resized.loaded resizeInPlace
    exact limits.hotPages.symm ▸ resized.hot
  unlocked := by
    rw [Tally.step, resizeInPlace_globals resized.loaded, (recordAlloc_refused _ _ _ rfl).1]
    exact (removeAlloc_unlocked resized.unlocked 0x10000).1
  budget := by
    rw [Tally.step, resizeInPlace_globals resized.loaded, (recordAlloc_refused _ _ _ rfl).2,
      (removeAlloc_unlocked resized.unlocked 0x10000).2]
    exact resized.budget
  large := by
    rw [Tally.step, resizeInPlace_recorded.1, resized.large]
    rfl
  recorded := by
    rw [Tally.step, resizeInPlace_recorded.2, resized.recorded]
    rfl

/-- Any number of them counts. -/
theorem resized_replicate (n : Nat)
    : Resized ((List.replicate n resizeInPlace).foldl step (start (some World.oneHotPage))) n := by
  induction n with
  | zero =>
      refine ⟨start_counted _, ?_, rfl, rfl, rfl, rfl⟩
      decide
  | succ n ih =>
      rw [List.replicate_succ', List.foldl_append]
      exact ih.step

/-- With the largest `int` in the counter the next resize asks the kernel again. -/
theorem Resized.asks_late {tally : Tally} {n : Nat} (resized : Resized tally n)
    (wraps : n % 2 ^ 32 = 2 ^ 31 - 1)
    : ¬ tally.AsksAmongFirst resizeInPlace := by
  intro first
  have counter : CounterOpen tally.lib :=
    (resized.counterOpen_iff resized.hot).mpr (by rw [Passed, resized.recorded]; omega)
  have budget : BudgetOpen (resizeInPlace.cleared tally.lib) 0x10000 5000 := by
    have size : lockSize 0x10000 5000 = 8192 := by decide
    have cleared : resizeInPlace.cleared tally.lib = (removeAlloc tally.lib 0x10000).1 := rfl
    obtain ⟨total, same⟩ := removeAlloc_unlocked resized.unlocked 0x10000
    rw [BudgetOpen, cleared, total, same, resized.budget, size]
    omega
  have asked := ((exec_limits resized.loaded resizeInPlace).asks _).mpr
    ⟨_, _, ⟨resizeInPlace_recorded.2, resized.hot, counter, budget⟩, rfl⟩
  have early := first (List.ne_nil_of_mem asked)
  rw [resized.large, mlockFirstN] at early
  omega

/-- The counter wraps in the last of these resizes. -/
theorem resizeInPlace_asks_late
    : ¬ Along step AsksAmongFirst (start (some World.oneHotPage))
        (List.replicate (2 ^ 31) resizeInPlace) := by
  have count : 2 ^ 31 = 2 ^ 31 - 1 + 1 := by omega
  rw [count, List.replicate_succ', along_append]
  intro run
  exact (resized_replicate (2 ^ 31 - 1)).asks_late (by omega) run.2.1

-----------------------------------------------------------------------------------------
-- Locks and the hot page list
-----------------------------------------------------------------------------------------

/-- A range contains an address of a hot page. -/
def MeetsHotPage (lib : Globals) (start length : Nat) : Prop :=
  ∃ addr, start ≤ addr ∧ addr < start + length ∧ isHotPage lib addr = true

/-- All pages that a call asks to lock are those of a block with a hot page. -/
def AsksForHot (tally : Tally) (call : Call) : Prop :=
  ∀ attempt ∈ attempts (exec tally.lib call).events,
    MeetsHotPage tally.lib attempt.start attempt.length

/-- A recorded block that neither the counter nor the budget keeps out has a hot page. -/
def BringsHot (tally : Tally) (call : Call) : Prop :=
  ∀ addr size,
    call.recorded = some (addr, size)
    → tally.lib.hotPages ≠ []
    → ¬ tally.Passed
    → BudgetOpen (call.cleared tally.lib) addr size
    → MeetsHotPage tally.lib (pageStart addr) (lockSize addr size)

/-- A call asks for a hot page exactly if it brings one. -/
theorem Counted.asksForHot_iff {tally : Tally} (counted : tally.Counted) (call : Call)
    : tally.AsksForHot call ↔ tally.BringsHot call := by
  have limits := exec_limits counted.loaded call
  constructor
  · intro asksHot addr size recorded hot counts budget
    have counter := (counted.counterOpen_iff hot).mpr counts
    exact asksHot ⟨addr, pageStart addr, lockSize addr size⟩
      ((limits.asks _).mpr ⟨addr, size, ⟨recorded, hot, counter, budget⟩, rfl⟩)
  · intro brings attempt member
    obtain ⟨addr, size, attempted, rfl⟩ := (limits.asks attempt).mp member
    exact brings addr size attempted.recorded attempted.hot
      ((counted.counterOpen_iff attempted.hot).mp attempted.counter) attempted.budget

/-- A run locks hot pages alone just if its program brings only hot blocks while the two limits
are open. The list itself is not asked.
-/
theorem run_asksForHot_iff (file : Option (List Char)) (calls : List Call)
    : Along step AsksForHot (start file) calls ↔ Along step BringsHot (start file) calls :=
  along_congr step (fun _ call counted _ => counted.step call)
    (fun _ call counted => counted.asksForHot_iff call) (start_counted file)

/-- The first large block of a program, far from the only page of the list. -/
def coldBlock : Call := ⟨⟨some 0x10000, some 0x200, true⟩, .malloc 8192⟩

theorem coldBlock_locked
    : attempts (exec (start (some World.oneHotPage)).lib coldBlock).events
        = [⟨0x10000, 0x10000, 8192⟩]
      ∧ ¬ Along step AsksForHot (start (some World.oneHotPage)) [coldBlock] := by
  have asked : attempts (exec (start (some World.oneHotPage)).lib coldBlock).events
      = [⟨0x10000, 0x10000, 8192⟩] := by
    decide
  refine ⟨asked, fun run => ?_⟩
  have member : (⟨0x10000, 0x10000, 8192⟩ : Attempt)
      ∈ attempts (exec (start (some World.oneHotPage)).lib coldBlock).events := by
    rw [asked]
    exact List.mem_singleton_self _
  obtain ⟨addr, low, high, hot⟩ := run.1 _ member
  have pages : (start (some World.oneHotPage)).lib.hotPages = [0x7f1234567000] := by decide
  rw [isHotPage, pages, List.any_cons, List.any_nil, Bool.or_false, decide_eq_true_eq] at hot
  dsimp only at low high
  omega

end Tally

end Kumf.Mlock
