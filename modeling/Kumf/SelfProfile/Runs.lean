import Kumf.Library.Runs
import Kumf.SelfProfile.Buffers
import Mathlib.Data.List.DropRight

/-! Perf appends while the profiling thread drains. Whatever the order of their steps, the thread
writes each sample that its last call found in a buffer once and in order.
-/

namespace Kumf.SelfProfile

open Kumf.Library

/-- A step: perf appends a whole record, or the thread calls `parse_spe_buffer` or takes a turn
of its loop.
-/
inductive Event where
  | append (cpu : Nat) (record : Record)
  | enter (cpu : Nat)
  | turn

namespace Event

def appends (cpu : Nat) : Event → Option Record
  | append other record => if other = cpu then some record else none
  | _ => none

def entered : Event → Option Nat
  | enter cpu => some cpu
  | _ => none

def isTurn : Event → Bool
  | turn => true
  | _ => false

end Event

/-- The buffers of the CPUs, the call under way and the output. -/
structure World where
  pages : Nat → Page
  walk : Option Walk
  output : List SampleLine

namespace World

/-- Fresh buffers, whatever their memory is. -/
def start (bases : Nat → Nat → UInt8) : World where
  pages := fun cpu => ⟨0, 0, bases cpu⟩
  walk := none
  output := []

def step (world : World) : Event → World
  | .append cpu record =>
      { world with
        pages := Function.update world.pages cpu ((world.pages cpu).append record) }
  | .enter cpu =>
      match world.walk with
      | none => { world with walk := (world.pages cpu).enter cpu }
      | some _ => world
  | .turn =>
      match world.walk with
      | none => world
      | some walk =>
          match walk.turn (world.pages walk.cpu).base with
          | some (next, lines) =>
              { world with walk := some next, output := world.output ++ lines }
          | none =>
              { world with
                pages := Function.update world.pages walk.cpu
                  ((world.pages walk.cpu).acknowledge walk)
                walk := none }

/-- A record finds room, and a call comes when none is under way. -/
def Allows (world : World) : Event → Prop
  | .append cpu record => (world.pages cpu).Takes record
  | .enter _ => world.walk.isNone = true
  | .turn => True

instance (world : World) : ∀ event, Decidable (world.Allows event)
  | .append cpu record => inferInstanceAs (Decidable ((world.pages cpu).Takes record))
  | .enter _ => inferInstanceAs (Decidable (_ = true))
  | .turn => inferInstanceAs (Decidable True)

/-- The lines of one CPU. -/
def linesOf (world : World) (cpu : Nat) : List (Nat × Nat) :=
  (world.output.filter (fun line => line.cpu = cpu)).map SampleLine.fields

section
variable {world : World} {walk : Walk}

/-- A call that comes when none is under way. -/
theorem step_enter (idle : world.walk = none) {cpu : Nat}
    : world.step (.enter cpu) = { world with walk := (world.pages cpu).enter cpu } := by
  simp [step, idle]

theorem step_turn_of_idle (idle : world.walk = none) : world.step .turn = world := by
  simp [step, idle]

/-- A turn that goes on. -/
theorem step_turn_of_some (walking : world.walk = some walk) {next : Walk}
    {lines : List SampleLine}
    (turned : walk.turn (world.pages walk.cpu).base = some (next, lines))
    : world.step .turn = { world with walk := some next, output := world.output ++ lines } := by
  simp [step, walking, turned]

/-- A turn that ends the call. -/
theorem step_turn_of_none (walking : world.walk = some walk)
    (turned : walk.turn (world.pages walk.cpu).base = none)
    : world.step .turn
      = { world with
          pages := Function.update world.pages walk.cpu
            ((world.pages walk.cpu).acknowledge walk)
          walk := none } := by
  simp [step, walking, turned]

/-- The lines of one CPU grow by those written for it. -/
theorem linesOf_write {lines : List SampleLine} {cpu : Nat}
    (itsCpu : ∀ line ∈ lines, line.cpu = cpu) (next : Option Walk) (other : Nat)
    : ({ world with walk := next, output := world.output ++ lines } : World).linesOf other
      = world.linesOf other ++ if cpu = other then lines.map SampleLine.fields else [] := by
  rw [linesOf, List.filter_append, List.map_append, linesOf]
  by_cases same : cpu = other
  · have all : lines.filter (fun line => line.cpu = other) = lines :=
      List.filter_eq_self.mpr (fun line written =>
        decide_eq_true ((itsCpu line written).trans same))
    rw [if_pos same, all]
  · have none : lines.filter (fun line => line.cpu = other) = [] :=
      List.filter_eq_nil_iff.mpr (fun line written wanted =>
        same ((itsCpu line written).symm.trans (of_decide_eq_true wanted)))
    rw [if_neg same, none, List.map_nil]

end

end World

/-- The world after some steps. -/
def run (bases : Nat → Nat → UInt8) (events : List Event) : World :=
  events.foldl World.step (.start bases)

/-- The records appended for a CPU. -/
def appended (cpu : Nat) (events : List Event) : List Record :=
  events.filterMap (Event.appends cpu)

/-- The records appended for a CPU before the last call for it. -/
def seen (cpu : Nat) (events : List Event) : List Record :=
  appended cpu (events.rdropWhile (fun event => event.entered ≠ some cpu))

section
variable {cpu : Nat} {events : List Event} {event : Event}

/-- A step appends one record at most. -/
theorem appended_concat
    : appended cpu (events ++ [event]) = appended cpu events ++ (event.appends cpu).toList := by
  rw [appended, List.filterMap_append]
  cases taken : event.appends cpu with
  | none => simp [taken, appended]
  | some record => simp [taken, appended]

/-- Only a call for the CPU shows more of its records. -/
theorem seen_concat_of_ne (other : event.entered ≠ some cpu)
    : seen cpu (events ++ [event]) = seen cpu events := by
  rw [seen, List.rdropWhile_concat_pos _ _ _ (by simpa using other), seen]

/-- A call for the CPU shows all of its records. -/
theorem seen_concat_enter
    : seen cpu (events ++ [.enter cpu]) = appended cpu events := by
  rw [seen, List.rdropWhile_concat_neg _ _ _ (by simp [Event.entered]), appended_concat]
  exact List.append_nil _

/-- What is appended, and what a call has seen of it, only grows. -/
theorem appended_prefix (first later : List Event)
    : appended cpu first <+: appended cpu (first ++ later) := by
  rw [appended, appended, List.filterMap_append]
  exact List.prefix_append ..

/-- What has been seen was appended. -/
theorem seen_prefix_appended (cpu : Nat) (events : List Event)
    : seen cpu events <+: appended cpu events :=
  (List.rdropWhile_prefix _ events).filterMap _

/-- What has been seen stays seen. -/
theorem seen_prefix_concat (cpu : Nat) (events : List Event) (event : Event)
    : seen cpu events <+: seen cpu (events ++ [event]) := by
  by_cases called : event.entered = some cpu
  · have enter : event = .enter cpu := by
      cases event with
      | enter other => exact congrArg Event.enter (Option.some.inj called)
      | append other record => cases called
      | turn => cases called
    rw [enter, seen_concat_enter]
    exact seen_prefix_appended cpu events
  · exact (seen_concat_of_ne called).symm ▸ List.prefix_refl _

end

-----------------------------------------------------------------------------------------
-- The account of a buffer
-----------------------------------------------------------------------------------------

/-- The records of one CPU: acknowledged ones, those that the call under way has walked over, those
that it still has before it, and those it does not know of.
-/
structure Account where
  acked : List Record
  walked : List Record
  ahead : List Record
  fresh : List Record

/-- The account is right for the steps so far and the world after them. -/
structure Account.Of (account : Account) (cpu : Nat) (events : List Event) (world : World)
    : Prop where
  appended
    : appended cpu events
      = account.acked ++ (account.walked ++ account.ahead) ++ account.fresh
  seen : seen cpu events = account.acked ++ (account.walked ++ account.ahead)
  unread : (world.pages cpu).Unread (account.walked ++ account.ahead ++ account.fresh)
  lines : world.linesOf cpu = samples cpu (account.acked ++ account.walked)
  away
    : (∀ walk, world.walk = some walk → walk.cpu ≠ cpu)
      → account.walked = [] ∧ account.ahead = []
  here
    : ∀ walk, world.walk = some walk → walk.cpu = cpu →
        walk.Stands (world.pages cpu) account.walked account.ahead

namespace Account.Of

variable {account : Account} {cpu : Nat} {events : List Event} {world : World}

/-- A step that is about other CPUs only leaves the account as it is. -/
theorem frame (right : account.Of cpu events world) {event : Event} {after : World}
    (noRecord : event.appends cpu = none) (noCall : event.entered ≠ some cpu)
    (page : after.pages cpu = world.pages cpu) (lines : after.linesOf cpu = world.linesOf cpu)
    (walks : ∀ walk, walk.cpu = cpu → (after.walk = some walk ↔ world.walk = some walk))
    : account.Of cpu (events ++ [event]) after := by
  constructor
  case appended => simp [appended_concat, noRecord, right.appended]
  case seen => rw [seen_concat_of_ne noCall, right.seen]
  case unread =>
      rw [page]
      exact right.unread
  case lines => rw [lines, right.lines]
  case away =>
      intro elsewhere
      refine right.away (fun walk walking itsCpu => ?_)
      exact elsewhere walk ((walks walk itsCpu).mpr walking) itsCpu
  case here =>
      intro walk walking itsCpu
      rw [page]
      exact right.here walk ((walks walk itsCpu).mp walking) itsCpu

/-- A record is appended to the fresh ones of its CPU. -/
theorem step_append (right : account.Of cpu events world) {other : Nat} {record : Record}
    (takes : world.Allows (.append other record))
    : ∃ next : Account, next.Of cpu (events ++ [.append other record])
        (world.step (.append other record))
      ∧ next.ahead = account.ahead := by
  have noCall : (Event.append other record).entered ≠ some cpu := nofun
  by_cases itsCpu : other = cpu
  · subst itsCpu
    refine ⟨{ account with fresh := account.fresh ++ [record] }, ?_, rfl⟩
    constructor
    case appended =>
        simp [appended_concat, right.appended, Event.appends]
    case seen => rw [seen_concat_of_ne noCall, right.seen]
    case unread =>
        simp only [World.step, Function.update_self]
        rw [← List.append_assoc]
        exact right.unread.append takes
    case lines => exact right.lines
    case away => exact right.away
    case here =>
        intro walk walking itsCpu
        simp only [World.step, Function.update_self]
        exact (right.here walk walking itsCpu).append record
  · refine ⟨account, right.frame (if_neg itsCpu) noCall ?_ rfl (fun _ _ => Iff.rfl), rfl⟩
    exact Function.update_of_ne (Ne.symm itsCpu) _ _

/-- A call for the CPU has all its unread records ahead. -/
theorem step_enter_here (right : account.Of cpu events world)
    (idle : world.Allows (.enter cpu))
    : ∃ next : Account, next.Of cpu (events ++ [.enter cpu]) (world.step (.enter cpu)) := by
  have noWalk : world.walk = none := Option.isNone_iff_eq_none.mp idle
  obtain ⟨noneWalked, noneAhead⟩ := right.away (by simp [noWalk])
  obtain ⟨acked, walked, ahead, fresh⟩ := account
  obtain rfl : walked = [] := noneWalked
  obtain rfl : ahead = [] := noneAhead
  have all : SelfProfile.appended cpu events = acked ++ ([] ++ fresh) := by
    simpa using right.appended
  have unread : (world.pages cpu).Unread fresh := right.unread
  refine ⟨⟨acked, [], fresh, []⟩, ?_⟩
  rw [World.step_enter noWalk]
  constructor
  case appended =>
      simp [appended_concat, all, Event.appends]
  case seen => rw [seen_concat_enter, all]
  case unread => simpa using unread
  case lines => exact right.lines
  case away =>
      intro elsewhere
      rcases unread.enter cpu with ⟨_, rfl⟩ | ⟨walk, walks, itsCpu, _⟩
      · exact ⟨rfl, rfl⟩
      · exact absurd itsCpu (elsewhere walk walks)
  case here =>
      intro walk walking _
      rcases unread.enter cpu with ⟨returns, _⟩ | ⟨_, walks, _, stands⟩
      · cases returns.symm.trans walking
      · rw [← Option.some.inj (walks.symm.trans walking)]
        exact stands

/-- A call for any CPU leaves an account. -/
theorem step_enter (right : account.Of cpu events world) {other : Nat}
    (idle : world.Allows (.enter other))
    : ∃ next : Account, next.Of cpu (events ++ [.enter other]) (world.step (.enter other)) := by
  by_cases itsCpu : other = cpu
  · subst itsCpu
    exact right.step_enter_here idle
  · have noWalk : world.walk = none := Option.isNone_iff_eq_none.mp idle
    have noCall : (Event.enter other).entered ≠ some cpu := by
      simpa [Event.entered] using itsCpu
    refine ⟨account, right.frame rfl noCall ?_ ?_ (fun walk here => ?_)⟩
    · rw [World.step_enter noWalk]
    · rw [World.step_enter noWalk]
      rfl
    · rw [World.step_enter noWalk, noWalk]
      refine ⟨fun walks => ?_, nofun⟩
      exact absurd ((Page.cpu_of_enter walks).symm.trans here) itsCpu

/-- A turn for another CPU, or for none. -/
theorem step_turn_elsewhere (right : account.Of cpu events world)
    (elsewhere : ∀ walk, world.walk = some walk → walk.cpu ≠ cpu)
    : account.Of cpu (events ++ [.turn]) (world.step .turn) := by
  cases walking : world.walk with
  | none =>
      rw [World.step_turn_of_idle walking]
      exact right.frame rfl nofun rfl rfl (fun _ _ => Iff.rfl)
  | some walk =>
      have otherCpu : walk.cpu ≠ cpu := elsewhere walk walking
      cases turned : walk.turn (world.pages walk.cpu).base with
      | none =>
          rw [World.step_turn_of_none walking turned]
          refine right.frame rfl nofun ?_ rfl (fun walk' here => ?_)
          · exact Function.update_of_ne otherCpu.symm _ _
          · exact ⟨nofun, fun walking' => absurd here (elsewhere walk' walking')⟩
      | some taken =>
          obtain ⟨next, lines⟩ := taken
          obtain ⟨nextCpu, _, linesCpu⟩ := Walk.kept_of_turn turned
          rw [World.step_turn_of_some walking turned]
          refine right.frame rfl nofun rfl ?_ (fun walk' here => ⟨fun walking' => ?_, ?_⟩)
          · rw [World.linesOf_write linesCpu, if_neg otherCpu, List.append_nil]
          · obtain rfl := Option.some.inj walking'
            exact absurd (nextCpu.symm.trans here) otherCpu
          · exact fun walking' => absurd here (elsewhere walk' walking')

/-- A turn with nothing ahead returns, and all records walked over are acknowledged. -/
theorem step_turn_return (right : account.Of cpu events world) {walk : Walk}
    (walking : world.walk = some walk) (itsCpu : walk.cpu = cpu) (done : account.ahead = [])
    : Account.Of ⟨account.acked ++ account.walked, [], [], account.fresh⟩ cpu
        (events ++ [.turn]) (world.step .turn)
      ∧ (world.step .turn).walk = none := by
  have noCall : Event.turn.entered ≠ some cpu := nofun
  have stands := right.here walk walking itsCpu
  have unread := right.unread
  have appended := right.appended
  have seen := right.seen
  rw [done] at stands
  simp only [done, List.append_nil] at unread appended seen
  subst itsCpu
  rw [World.step_turn_of_none walking (stands.turn_end unread)]
  refine ⟨?_, rfl⟩
  constructor
  case appended => simp [appended_concat, Event.appends, appended]
  case seen =>
      rw [seen_concat_of_ne noCall, seen]
      simp
  case unread =>
      simp only [Function.update_self]
      exact unread.acknowledge stands
  case lines =>
      rw [List.append_nil]
      exact right.lines
  case away => exact fun _ => ⟨rfl, rfl⟩
  case here => exact nofun

/-- A turn with records ahead walks over the next one. -/
theorem step_turn_record (right : account.Of cpu events world) {walk : Walk}
    (walking : world.walk = some walk) (itsCpu : walk.cpu = cpu) {record : Record}
    {ahead : List Record} (more : account.ahead = record :: ahead)
    : Account.Of ⟨account.acked, account.walked ++ [record], ahead, account.fresh⟩ cpu
        (events ++ [.turn]) (world.step .turn) := by
  have noCall : Event.turn.entered ≠ some cpu := nofun
  have stands := right.here walk walking itsCpu
  have unread := right.unread
  have appended := right.appended
  have seen := right.seen
  rw [more] at stands unread appended seen
  subst itsCpu
  obtain ⟨next, lines, turned, further, fields⟩ := stands.turn_record unread
  obtain ⟨nextCpu, _, linesCpu⟩ := Walk.kept_of_turn turned
  rw [World.step_turn_of_some walking turned]
  constructor
  case appended => simp [appended_concat, Event.appends, appended]
  case seen =>
      rw [seen_concat_of_ne noCall, seen]
      simp
  case unread => simpa using unread
  case lines =>
      rw [World.linesOf_write linesCpu, if_pos rfl, fields, right.lines, ← samples_append,
        List.append_assoc]
  case away => exact fun elsewhere => absurd nextCpu (elsewhere next rfl)
  case here =>
      intro walk' walking' _
      rw [← Option.some.inj walking']
      exact further

/-- A turn takes the next record ahead, or returns when there is none. -/
theorem step_turn (right : account.Of cpu events world)
    : ∃ next : Account, next.Of cpu (events ++ [.turn]) (world.step .turn)
      ∧ next.ahead = account.ahead.tail
      ∧ (account.ahead = [] → (∀ walk, world.walk = some walk → walk.cpu = cpu) →
          (world.step .turn).walk = none) := by
  by_cases here : ∃ walk, world.walk = some walk ∧ walk.cpu = cpu
  · obtain ⟨walk, walking, itsCpu⟩ := here
    cases ahead : account.ahead with
    | nil =>
        obtain ⟨right', returned⟩ := right.step_turn_return walking itsCpu ahead
        exact ⟨_, right', rfl, fun _ _ => returned⟩
    | cons record rest =>
        exact ⟨_, right.step_turn_record walking itsCpu ahead, rfl, nofun⟩
  · have elsewhere : ∀ walk, world.walk = some walk → walk.cpu ≠ cpu :=
      fun walk walking itsCpu => here ⟨walk, walking, itsCpu⟩
    obtain ⟨_, noneAhead⟩ := right.away elsewhere
    refine ⟨account, right.step_turn_elsewhere elsewhere, ?_, fun _ all => ?_⟩
    · rw [noneAhead]
      rfl
    · cases walking : world.walk with
      | none =>
          rw [World.step_turn_of_idle walking]
          exact walking
      | some walk => exact absurd (all walk walking) (elsewhere walk walking)

/-- After any step there is an account again. -/
theorem step (right : account.Of cpu events world) {event : Event} (allowed : world.Allows event)
    : ∃ next : Account, next.Of cpu (events ++ [event]) (world.step event) := by
  cases event with
  | append other record =>
      obtain ⟨next, right', _⟩ := right.step_append allowed
      exact ⟨next, right'⟩
  | enter other => exact right.step_enter allowed
  | turn =>
      obtain ⟨next, right', _⟩ := right.step_turn
      exact ⟨next, right'⟩

/-- The records ahead of a walk fit into the buffer. -/
theorem length_ahead_le (right : account.Of cpu events world)
    : account.ahead.length ≤ bufSize / 8 := by
  have fits := right.unread.fits
  simp only [totalSize_append] at fits
  have long : 8 * account.ahead.length ≤ totalSize account.ahead := length_le_totalSize
  unfold bufSize at fits ⊢
  omega

end Account.Of

theorem accountOf_start (bases : Nat → Nat → UInt8) (cpu : Nat)
    : (Account.mk [] [] [] []).Of cpu [] (.start bases) := by
  refine ⟨rfl, rfl, ?_, rfl, fun _ => ⟨rfl, rfl⟩, nofun⟩
  exact ⟨rfl, Nat.two_pow_pos 64, Nat.dvd_zero 8, Nat.zero_le _, nofun⟩

/-- In every run the account of every CPU can be given, by induction on the steps. -/
theorem accountOf_run (cpu : Nat) {world : World} {past events : List Event}
    (allowed : Along World.step World.Allows world events)
    (before : ∃ account : Account, account.Of cpu past world)
    : ∃ account : Account, account.Of cpu (past ++ events) (events.foldl World.step world) := by
  induction events generalizing world past with
  | nil =>
      rw [List.append_nil]
      exact before
  | cons event events ih =>
      obtain ⟨account, right⟩ := before
      have after := ih allowed.2 (right.step allowed.1)
      rwa [List.append_assoc] at after

-----------------------------------------------------------------------------------------
-- One call
-----------------------------------------------------------------------------------------

namespace World

/-- The call under way is for the CPU and read the head; after it the tail is that head. -/
structure Answers (world : World) (cpu head : Nat) : Prop where
  during : ∀ walk, world.walk = some walk → walk.cpu = cpu ∧ walk.head = head
  behind : world.walk = none → (world.pages cpu).dataTail = head

variable {world : World} {cpu head : Nat} {event : Event} {events : List Event}

/-- A call answers for the head that it reads. -/
theorem answers_enter (idle : world.Allows (.enter cpu))
    : (world.step (.enter cpu)).Answers cpu (world.pages cpu).dataHead := by
  have noWalk : world.walk = none := Option.isNone_iff_eq_none.mp idle
  rw [step_enter noWalk]
  by_cases same : (world.pages cpu).dataHead = (world.pages cpu).dataTail
  · rw [Page.enter, if_pos same]
    exact ⟨nofun, fun _ => same.symm⟩
  · rw [Page.enter, if_neg same]
    refine ⟨fun walk walking => ?_, nofun⟩
    rw [← Option.some.inj walking]
    exact ⟨rfl, rfl⟩

/-- It does so until it returns, whatever is appended. -/
theorem Answers.step (answers : world.Answers cpu head) (noCall : event.entered = none)
    : (world.step event).Answers cpu head := by
  cases event with
  | enter other => cases noCall
  | append other record =>
      refine ⟨answers.during, fun idle => ?_⟩
      have tail := answers.behind idle
      by_cases same : cpu = other
      · subst same
        simpa [World.step, Page.append] using tail
      · simpa [World.step, Function.update_of_ne same] using tail
  | turn =>
      cases walking : world.walk with
      | none =>
          rw [step_turn_of_idle walking]
          exact answers
      | some walk =>
          obtain ⟨itsCpu, itsHead⟩ := answers.during walk walking
          subst itsCpu
          cases turned : walk.turn (world.pages walk.cpu).base with
          | none =>
              rw [step_turn_of_none walking turned]
              refine ⟨fun walk' walking' => ?_, fun _ => ?_⟩
              · cases walking'
              · simpa [Page.acknowledge] using itsHead
          | some taken =>
              obtain ⟨next, lines⟩ := taken
              obtain ⟨nextCpu, nextHead, _⟩ := Walk.kept_of_turn turned
              rw [step_turn_of_some walking turned]
              refine ⟨fun walk' walking' => ?_, fun idle => ?_⟩
              · rw [← Option.some.inj walking']
                exact ⟨nextCpu, nextHead.trans itsHead⟩
              · cases idle

/-- It does so in all steps up to the next call. -/
theorem Answers.run (answers : world.Answers cpu head)
    (noCall : ∀ event ∈ events, event.entered = none)
    : (events.foldl World.step world).Answers cpu head := by
  induction events generalizing world with
  | nil => exact answers
  | cons event events ih =>
      obtain ⟨first, others⟩ := List.forall_mem_cons.mp noCall
      exact ih (answers.step first) others

/-- A thread that is idle stays so until the next call. -/
theorem idle_run (idle : world.walk = none) (noCall : ∀ event ∈ events, event.entered = none)
    : (events.foldl World.step world).walk = none := by
  induction events generalizing world with
  | nil => exact idle
  | cons event events ih =>
      obtain ⟨first, others⟩ := List.forall_mem_cons.mp noCall
      refine ih ?_ others
      cases event with
      | enter other => cases first
      | append other record => exact idle
      | turn =>
          rw [step_turn_of_idle idle]
          exact idle

end World

/-- A call returns once it has had more turns than there were records ahead of it, whatever is
appended meanwhile. By induction on the steps.
-/
theorem Account.Of.returns {account : Account} {cpu head : Nat} {past events : List Event}
    {world : World} (right : account.Of cpu past world)
    (allowed : Along World.step World.Allows world events)
    (answers : world.Answers cpu head) (noCall : ∀ event ∈ events, event.entered = none)
    (many : account.ahead.length < events.countP Event.isTurn)
    : (events.foldl World.step world).walk = none := by
  induction events generalizing world past account with
  | nil => exact absurd many (Nat.not_lt_zero _)
  | cons event events ih =>
      obtain ⟨first, others⟩ := List.forall_mem_cons.mp noCall
      have further := answers.step first
      cases event with
      | enter other => cases first
      | append other record =>
          obtain ⟨next, right', sameAhead⟩ := right.step_append allowed.1
          refine ih right' allowed.2 further others ?_
          rw [sameAhead]
          simpa [Event.isTurn] using many
      | turn =>
          obtain ⟨next, right', shorter, ends⟩ := right.step_turn
          cases ahead : account.ahead with
          | nil =>
              have idle := ends ahead (fun walk walking => (answers.during walk walking).1)
              rw [List.foldl_cons]
              exact World.idle_run idle others
          | cons record rest =>
              refine ih right' allowed.2 further others ?_
              rw [ahead, List.countP_cons_of_pos rfl, List.length_cons] at many
              rw [shorter, ahead, List.tail_cons]
              exact Nat.lt_of_succ_lt_succ many

-----------------------------------------------------------------------------------------
-- Runs
-----------------------------------------------------------------------------------------

/-- An idle thread has written the samples that its calls have seen. -/
theorem linesOf_run {bases : Nat → Nat → UInt8} {events : List Event}
    (allowed : Along World.step World.Allows (.start bases) events)
    (idle : (run bases events).walk = none) (cpu : Nat)
    : (run bases events).linesOf cpu = samples cpu (seen cpu events) := by
  obtain ⟨account, right⟩ := accountOf_run cpu allowed ⟨_, accountOf_start bases cpu⟩
  obtain ⟨noneWalked, noneAhead⟩ := right.away (fun walk walking =>
    nomatch idle.symm.trans walking)
  have seen := right.seen
  rw [noneWalked, noneAhead, List.append_nil, List.append_nil, List.nil_append] at seen
  rw [seen]
  exact right.lines.trans (by rw [noneWalked, List.append_nil])

/-- In any order of appends, calls and turns: a call returns after finitely many turns and leaves
the head that it read in `data_tail`; when the thread is idle, the lines of each CPU are the
samples appended before the last call for it, in order and each once.
-/
theorem run_exactlyOnce (bases : Nat → Nat → UInt8) (events : List Event)
    (allowed : Along World.step World.Allows (.start bases) events)
    : ((run bases events).walk = none →
        ∀ cpu, (run bases events).linesOf cpu = samples cpu (seen cpu events))
      ∧ ∀ before cpu during, events = before ++ .enter cpu :: during →
          (∀ event ∈ during, event.entered = none) →
          (bufSize / 8 < during.countP Event.isTurn → (run bases events).walk = none)
          ∧ ((run bases events).walk = none →
            ((run bases events).pages cpu).dataTail
              = ((run bases before).pages cpu).dataHead) := by
  constructor
  · exact linesOf_run allowed
  · rintro before cpu during rfl noCall
    obtain ⟨allowedBefore, idle, allowedDuring⟩ := (along_append World.step).mp allowed
    have answers := World.answers_enter idle
    have split : run bases (before ++ .enter cpu :: during)
        = during.foldl World.step ((run bases before).step (.enter cpu)) := by
      rw [run, List.foldl_append, List.foldl_cons, run]
    obtain ⟨account, right⟩ :=
      accountOf_run cpu allowedBefore ⟨_, accountOf_start bases cpu⟩
    obtain ⟨entered, right'⟩ := right.step_enter idle
    rw [split]
    constructor
    · intro many
      have short := right'.length_ahead_le
      exact right'.returns allowedDuring answers noCall (by omega)
    · exact (answers.run noCall).behind

/-- A sample and another record, with a second sample that comes during the call. -/
def twoSamples : List Event :=
  let sample : Record :=
    { type := 9, misc := 0, body := List.replicate 8 1, small := by decide, aligned := by decide }
  let lost : Record :=
    { type := 2, misc := 0, body := [], small := by decide, aligned := by decide }
  [.append 0 sample, .append 0 lost, .enter 0, .turn, .append 0 sample, .turn, .turn,
    .enter 0, .turn, .turn]

/-- Both samples are written, the later one by the second call. -/
theorem run_exactlyOnce_twoSamples
    : (run (fun _ _ => 0) twoSamples).linesOf 0 = [(0, 16), (0, 16)]
      ∧ ((run (fun _ _ => 0) twoSamples).pages 0).dataTail = 40 := by
  have allowed : Along World.step World.Allows (.start (fun _ _ => 0)) twoSamples := by
    decide +kernel
  have idle : (run (fun _ _ => 0) twoSamples).walk = none :=
    Option.isNone_iff_eq_none.mp (by decide +kernel)
  obtain ⟨written, answered⟩ := run_exactlyOnce (fun _ _ => 0) twoSamples allowed
  obtain ⟨_, acknowledged⟩ :=
    answered (twoSamples.take 7) 0 [.turn, .turn] rfl (by simp [Event.entered])
  exact ⟨(written idle 0).trans (by decide +kernel),
    (acknowledged idle).trans (by decide +kernel)⟩

end Kumf.SelfProfile
