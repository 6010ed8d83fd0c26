import Kumf.Interc.Contents

/-! A program on top of interc works as on a heap of blocks: whichever back end serves a call, and
wherever a block moves, it finds what it has written.
-/

namespace Kumf.Interc

open Kumf.Library

/-- The contents that an allocating operation promises. -/
def Op.Fits : Op → List UInt8 → Prop
  | .malloc sz, bytes => bytes.length = sz
  | .calloc nmemb size, bytes => bytes = zeros (nmemb * size)
  | .realloc _ size, bytes => bytes.length = size
  | .free _, _ => False

/-- The request that an operation stands for. -/
def Op.request (ret : Option Addr) : Op → BlockHeap.Request Addr UInt8
  | .realloc (some p) size => .resize p size ret
  | .free ptr => .release ptr
  | op => .alloc op.Fits ret

/-- The sizes of an array that `size_t` can count. -/
def Op.Representable : Op → Prop
  | .calloc nmemb size => nmemb * size < 2 ^ 64
  | _ => True

/-- The library in its world, with the contents of the blocks. -/
structure Machine where
  world : World
  memory : Memory

/-- A call into the library, with what is in the fresh blocks, or a write of the program. -/
inductive Move where
  | call (call : Call) (fills : Fills)
  | write (addr : Addr) (offset : Nat) (value : UInt8)

namespace Machine

/-- The heap that the program sees. -/
def heap (machine : Machine) : Memory := view machine.world.held machine.memory

def step (machine : Machine) : Move → Machine
  | .call call fills =>
      { world := machine.world.step call
        memory := (machine.world.events call).foldl (Event.act fills) machine.memory }
  | .write addr offset value =>
      { machine with
        memory := Function.update machine.memory addr
          ((machine.memory addr).map (fun bytes => bytes.set offset value)) }

def request (machine : Machine) : Move → BlockHeap.Request Addr UInt8
  | .call call _ => call.op.request (exec machine.world.lib call).ret
  | .write addr offset value => .write addr offset value

/-- Calls that record their blocks and do not fail to move one, and writes within a block. -/
def Orderly (machine : Machine) : Move → Prop
  | .call call fills =>
      machine.world.Recording call ∧ call.op.Representable ∧ fills.ZeroPages
  | .write addr offset _ =>
      ∃ bytes, machine.heap addr = some bytes ∧ offset < bytes.length

/-- The table is exact and the live blocks have contents. -/
structure Sound (machine : Machine) : Prop where
  tidy : machine.world.Tidy
  backs : Backs machine.world.ledger machine.memory

end Machine

-----------------------------------------------------------------------------------------
-- A call that allocates
-----------------------------------------------------------------------------------------

/-- An allocating operation is the shared block with a request to libc, and either of them gives
what the operation promises.
-/
theorem exec_allocates {globals : Globals} (call : Call) (active : globals.mode ≠ .passive)
    (noPointer : call.op.pointer = none) (notFree : ∀ ptr, call.op ≠ .free ptr)
    (fits : call.op.Representable) {fills : Fills} (zeroed : fills.ZeroPages)
    : ∃ sz routed asked,
        RouteStep call.site call.replies globals sz routed
        ∧ asked.AsksLibc call.replies.libc
        ∧ exec globals call = routed.orLibc call.replies.libc asked
        ∧ call.op.Fits (garbage fills.numa sz)
        ∧ call.op.Fits (asked.contents fills) := by
  obtain ⟨site, replies, op⟩ := call
  cases op with
  | malloc sz =>
      refine ⟨sz, _, _, tryRoute_step site replies globals sz, .malloc sz, ?_, length_garbage ..,
        length_garbage ..⟩
      exact malloc_eq active site replies sz
  | calloc nmemb size =>
      refine ⟨_, _, _, tryRoute_step site replies globals (nmemb * size % 2 ^ 64),
        .calloc nmemb size, ?_, ?_, rfl⟩
      · simp only [exec, calloc, if_neg active]
      · exact (zeroed.garbage _).trans (congrArg zeros (Nat.mod_eq_of_lt fits))
  | realloc ptr size =>
      cases ptr with
      | some p => cases noPointer
      | none =>
          refine ⟨size, _, _, tryRoute_step site replies globals size, .malloc size, ?_,
            length_garbage .., length_garbage ..⟩
          simp only [exec, realloc, if_neg active, malloc_eq active]
  | free ptr => exact absurd rfl (notFree ptr)

/-- The program asks for a block, and gets a fresh one with the promised contents or none. -/
theorem Op.request_of_allocates {op : Op} (noPointer : op.pointer = none)
    (notFree : ∀ ptr, op ≠ .free ptr) (ret : Option Addr)
    : op.request ret = .alloc op.Fits ret := by
  cases op with
  | malloc sz => rfl
  | calloc nmemb size => rfl
  | realloc ptr size =>
      cases ptr with
      | none => rfl
      | some p => cases noPointer
  | free ptr => exact absurd rfl (notFree ptr)

/-- What an answer means for the heap, when live blocks are left alone. -/
theorem step_alloc {held : Finset Addr} {memory after : Memory} {fits : List UInt8 → Prop}
    {ret : Option Addr} (same : ∀ addr ∈ held, after addr = memory addr)
    (unheld : ∀ addr ∈ ret, addr ∉ held)
    (given : ∀ addr ∈ ret, ∃ bytes, after addr = some bytes ∧ fits bytes)
    : BlockHeap.Step (view held memory) (.alloc fits ret) (view (hold held ret) after) := by
  cases ret with
  | none =>
      rw [hold, view_same same]
      exact .refused
  | some addr =>
      obtain ⟨bytes, here, contents⟩ := given addr rfl
      rw [hold, view_insert same, here]
      exact .allocated (view_of_not_mem (unheld addr rfl)) contents

/-- A call that allocates gives the program a fresh block with the promised contents, or none. -/
theorem step_served {globals : Globals} {call : Call} {ledger : Ledger} {held : Finset Addr}
    {memory : Memory} {fills : Fills} (active : globals.mode ≠ .passive)
    (owned : Owned globals.addrHash.entries [] ledger held) (backs : Backs ledger memory)
    (noPointer : call.op.pointer = none) (notFree : ∀ ptr, call.op ≠ .free ptr)
    (representable : call.op.Representable) (zeroed : fills.ZeroPages)
    (records : losesRecord (exec globals call).events = false)
    (granted : Along Ledger.apply Ledger.Grants ledger (exec globals call).events)
    : let outcome := exec globals call
      let last := outcome.events.foldl (Event.act fills) memory
      BlockHeap.Step (view held memory) (call.op.request outcome.ret)
        (view (hold held outcome.ret) last)
      ∧ Backs (outcome.events.foldl Ledger.apply ledger) last := by
  obtain ⟨sz, routed, asked, routing, asks, runs, promised, contents⟩ :=
    exec_allocates call active noPointer notFree representable zeroed
  rw [runs] at records granted ⊢
  obtain ⟨backed, others, given⟩ := routing.fills asks backs granted fills
  have unheld := (routing.owned asks records owned granted).2
  dsimp only
  rw [Op.request_of_allocates noPointer notFree]
  refine ⟨step_alloc
    (fun addr mine => others addr (owned.heldLive addr mine)) unheld ?_, backed⟩
  intro addr answered
  obtain ⟨bytes, here, either⟩ := given addr answered
  cases either with
  | inl routed => exact ⟨bytes, here, routed ▸ promised⟩
  | inr byLibc => exact ⟨bytes, here, byLibc ▸ contents⟩

-----------------------------------------------------------------------------------------
-- A call about a block of the program
-----------------------------------------------------------------------------------------

/-- The entry of a block is not among the blocks of the program. -/
theorem World.Tidy.hidden {world : World} (tidy : world.Tidy) {p : Addr} {entry : AddrEntry}
    {smaller : AddrHash} (unlinked : world.lib.addrHash.unlink p = some (entry, smaller))
    : entry.loc ∉ world.held := by
  have perm := (ChainedTable.unlink_some unlinked).2
  exact tidy.owned.locsHidden entry (perm.mem_iff.mpr List.mem_cons_self)

/-- A block in transit is recorded in the ledger once, and is none of libc. -/
theorem Owned.transit_unique {entries : List AddrEntry} {transit : List (Addr × Nat)}
    {ledger : Ledger} {held : Finset Addr} {addr size : Nat}
    (owned : Owned entries ((addr, size) :: transit) ledger held)
    : (∀ n, (addr, n) ∈ ledger.numa → n = size) ∧ addr ∉ ledger.libc := by
  have routed : (addr, size) ∈ ledger.numa := owned.live _ (by simp)
  refine ⟨fun n live => ?_, owned.apart _ routed⟩
  have place := List.perm_middle.mem_iff.mp (owned.complete _ live)
  cases List.mem_cons.mp place with
  | inl same => exact (Prod.mk.inj same).2
  | inr other => exact absurd rfl (owned.toTracked.transit_distinct _ other)

/-- Where `libc_realloc` puts a block is free once the old block is gone. -/
theorem Ledger.fresh_of_resize {ledger : Ledger} {p addr : Addr} {size : Nat}
    (granted : ledger.Grants (.libcRealloc p size (some addr)))
    (unrouted : ∀ size, (p, size) ∉ ledger.numa)
    : (ledger.releaseLibc p).Fresh (some addr) := by
  rintro _ ⟨⟩ live
  cases Ledger.mem_live.mp live with
  | inl routed =>
      obtain ⟨n, routed⟩ := routed
      cases granted with
      | inl inPlace =>
          cases inPlace
          exact unrouted n routed
      | inr fresh => exact fresh addr rfl (Ledger.mem_live.mpr (.inl ⟨n, routed⟩))
  | inr inLibc =>
      obtain ⟨different, older⟩ := Finset.mem_erase.mp inLibc
      cases granted with
      | inl inPlace => exact different (Option.some.inj inPlace)
      | inr fresh => exact fresh addr rfl (Ledger.mem_live.mpr (.inr older))

section
variable {ledger : Ledger} {held : Finset Addr} {memory : Memory} {p : Addr}

/-- `libc_free` ends a block of libc. -/
theorem step_freed {entries : List AddrEntry} (owned : Owned entries [] ledger held)
    (backs : Backs ledger memory) (mine : p ∈ held)
    (unrouted : ∀ size, (p, size) ∉ ledger.numa)
    : BlockHeap.Step (view held memory) (.release (some p))
        (view (held.erase p) (Function.update memory p none))
      ∧ Backs (ledger.releaseLibc p) (Function.update memory p none) := by
  obtain ⟨bytes, here⟩ := backs.live (owned.heldLive p mine)
  have live : view held memory p = some bytes := (view_of_mem mine).trans here
  rw [view_erase fun other _ different => Function.update_of_ne different ..]
  exact ⟨.released live, backs.releaseLibc unrouted⟩

/-- `numa_free` ends a routed block, once its entry at `loc` is gone. -/
theorem step_freedRouted {entries : List AddrEntry} {loc : Addr} {n : Nat}
    (owned : Owned entries [(p, n)] (ledger.releaseLibc loc) held) (backs : Backs ledger memory)
    (mine : p ∈ held) (routed : (p, n) ∈ ledger.numa) (hidden : loc ∉ held)
    (unrouted : ∀ size, (loc, size) ∉ ledger.numa)
    : BlockHeap.Step (view held memory) (.release (some p))
        (view (held.erase p) (Function.update (Function.update memory loc none) p none))
      ∧ Backs ((ledger.releaseLibc loc).releaseNuma p n)
          (Function.update (Function.update memory loc none) p none) := by
  obtain ⟨bytes, here, -⟩ := backs.numa p n routed
  have live : view held memory p = some bytes := (view_of_mem mine).trans here
  have same : ∀ other ∈ held, other ≠ p →
      Function.update (Function.update memory loc none) p none other = memory other := by
    intro other inHeld different
    have elsewhere : other ≠ loc := fun same => hidden (same ▸ inHeld)
    rw [Function.update_of_ne different, Function.update_of_ne elsewhere]
  obtain ⟨unique, apart⟩ := owned.transit_unique
  rw [view_erase same]
  exact ⟨.released live, (backs.releaseLibc unrouted).releaseNuma unique apart⟩

/-- `libc_realloc` resizes a block of libc that the program holds. -/
theorem step_resize {entries : List AddrEntry} {size : Nat} {ret : Option Addr}
    (owned : Owned entries [] ledger held) (backs : Backs ledger memory) (mine : p ∈ held)
    (unrouted : ∀ size, (p, size) ∉ ledger.numa)
    (granted : ledger.Grants (.libcRealloc p size ret)) (fills : Fills)
    : BlockHeap.Step (view held memory) (.resize p size ret)
        (view (if ret = none ∧ size ≠ 0 then held else hold (held.erase p) ret)
          (Event.act fills memory (.libcRealloc p size ret)))
      ∧ Backs (ledger.resizeLibc p size ret)
          (Event.act fills memory (.libcRealloc p size ret)) := by
  obtain ⟨bytes, here⟩ := backs.live (owned.heldLive p mine)
  have live : view held memory p = some bytes := (view_of_mem mine).trans here
  cases ret with
  | none =>
      by_cases zero : size = 0
      · subst zero
        have gone : view (held.erase p) (Function.update memory p none)
            = Function.update (view held memory) p none :=
          view_erase fun other _ different => Function.update_of_ne different ..
        simp only [Event.act, Ledger.resizeLibc, hold, ne_eq, not_true_eq_false, and_false,
          if_true, if_false, gone]
        exact ⟨.emptied live, backs.releaseLibc unrouted⟩
      · simp only [Event.act, Ledger.resizeLibc, ne_eq, zero, not_false_eq_true, and_self, if_true,
          if_false]
        exact ⟨.kept live zero, backs⟩
  | some addr =>
      have fresh := Ledger.fresh_of_resize granted unrouted
      have place : addr = p ∨ view held memory addr = none := by
        cases granted with
        | inl inPlace => exact .inl (Option.some.inj inPlace)
        | inr fresh =>
            exact .inr (view_of_not_mem fun inHeld => fresh addr rfl (owned.heldLive addr inHeld))
      have moved : view (insert addr (held.erase p))
            (Function.update (Function.update memory p none) addr
              (some (resizedBytes fills.libc bytes size)))
          = Function.update (Function.update (view held memory) p none) addr
              (some (resizedBytes fills.libc bytes size)) := by
        have unheld : addr ∉ held.erase p := by
          intro inHeld
          obtain ⟨different, older⟩ := Finset.mem_erase.mp inHeld
          cases place with
          | inl same => exact different same
          | inr free =>
              obtain ⟨other, there⟩ := backs.live (owned.heldLive addr older)
              rw [view_of_mem older, there] at free
              cases free
        have same : ∀ other ∈ held.erase p,
            Function.update (Function.update memory p none) addr
              (some (resizedBytes fills.libc bytes size)) other
            = Function.update memory p none other := by
          intro other inHeld
          have different : other ≠ addr := fun same => unheld (same ▸ inHeld)
          exact Function.update_of_ne different ..
        rw [view_insert same, Function.update_self,
          view_erase fun other _ different => Function.update_of_ne different ..]
      simp only [Event.act, Ledger.resizeLibc, hold, here, Option.map_some, reduceCtorEq,
        false_and, if_false, moved]
      refine ⟨.resized live place (length_resizedBytes ..) (take_resizedBytes ..), ?_⟩
      exact (backs.releaseLibc unrouted).grantLibc fresh _

/-- `realloc` moves a routed block: the bytes are copied into a fresh block before the old one is
given back. `middle` is the memory behind the inner `malloc`.
-/
theorem step_moved {entries : List AddrEntry} {n size count : Nat} {addr : Addr}
    {middle : Memory} {after : Ledger} {given old : List UInt8}
    (owned : Owned entries [(p, n)] after (insert addr held)) (backs : Backs after middle)
    (mine : p ∈ held) (unheld : addr ∉ held) (here : memory p = some old)
    (length : old.length = n)
    (same : ∀ other ∈ held, middle other = memory other) (new : middle addr = some given)
    (large : given.length = size) (least : count = if n < size then n else size)
    (fills : Fills)
    : let last := [.memcpy addr p count, .numaFree p n].foldl (Event.act fills) middle
      BlockHeap.Step (view held memory) (.resize p size (some addr))
        (view (hold (held.erase p) (some addr)) last)
      ∧ Backs (after.releaseNuma p n) last := by
  subst length
  have different : addr ≠ p := fun same => unheld (same ▸ mine)
  obtain ⟨whole, kept⟩ := take_copied large least
  have last : [.memcpy addr p count, .numaFree p old.length].foldl (Event.act fills) middle
      = Function.update (Function.update middle addr (some (copied old given count))) p none := by
    simp only [List.foldl_cons, List.foldl_nil, Event.act, new, same p mine, here, Option.map_some,
      Option.getD_some]
  have others : ∀ other ∈ held.erase p,
      Function.update (Function.update middle addr (some (copied old given count))) p none other
        = memory other := by
    intro other inHeld
    obtain ⟨apart, older⟩ := Finset.mem_erase.mp inHeld
    have elsewhere : other ≠ addr := fun same => unheld (same ▸ older)
    rw [Function.update_of_ne apart, Function.update_of_ne elsewhere, same other older]
  have erased : view (held.erase p) memory = Function.update (view held memory) p none :=
    view_erase fun _ _ _ => rfl
  have free : view held memory addr = none := view_of_not_mem unheld
  have live : view held memory p = some old := (view_of_mem mine).trans here
  dsimp only
  rw [last, hold, view_insert others, erased, Function.update_of_ne different,
    Function.update_self]
  refine ⟨.resized live (.inr free) whole kept, ?_⟩
  obtain ⟨unique, apart⟩ := owned.transit_unique
  exact (backs.writeBlock new (whole.trans large.symm)).releaseNuma unique apart

/-- `realloc` of a routed block: its entry goes, a block of the new size is found, and `step_moved`
follows.
-/
theorem step_relocated {site : CallSite} {replies : Replies} {globals : Globals} {loc : Addr}
    {n size : Nat} {routed : Outcome} {addr : Addr}
    (routing : RouteStep site replies globals size routed)
    (owned : Owned globals.addrHash.entries [(p, n)] (ledger.releaseLibc loc) held)
    (backs : Backs ledger memory) (mine : p ∈ held) (live : (p, n) ∈ ledger.numa)
    (hidden : loc ∉ held) (unrouted : ∀ size, (loc, size) ∉ ledger.numa)
    (given : (routed.orLibc replies.libc (.libcMalloc size replies.libc)).ret = some addr)
    (records : losesRecord
      (routed.orLibc replies.libc (.libcMalloc size replies.libc)).events = false)
    (granted : Along Ledger.apply Ledger.Grants (ledger.releaseLibc loc)
      (routed.orLibc replies.libc (.libcMalloc size replies.libc)).events) (fills : Fills)
    : let events := .libcFree loc
        :: ((routed.orLibc replies.libc (.libcMalloc size replies.libc)).events
          ++ [.memcpy addr p (if n < size then n else size), .numaFree p n])
      let last := events.foldl (Event.act fills) memory
      BlockHeap.Step (view held memory) (.resize p size (some addr))
        (view (hold (held.erase p) (some addr)) last)
      ∧ Backs (events.foldl Ledger.apply ledger) last := by
  obtain ⟨old, here, length⟩ := backs.numa p n live
  obtain ⟨allocated, unheld⟩ := routing.owned (.malloc size) records owned granted
  obtain ⟨backed, others, contents⟩ :=
    routing.fills (.malloc size) (backs.releaseLibc unrouted) granted fills
  rw [given] at allocated unheld contents
  obtain ⟨bytes, new, either⟩ := contents addr rfl
  have large : bytes.length = size := by
    cases either with
    | inl byNuma => rw [byNuma, length_garbage]
    | inr byLibc => rw [byLibc, Event.contents, length_garbage]
  have same : ∀ other ∈ held,
      (routed.orLibc replies.libc (.libcMalloc size replies.libc)).events.foldl (Event.act fills)
        (Function.update memory loc none) other = memory other := by
    intro other inHeld
    have elsewhere : other ≠ loc := fun same => hidden (same ▸ inHeld)
    rw [others other (owned.heldLive other inHeld), Function.update_of_ne elsewhere]
  dsimp only
  rw [List.foldl_cons, List.foldl_cons, List.foldl_append, List.foldl_append]
  exact step_moved allocated backed mine (unheld addr rfl) here length same new large rfl fills

end

-----------------------------------------------------------------------------------------
-- Whole runs
-----------------------------------------------------------------------------------------

namespace Machine

variable {machine : Machine}

/-- What a call does to the heap that the program sees. -/
theorem Sound.call (sound : machine.Sound) {call : Call} {fills : Fills}
    (recording : machine.world.Recording call) (representable : call.op.Representable)
    (zeroed : fills.ZeroPages)
    : BlockHeap.Step machine.heap (machine.request (.call call fills))
        (machine.step (.call call fills)).heap
      ∧ Backs (machine.step (.call call fills)).world.ledger
          (machine.step (.call call fills)).memory := by
  obtain ⟨world, memory⟩ := machine
  obtain ⟨tidy, backs⟩ := sound
  obtain ⟨backed, mine, records, moves⟩ := recording
  dsimp only at tidy backs backed mine records moves
  unfold heap request step
  dsimp only
  unfold World.Backed World.events at backed
  unfold World.events at records
  unfold World.step World.events
  dsimp only
  by_cases allocates : call.op.pointer = none ∧ ∀ ptr, call.op ≠ .free ptr
  · obtain ⟨noPointer, notFree⟩ := allocates
    rw [heldAfter_allocated noPointer notFree]
    exact step_served tidy.tracks.active tidy.owned backs noPointer notFree representable zeroed
      records backed
  · have done := exec_step call tidy.tracks.active tidy.tracks.tracked.sized
    revert backed records moves done
    generalize exec world.lib call = outcome
    intro backed records moves done
    cases done with
    | allocated op notFree => exact absurd ⟨op, notFree⟩ allocates
    | ignored op =>
        rw [op]
        exact ⟨.ignored, backs⟩
    | @freed p op unseen =>
        have held := mine p (by rw [op]; rfl)
        rw [op]
        exact step_freed tidy.owned backs held (tidy.unrouted unseen)
    | @freedRouted p found smaller op unlinked =>
        have held := mine p (by rw [op]; rfl)
        obtain ⟨owned, legal, live⟩ := tidy.unlink unlinked
        rw [op]
        exact step_freedRouted owned backs held live (tidy.hidden unlinked) legal.2
    | @resized p size op missing =>
        have held := mine p (by rw [op]; rfl)
        rw [op]
        exact step_resize tidy.owned backs held (tidy.unrouted (.inr missing)) backed.1 fills
    | @moved p size found smaller routed inner newAddr op unlinked routing result given =>
        have held := mine p (by rw [op]; rfl)
        obtain ⟨owned, legal, live⟩ := tidy.unlink unlinked
        have granted := ((along_append Ledger.apply).mp backed.2).1
        have kept := losesRecord_between records
        subst result
        rw [op]
        exact step_relocated routing owned backs held live (tidy.hidden unlinked) legal.2 given kept
          granted fills
    | @failed p size found smaller routed inner op unlinked routing result refused =>
        exact absurd rfl (moves p size found.size op (tidy.unlink unlinked).2.2)

/-- A write of the program into a block that it holds. -/
theorem Sound.write (sound : machine.Sound) {addr : Addr} {offset : Nat} {bytes : List UInt8}
    (live : machine.heap addr = some bytes) (within : offset < bytes.length) (value : UInt8)
    : BlockHeap.Step machine.heap (.write addr offset value)
        (machine.step (.write addr offset value)).heap
      ∧ Backs machine.world.ledger (machine.step (.write addr offset value)).memory := by
  have mine : addr ∈ machine.world.held := by
    by_contra other
    rw [heap, view_of_not_mem other] at live
    cases live
  have here : machine.memory addr = some bytes := (view_of_mem mine).symm.trans live
  have wrote : (machine.step (.write addr offset value)).memory
      = Function.update machine.memory addr (some (bytes.set offset value)) := by
    simp only [step, here, Option.map_some]
  have seen : (machine.step (.write addr offset value)).heap
      = Function.update machine.heap addr (some (bytes.set offset value)) := by
    funext other
    rw [heap, wrote]
    by_cases same : other = addr
    · subst other
      rw [Function.update_self]
      exact (view_of_mem mine).trans (Function.update_self ..)
    · rw [Function.update_of_ne same]
      simp only [heap, view, Function.update_of_ne same]
      rfl
  rw [seen, wrote]
  exact ⟨.written live within, sound.backs.writeBlock here List.length_set⟩

theorem Sound.step (sound : machine.Sound) {move : Move} (orderly : machine.Orderly move)
    : (machine.step move).Sound := by
  cases move with
  | call call fills =>
      obtain ⟨recording, representable, zeroed⟩ := orderly
      exact ⟨World.step_tidy sound.tidy recording,
        (sound.call recording representable zeroed).2⟩
  | write addr offset value =>
      obtain ⟨bytes, live, within⟩ := orderly
      exact ⟨sound.tidy, (sound.write live within value).2⟩

/-- Before the first routed block, with contents in the blocks of libc. -/
structure Start (machine : Machine) : Prop where
  world : machine.world.Start
  filled : ∀ addr ∈ machine.world.ledger.libc, (machine.memory addr).isSome = true

theorem Start.sound (start : machine.Start)
    : machine.Sound where
  tidy := start.world.tidy
  backs :=
    { numa := fun addr size routed => by
        rw [start.world.numa] at routed
        cases routed
      libc := start.filled }

/-- The requests of a program, with their answers. -/
def requests (machine : Machine) (moves : List Move) : List (BlockHeap.Request Addr UInt8) :=
  outputs step (fun machine move => [machine.request move]) machine moves

/-- An orderly move is a step of the heap that the program sees. -/
theorem Sound.step_heap (sound : machine.Sound) {move : Move} (orderly : machine.Orderly move)
    : BlockHeap.Step machine.heap (machine.request move) (machine.step move).heap := by
  cases move with
  | call call fills => exact (sound.call orderly.1 orderly.2.1 orderly.2.2).1
  | write addr offset value =>
      obtain ⟨bytes, live, within⟩ := orderly
      exact (sound.write live within value).1

/-- Whichever rules are loaded and whatever the back ends answer, a program that runs on interc
sees a heap of blocks: what it has written stays, also where blocks move between the back ends, and
a block that it does not name any more keeps what it holds.
-/
theorem run_heap (start : machine.Start) {moves : List Move}
    (run : Along step Orderly machine moves)
    : StepsTo BlockHeap.Step machine.heap (machine.requests moves)
        (moves.foldl step machine).heap
      ∧ ∀ addr bytes,
        machine.heap addr = some bytes
        → (∀ request ∈ machine.requests moves, request.names ≠ some addr)
        → (moves.foldl step machine).heap addr = some bytes := by
  have steps := run.stepsTo (fun _ _ sound orderly => Sound.step sound orderly)
    (fun _ _ sound orderly => Sound.step_heap sound orderly) start.sound
  exact ⟨steps, fun addr bytes live unnamed =>
    BlockHeap.others_of_stepsTo steps live unnamed⟩

/-- A request that is routed. -/
def routedCall : Call := .idle ⟨some 65536, some 32, none⟩ (.malloc 8192)

/-- Its block shrinks below the threshold and moves to libc. -/
def shrinkingCall : Call := .idle ⟨none, none, some 700⟩ (.realloc (some 65536) 100)

/-- A byte is written between the two calls. -/
def movedToLibc : List Move :=
  [ .call routedCall ⟨fun _ => 0, fun _ => 0⟩,
    .write 65536 3 7,
    .call shrinkingCall ⟨fun _ => 0, fun _ => 255⟩ ]

/-- Large requests are routed, and nothing is allocated. -/
def unusedMachine : Machine := ⟨World.unused [⟨8192, 0, 1⟩], fun _ => none⟩

theorem movedToLibc_orderly : Along step Orderly unusedMachine movedToLibc := by
  refine ⟨⟨⟨by decide, ?_, by decide, ?_⟩, trivial, fun _ => rfl⟩,
    ⟨garbage (fun _ => 0) 8192, rfl, ?_⟩,
    ⟨⟨by decide, ?_, by decide, ?_⟩, trivial, fun _ => rfl⟩, trivial⟩
  · intro _ noPointer
    cases noPointer
  · intro _ _ _ noMove
    cases noMove
  · simp
  · intro _ same
    cases same
    decide
  · intro _ _ _ same _
    cases same
    decide

/-- What `realloc` asks the back ends for. -/
theorem shrinkingCall_events
    : (unusedMachine.world.step routedCall).events shrinkingCall
      = [.libcFree 32, .libcMalloc 100 (some 700), .memcpy 700 65536 100,
          .numaFree 65536 8192] :=
  rfl

theorem movedToLibc_memory
    : (movedToLibc.foldl step unusedMachine).memory 700
      = some (copied ((garbage (fun _ => 0) 8192).set 3 7) (garbage (fun _ => 255) 100) 100) := by
  have routed : (unusedMachine.step (.call routedCall ⟨fun _ => 0, fun _ => 0⟩)).memory 65536
      = some (garbage (fun _ => 0) 8192) := rfl
  have events := shrinkingCall_events
  simp only [movedToLibc, List.foldl_cons, List.foldl_nil, step] at routed ⊢
  rw [routed, events]
  simp [Event.act]

/-- The byte is found in the block of libc. -/
theorem movedToLibc_heap
    : StepsTo BlockHeap.Step unusedMachine.heap (unusedMachine.requests movedToLibc)
        (movedToLibc.foldl step unusedMachine).heap
      ∧ ∃ bytes,
        (movedToLibc.foldl step unusedMachine).heap 700 = some bytes ∧ bytes[3]? = some 7 := by
  have start : unusedMachine.Start :=
    ⟨World.unused_start _, by simp [unusedMachine, World.unused]⟩
  have mine : 700 ∈ (movedToLibc.foldl step unusedMachine).world.held := by decide
  refine ⟨(run_heap start movedToLibc_orderly).1, _,
    (view_of_mem mine).trans movedToLibc_memory, ?_⟩
  have within : 3 < (garbage (fun _ => 0) 8192).length := by rw [length_garbage]; decide
  have first : 3 < (((garbage (fun _ => 0) 8192).set 3 7).take 100).length := by
    rw [List.length_take, List.length_set, length_garbage]
    decide
  rw [copied, List.getElem?_append_left first, List.getElem?_take_of_lt (by decide),
    List.getElem?_set_self within]

end Machine

end Kumf.Interc
