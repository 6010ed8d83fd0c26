import Kumf.Interc.OwnedRuns
import Kumf.Library.BlockHeap

/-! What the blocks hold. `calloc` gives zeros, libc keeps what it moves, and interc copies a routed
block that it moves itself. What is in a block of `numa_alloc_onnode` is up to libnuma. A program on
top of them sees one heap of blocks.
-/

namespace Kumf.Interc

open Kumf.Library

/-- The contents of the live blocks of both back ends. -/
abbrev Memory := BlockHeap Addr UInt8

/-- What the back ends leave in the blocks that they hand out for a call. -/
structure Fills where
  numa : Nat → UInt8
  libc : Nat → UInt8

/-- What a block that is not initialised happens to hold. -/
def garbage (fill : Nat → UInt8) (size : Nat) : List UInt8 := (List.range size).map fill

def zeros (size : Nat) : List UInt8 := List.replicate size 0

/-- libnuma maps fresh pages for every block, and these are zeros. `calloc` relies on it. -/
def Fills.ZeroPages (fills : Fills) : Prop := ∀ index, fills.numa index = 0

/-- A block of libc at another size. -/
def resizedBytes (fill : Nat → UInt8) (old : List UInt8) (size : Nat) : List UInt8 :=
  old.take size ++ garbage fill (size - old.length)

/-- `memcpy` to the start of a block. -/
def copied (source target : List UInt8) (count : Nat) : List UInt8 :=
  source.take count ++ target.drop count

/-- What a call of a back end, or `memcpy`, does to the blocks. -/
def Event.act (fills : Fills) (memory : Memory) : Event → Memory
  | .numaAllocOnnode size _ (some addr) =>
      Function.update memory addr (some (garbage fills.numa size))
  | .numaAllocOnnode _ _ none => memory
  | .numaFree addr _ => Function.update memory addr none
  | .libcMalloc size (some addr) => Function.update memory addr (some (garbage fills.libc size))
  | .libcMalloc _ none => memory
  | .libcCalloc nmemb size (some addr) => Function.update memory addr (some (zeros (nmemb * size)))
  | .libcCalloc _ _ none => memory
  | .libcRealloc ptr size (some addr) =>
      Function.update (Function.update memory ptr none) addr
        ((memory ptr).map (fun old => resizedBytes fills.libc old size))
  | .libcRealloc ptr size none =>
      if size = 0 then Function.update memory ptr none else memory
  | .libcFree ptr => Function.update memory ptr none
  | .memcpy dst src count =>
      Function.update memory dst
        ((memory dst).map (fun target => copied ((memory src).getD []) target count))

@[simp]
theorem length_garbage (fill : Nat → UInt8) (size : Nat)
    : (garbage fill size).length = size := by
  simp [garbage]

@[simp]
theorem length_zeros (size : Nat)
    : (zeros size).length = size :=
  List.length_replicate

/-- What is in a fresh block of libnuma are zeros. -/
theorem Fills.ZeroPages.garbage {fills : Fills} (zeroed : fills.ZeroPages) (size : Nat)
    : garbage fills.numa size = zeros size := by
  unfold Interc.garbage zeros
  rw [List.eq_replicate_iff]
  refine ⟨by simp, fun byte member => ?_⟩
  obtain ⟨index, -, rfl⟩ := List.mem_map.mp member
  exact zeroed index

@[simp]
theorem length_resizedBytes (fill : Nat → UInt8) (old : List UInt8) (size : Nat)
    : (resizedBytes fill old size).length = size := by
  simp [resizedBytes]
  omega

/-- A resized block keeps its bytes as far as both sizes reach. -/
theorem take_resizedBytes (fill : Nat → UInt8) (old : List UInt8) (size : Nat)
    : (resizedBytes fill old size).take old.length = old.take size := by
  by_cases grows : old.length ≤ size
  · rw [resizedBytes, List.take_of_length_le grows, List.take_left]
  · have shorter : size - old.length = 0 := by omega
    rw [resizedBytes, shorter]
    simp [garbage, List.take_take]
    omega

/-- The bytes that `realloc` copies from a routed block. -/
theorem take_copied {source target : List UInt8} {size count : Nat} (length : target.length = size)
    (least : count = if source.length < size then source.length else size)
    : (copied source target count).length = size
      ∧ (copied source target count).take source.length = source.take size := by
  subst least length
  split
  case isTrue grows =>
      rw [copied, List.take_length, List.take_of_length_le (Nat.le_of_lt grows)]
      exact ⟨by simp; omega, List.take_left⟩
  case isFalse shrinks =>
      have within : target.length ≤ source.length := Nat.le_of_not_lt shrinks
      have short : (source.take target.length).length ≤ source.length := by simp [within]
      rw [copied, List.drop_length, List.append_nil, List.take_of_length_le short]
      exact ⟨by simp [within], rfl⟩

-----------------------------------------------------------------------------------------
-- The blocks of the ledger have contents
-----------------------------------------------------------------------------------------

/-- Every live block holds something, a routed one as many bytes as it was asked for. -/
structure Backs (ledger : Ledger) (memory : Memory) : Prop where
  numa : ∀ addr size, (addr, size) ∈ ledger.numa → ∃ bytes, memory addr = some bytes
    ∧ bytes.length = size
  libc : ∀ addr ∈ ledger.libc, (memory addr).isSome = true

namespace Backs

variable {ledger : Ledger} {memory : Memory}

/-- Every live block holds something. -/
theorem live (backs : Backs ledger memory) {addr : Addr} (live : addr ∈ ledger.live)
    : ∃ bytes, memory addr = some bytes := by
  cases Ledger.mem_live.mp live with
  | inl routed =>
      obtain ⟨size, routed⟩ := routed
      obtain ⟨bytes, here, -⟩ := backs.numa addr size routed
      exact ⟨bytes, here⟩
  | inr inLibc => exact Option.isSome_iff_exists.mp (backs.libc addr inLibc)

/-- Contents that differ at no live block. -/
theorem congr {after : Memory} (backs : Backs ledger memory)
    (same : ∀ addr ∈ ledger.live, after addr = memory addr)
    : Backs ledger after where
  numa addr size routed := by
    rw [same addr (Ledger.mem_live.mpr (.inl ⟨size, routed⟩))]
    exact backs.numa addr size routed
  libc addr inLibc := by
    rw [same addr (Ledger.mem_live.mpr (.inr inLibc))]
    exact backs.libc addr inLibc

/-- What happens at an address that is not live does not matter. -/
theorem update (backs : Backs ledger memory) {addr : Addr} (fresh : addr ∉ ledger.live)
    (contents : Option (List UInt8))
    : Backs ledger (Function.update memory addr contents) := by
  refine backs.congr fun other live => ?_
  have different : other ≠ addr := fun same => fresh (same ▸ live)
  exact Function.update_of_ne different ..

/-- A block of libnuma is granted. -/
theorem grantNuma (backs : Backs ledger memory) {addr size : Nat}
    (fresh : ledger.Fresh (some addr)) {bytes : List UInt8} (length : bytes.length = size)
    : Backs (ledger.grantNuma size (some addr)) (Function.update memory addr (some bytes)) where
  numa other n routed := by
    cases Finset.mem_insert.mp routed with
    | inl same =>
        obtain ⟨rfl, rfl⟩ := Prod.mk.inj same
        exact ⟨bytes, Function.update_self .., length⟩
    | inr older => exact (backs.update (fresh addr rfl) _).numa other n older
  libc := (backs.update (fresh addr rfl) _).libc

/-- A block of libc is granted. -/
theorem grantLibc (backs : Backs ledger memory) {addr : Addr}
    (fresh : ledger.Fresh (some addr)) (bytes : List UInt8)
    : Backs (ledger.grantLibc (some addr)) (Function.update memory addr (some bytes)) where
  numa := (backs.update (fresh addr rfl) _).numa
  libc other inLibc := by
    cases Finset.mem_insert.mp inLibc with
    | inl same =>
        rw [same, Function.update_self]
        rfl
    | inr older => exact (backs.update (fresh addr rfl) _).libc other older

/-- A block of libnuma is released. -/
theorem releaseNuma (backs : Backs ledger memory) {addr size : Nat}
    (unique : ∀ n, (addr, n) ∈ ledger.numa → n = size) (apart : addr ∉ ledger.libc)
    : Backs (ledger.releaseNuma addr size) (Function.update memory addr none) where
  numa other n routed := by
    obtain ⟨different, older⟩ := Finset.mem_erase.mp routed
    have elsewhere : other ≠ addr := by
      intro same
      exact different (Prod.ext same (unique n (same ▸ older)))
    rw [Function.update_of_ne elsewhere]
    exact backs.numa other n older
  libc other inLibc := by
    have elsewhere : other ≠ addr := fun same => apart (same ▸ inLibc)
    rw [Function.update_of_ne elsewhere]
    exact backs.libc other inLibc

/-- A block of libc is released. -/
theorem releaseLibc (backs : Backs ledger memory) {addr : Addr}
    (unrouted : ∀ size, (addr, size) ∉ ledger.numa)
    : Backs (ledger.releaseLibc addr) (Function.update memory addr none) where
  numa other n routed := by
    have elsewhere : other ≠ addr := fun same => unrouted n (same ▸ routed)
    rw [Function.update_of_ne elsewhere]
    exact backs.numa other n routed
  libc other inLibc := by
    obtain ⟨different, older⟩ := Finset.mem_erase.mp inLibc
    rw [Function.update_of_ne different]
    exact backs.libc other older

/-- A block is written in place. -/
theorem writeBlock (backs : Backs ledger memory) {addr : Addr} {old bytes : List UInt8}
    (here : memory addr = some old) (length : bytes.length = old.length)
    : Backs ledger (Function.update memory addr (some bytes)) where
  numa other n routed := by
    obtain ⟨before, there, size⟩ := backs.numa other n routed
    by_cases same : other = addr
    · subst other
      rw [here] at there
      cases there
      exact ⟨bytes, Function.update_self .., length.trans size⟩
    · exact ⟨before, (Function.update_of_ne same ..).trans there, size⟩
  libc other inLibc := by
    by_cases same : other = addr
    · rw [same, Function.update_self]
      rfl
    · rw [Function.update_of_ne same]
      exact backs.libc other inLibc

end Backs

-----------------------------------------------------------------------------------------
-- What the program sees
-----------------------------------------------------------------------------------------

/-- The blocks that the program holds. -/
def view (held : Finset Addr) (memory : Memory) : Memory :=
  fun addr => if addr ∈ held then memory addr else none

section
variable {held : Finset Addr} {memory after : Memory} {addr : Addr}

theorem view_of_mem (mine : addr ∈ held)
    : view held memory addr = memory addr :=
  if_pos mine

theorem view_of_not_mem (other : addr ∉ held)
    : view held memory addr = none :=
  if_neg other

/-- The program sees no change where its blocks do not change. -/
theorem view_same (same : ∀ addr ∈ held, after addr = memory addr)
    : view held after = view held memory := by
  funext addr
  by_cases mine : addr ∈ held
  · rw [view_of_mem mine, view_of_mem mine, same addr mine]
  · rw [view_of_not_mem mine, view_of_not_mem mine]

/-- The program sees a new block. -/
theorem view_insert (same : ∀ addr ∈ held, after addr = memory addr)
    : view (insert addr held) after
      = Function.update (view held memory) addr (after addr) := by
  rw [← view_same same]
  funext other
  by_cases here : other = addr
  · rw [here, Function.update_self, view_of_mem (Finset.mem_insert_self addr held)]
  · rw [Function.update_of_ne here]
    simp [view, here]

/-- The program sees that a block is gone. -/
theorem view_erase (same : ∀ other ∈ held, other ≠ addr → after other = memory other)
    : view (held.erase addr) after = Function.update (view held memory) addr none := by
  funext other
  by_cases here : other = addr
  · rw [here, Function.update_self, view_of_not_mem (Finset.notMem_erase addr held)]
  · rw [Function.update_of_ne here]
    by_cases mine : other ∈ held
    · rw [view_of_mem mine, view_of_mem (Finset.mem_erase.mpr ⟨here, mine⟩),
        same other mine here]
    · rw [view_of_not_mem mine, view_of_not_mem (fun both => mine (Finset.mem_of_mem_erase both))]

end

-----------------------------------------------------------------------------------------
-- A request that is served
-----------------------------------------------------------------------------------------

/-- What libc puts into the block that it is asked for. -/
def Event.contents (fills : Fills) : Event → List UInt8
  | .libcMalloc size _ => garbage fills.libc size
  | .libcCalloc nmemb size _ => zeros (nmemb * size)
  | _ => []

section
variable {site : CallSite} {replies : Replies} {globals : Globals} {sz : Nat}
  {routed : Outcome} {asked : Event} {ledger : Ledger} {memory : Memory}

/-- A request to libc gives a fresh block its contents and leaves all live blocks alone. -/
theorem Event.AsksLibc.fills {reply : Option Addr} (asks : asked.AsksLibc reply)
    (backs : Backs ledger memory) (granted : ledger.Grants asked) (fills : Fills)
    : Backs (ledger.apply asked) (asked.act fills memory)
      ∧ (∀ addr ∈ ledger.live, asked.act fills memory addr = memory addr)
      ∧ ∀ addr ∈ reply, asked.act fills memory addr = some (asked.contents fills) := by
  have fresh := asks.fresh granted
  have acts : asked.act fills memory = match reply with
      | none => memory
      | some addr => Function.update memory addr (some (asked.contents fills)) := by
    cases asks with
    | malloc size => cases reply <;> rfl
    | calloc nmemb size => cases reply <;> rfl
  rw [asks.apply, acts]
  cases reply with
  | none => exact ⟨backs, fun _ _ => rfl, by simp⟩
  | some addr =>
      refine ⟨backs.grantLibc fresh _, fun other live => ?_, ?_⟩
      · have different : other ≠ addr := fun same => fresh addr rfl (same ▸ live)
        exact Function.update_of_ne different ..
      · rintro _ ⟨⟩
        exact Function.update_self ..

/-- The shared block and the fall back to libc give a fresh block its contents and leave all live
blocks alone.
-/
theorem RouteStep.fills (routing : RouteStep site replies globals sz routed)
    (asks : asked.AsksLibc replies.libc) (backs : Backs ledger memory)
    (granted : Along Ledger.apply Ledger.Grants ledger
      (routed.orLibc replies.libc asked).events)
    (fills : Fills)
    : let outcome := routed.orLibc replies.libc asked
      let after := outcome.events.foldl (Event.act fills) memory
      Backs (outcome.events.foldl Ledger.apply ledger) after
      ∧ (∀ addr ∈ ledger.live, after addr = memory addr)
      ∧ ∀ addr ∈ outcome.ret, ∃ bytes,
        after addr = some bytes
            ∧ (bytes = garbage fills.numa sz ∨ bytes = asked.contents fills) := by
  have served {addr : Addr} (fresh : ledger.Fresh (some addr))
      : Backs (ledger.grantNuma sz (some addr))
          (Function.update memory addr (some (garbage fills.numa sz)))
        ∧ ∀ other ∈ ledger.live,
          Function.update memory addr (some (garbage fills.numa sz)) other = memory other := by
    refine ⟨backs.grantNuma fresh (length_garbage ..), fun other live => ?_⟩
    have different : other ≠ addr := fun same => fresh addr rfl (same ▸ live)
    exact Function.update_of_ne different ..
  cases routing with
  | @recorded addr loc node after _ _ _ _ _ _ =>
      obtain ⟨fresh, freshEntry, _⟩ := granted
      obtain ⟨inNuma, others⟩ := served fresh
      have apart : addr ≠ loc := by
        rintro rfl
        exact freshEntry addr rfl (Ledger.mem_live_grantNuma.mpr (.inl rfl))
      refine ⟨inNuma.grantLibc freshEntry _, fun other live => ?_, ?_⟩
      · have different : other ≠ loc := by
          rintro rfl
          exact freshEntry other rfl (Ledger.mem_live_grantNuma.mpr (.inr live))
        exact (Function.update_of_ne different ..).trans (others other live)
      · rintro _ ⟨⟩
        exact ⟨_, (Function.update_of_ne apart ..).trans (Function.update_self ..), .inl rfl⟩
  | @unrecorded addr node after _ _ _ _ _ _ =>
      obtain ⟨inNuma, others⟩ := served granted.1
      refine ⟨inNuma, others, ?_⟩
      rintro _ ⟨⟩
      exact ⟨_, Function.update_self .., .inl rfl⟩
  | refused _ _ _ _ _ =>
      obtain ⟨inLibc, others, given⟩ := asks.fills backs granted.2.1 fills
      exact ⟨inLibc, others, fun addr answer => ⟨_, given addr answer, .inr rfl⟩⟩
  | unrouted _ _ _ _ =>
      obtain ⟨inLibc, others, given⟩ := asks.fills backs granted.1 fills
      exact ⟨inLibc, others, fun addr answer => ⟨_, given addr answer, .inr rfl⟩⟩

end

end Kumf.Interc
