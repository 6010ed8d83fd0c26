import Kumf.Interc.Allocator

/-! The size of the block that `calloc` hands out: its routed path takes the product of its
arguments in `size_t`, the libc path passes both on.
-/

namespace Kumf.Interc

/-- The block that a back end hands out, with the bytes it has at least. -/
def Event.granted : Event → Option (Addr × Nat)
  | .numaAllocOnnode size _ ret => ret.map (fun addr => (addr, size))
  | .libcMalloc size ret => ret.map (fun addr => (addr, size))
  | .libcCalloc nmemb size ret => ret.map (fun addr => (addr, nmemb * size))
  | .libcRealloc _ size ret => ret.map (fun addr => (addr, size))
  | _ => none

/-- The answer is null or a block of at least so many bytes. -/
def Outcome.LargeEnough (outcome : Outcome) (bytes : Nat) : Prop :=
  ∀ addr ∈ outcome.ret,
    ∃ event ∈ outcome.events, ∃ block ∈ event.granted, block.1 = addr ∧ bytes ≤ block.2

instance (outcome : Outcome) (bytes : Nat) : Decidable (outcome.LargeEnough bytes) :=
  inferInstanceAs (Decidable (∀ addr ∈ outcome.ret,
    ∃ event ∈ outcome.events, ∃ block ∈ event.granted, block.1 = addr
      ∧ bytes ≤ block.2))

/-- A request that falls through to `libc_calloc` is served there in full. -/
theorem largeEnough_orLibc {routed : Outcome} (unrouted : routed.ret = none)
    (nmemb size : Nat) (reply : Option Addr)
    : (routed.orLibc reply (.libcCalloc nmemb size reply)).LargeEnough (nmemb * size) := by
  intro addr answered
  simp only [Outcome.orLibc, unrouted, Option.mem_def] at answered ⊢
  refine ⟨.libcCalloc nmemb size reply, ?_, (addr, nmemb * size), ?_, rfl, Nat.le_refl _⟩
  · exact List.mem_append_right _ List.mem_cons_self
  · rw [answered]
    rfl

/-- A routed block has the bytes that were asked of `numa_alloc_onnode`, and an entry is
smaller than any product that wraps.
-/
theorem largeEnough_routed_iff {globals : Globals} {total bytes : Nat} {node : Int}
    {addr : Addr} {entry : Option Addr} (wrapped : total = bytes % 2 ^ 64)
    : Outcome.LargeEnough
        ⟨globals, some addr,
          [.numaAllocOnnode total node (some addr), .libcMalloc entrySize entry]⟩
        bytes
      ↔ bytes < 2 ^ 64 := by
  constructor
  · intro large
    obtain ⟨event, member, block, granted, _, enough⟩ := large addr rfl
    rcases List.mem_cons.mp member with rfl | other
    · cases granted
      rw [wrapped] at enough
      exact Nat.lt_of_le_of_lt enough (Nat.mod_lt _ (Nat.two_pow_pos 64))
    · rw [List.mem_singleton.mp other] at granted
      obtain ⟨loc, _, rfl⟩ := Option.map_eq_some_iff.mp granted
      have small : entrySize < 2 ^ 64 := by decide
      exact Nat.lt_of_le_of_lt enough small
  · intro fits other answered
    cases answered
    refine ⟨_, List.mem_cons_self, (addr, total), rfl, rfl, ?_⟩
    rw [wrapped, Nat.mod_eq_of_lt fits]

/-- `calloc` answers null or a block for the whole product exactly when the product fits,
or the wrapped one is not routed. Witness: the four ways of the shared block.
-/
theorem calloc_largeEnough_iff (site : CallSite) (replies : Replies) (globals : Globals)
    (nmemb size : Nat)
    : (calloc site replies globals nmemb size).LargeEnough (nmemb * size)
      ↔ nmemb * size < 2 ^ 64
        ∨ globals.mode = .passive
        ∨ ¬ globals.Routes site.caller (nmemb * size % 2 ^ 64)
        ∨ replies.numa = none := by
  unfold calloc
  split
  case isTrue passive =>
      let unrouted : Outcome := ⟨globals, none, []⟩
      have none : unrouted.ret = none := rfl
      have inFull := largeEnough_orLibc none nmemb size replies.libc
      exact ⟨fun _ => .inr (.inl passive), fun _ => inFull⟩
  case isFalse active =>
      dsimp only
      have routing := tryRoute_step site replies globals (nmemb * size % 2 ^ 64)
      generalize tryRoute site replies globals (nmemb * size % 2 ^ 64) = routed at routing
      cases routing with
      | recorded selected granted _ _ _ _ =>
          simp only [active, selected, granted, not_true_eq_false, reduceCtorEq, or_false]
          exact largeEnough_routed_iff rfl
      | unrecorded selected granted _ _ _ _ =>
          simp only [active, selected, granted, not_true_eq_false, reduceCtorEq, or_false]
          exact largeEnough_routed_iff rfl
      | refused _ denied _ _ _ =>
          exact ⟨fun _ => .inr (.inr (.inr denied)),
            fun _ => largeEnough_orLibc rfl nmemb size replies.libc⟩
      | unrouted skipped _ _ _ =>
          exact ⟨fun _ => .inr (.inr (.inl skipped)),
            fun _ => largeEnough_orLibc rfl nmemb size replies.libc⟩

/-- A request of 2^64 + 8192 bytes that is served with 8192. -/
theorem calloc_wrapped_too_small
    : ¬ (calloc
      { thread := 0, caller := 0, place := ⟨0, fun _ => 0⟩, stale := [], conf := none }
          { numa := some 65536, entry := some 32, libc := none }
          { mode := .routing
            rules := .ofTables { sizeRules := [⟨4096, 0, 1⟩] }
            routingEverUsed := false
            addrHash := .empty
            locals := fun _ => {} }
          (2 ^ 61 + 1024) 8).LargeEnough ((2 ^ 61 + 1024) * 8) := by
  decide

end Kumf.Interc
