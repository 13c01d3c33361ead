import Zephyr.Kernel.Mutex.Nesting

/-! Runs that record which mutexes each thread holds, and how a mutex changes hands.
Threads are to release their mutexes in reverse order, and to wait only for the mutex its owner
acquired last.
-/

namespace Zephyr.Kernel.Mutex

/-- A mutex goes from one owner to another, to the front of the new owner's list. -/
def Held.handOver (held : Held) (mutex : Nat) (before after : Option Nat) : Held :=
  if before = after then held
  else
    fun thread =>
      if after = some thread then mutex :: (held thread).erase mutex
      else if before = some thread then (held thread).erase mutex
      else held thread

def recordedStep (state : System × Held) (call : Call) : Option (System × Held) :=
  (step state.1 call).map
    (fun next =>
      match call with
      | .lock _ mutex _ | .unlock _ mutex =>
          (next,
            state.2.handOver mutex (state.1.mutexes mutex).owner (next.mutexes mutex).owner)
      | .timeout _ | .timedOut _ => (next, state.2))

def recordedStart (prio : Nat → Int) : System × Held :=
  (start prio, fun _ => [])

/-- Each thread releases its mutexes in reverse order of acquisition. -/
def Lifo (state : System × Held) : Call → Prop
  | .unlock thread mutex =>
      (state.1.mutexes mutex).owner = some thread ∧ ¬(state.1.mutexes mutex).lockCount > 1
      → (state.2 thread).head? = some mutex
  | _ => True

/-- The mutex is the one its owner acquired last, and the owner waits for no mutex. -/
def LastOfRunning (state : System × Held) (mutex : Nat) : Prop :=
  ∀ owner ∈ (state.1.mutexes mutex).owner,
    (state.2 owner).head? = some mutex ∧ (state.1.threads owner).pendedOn = none

/-- Waits begin, and end by a timeout, only at mutexes that their owner acquired last, and no
lock count overflows.
-/
def StaysNested (state : System × Held) : Call → Prop
  | .lock thread mutex timeout =>
      (state.1.mutexes mutex).lockCount = 0
      ∨ ((state.1.mutexes mutex).owner = some thread
        ∧ (state.1.mutexes mutex).lockCount + 1 ≠ 0)
      ∨ ((state.1.mutexes mutex).owner ≠ some thread
        ∧ (timeout = kNoWait ∨ LastOfRunning state mutex))
  | .timedOut thread => ∀ mutex ∈ (state.1.threads thread).timedOut, LastOfRunning state mutex
  | _ => True

instance (state : System × Held) : (call : Call) → Decidable (Lifo state call)
  | .unlock _ _ => inferInstanceAs (Decidable (_ ∧ _ → _))
  | .lock .. | .timeout .. | .timedOut .. => .isTrue trivial

instance (state : System × Held) (mutex : Nat) : Decidable (LastOfRunning state mutex) :=
  inferInstanceAs (Decidable (∀ owner ∈ (state.1.mutexes mutex).owner, _ ∧ _))

instance (state : System × Held) : (call : Call) → Decidable (StaysNested state call)
  | .lock .. => inferInstanceAs (Decidable (_ ∨ _ ∧ _ ∨ _ ∧ (_ ∨ _)))
  | .timedOut thread =>
      inferInstanceAs (Decidable (∀ mutex ∈ (state.1.threads thread).timedOut, _))
  | .unlock .. | .timeout .. => .isTrue trivial

/-! ### Hand-over -/

variable {system : System} {held : Held} {thread mutex : Nat}

theorem Nested.not_held (nested : Nested system held) {other : Nat}
    (not : (system.mutexes mutex).owner ≠ some other)
    : mutex ∉ held other :=
  fun member => not ((nested.owned other mutex).mp member)

theorem Nested.handOver_cases (nested : Nested system held) {after : Option Nat}
    (changes : (system.mutexes mutex).owner ≠ after) (holder : Nat)
    : ∃ rest,
        rest.Sublist (held holder)
        ∧ (∀ other, other ∈ rest ↔ other ∈ held holder ∧ other ≠ mutex)
        ∧ held.handOver mutex (system.mutexes mutex).owner after holder
          = if after = some holder then mutex :: rest else rest := by
  refine ⟨(held holder).erase mutex, List.erase_sublist, ?_, ?_⟩
  · intro other
    rw [(nested.distinct holder).mem_erase_iff, and_comm]
  · simp only [Held.handOver, if_neg changes]
    split
    · rfl
    · split
      · rfl
      · rename_i not
        exact (List.erase_of_not_mem (nested.not_held not)).symm

theorem Nested.handOver {later : System} {after : Option Nat} (nested : Nested system held)
    (changes : (system.mutexes mutex).owner ≠ after)
    (others : ∀ other ≠ mutex, later.mutexes other = system.mutexes other)
    (prio : later.prio = system.prio)
    (still
      : ∀ other ≠ mutex,
          ∀ waiter ∈ (system.mutexes other).waitQ,
            (later.threads waiter.thread).pendedOn = (system.threads waiter.thread).pendedOn)
    (owner : (later.mutexes mutex).owner = after)
    (orig : ∀ holder, after = some holder → (later.mutexes mutex).ownerOrigPrio = system.prio holder)
    (orderly : later.Orderly mutex)
    : Nested later (held.handOver mutex (system.mutexes mutex).owner after) := by
  refine nested.change others prio still ?_ ?_ orderly ?_
  · intro holder other
    obtain ⟨rest, -, members, list⟩ := nested.handOver_cases changes holder
    rw [list]
    by_cases self : other = mutex
    · subst self
      rw [owner]
      split
      · simp [*]
      · simp [*]
    · rw [others other self, ← nested.owned holder other]
      split <;> simp [members, self]
  · intro holder
    obtain ⟨rest, sublist, members, list⟩ := nested.handOver_cases changes holder
    rw [list]
    have nodup := (nested.distinct holder).sublist sublist
    split
    · exact List.nodup_cons.mpr ⟨fun member => ((members mutex).mp member).2 rfl, nodup⟩
    · exact nodup
  · intro holder
    obtain ⟨rest, sublist, members, list⟩ := nested.handOver_cases changes holder
    have keeps {wanted : Int} {earlier : Nat} (member : earlier ∈ rest)
        (before : system.Serves wanted earlier)
        : later.Serves wanted earlier := by
      have same := others earlier ((members earlier).mp member).2
      exact before.mono (by rw [same]; exact List.Subset.refl _) (fun waiter _ => by rw [prio])
    have saved : rest.Pairwise
        (fun last earlier => later.Serves (later.mutexes last).ownerOrigPrio earlier) := by
      refine ((nested.saved holder).sublist sublist).imp_of_mem ?_
      intro last earlier lastMember earlierMember before
      rw [others last ((members last).mp lastMember).2]
      exact keeps earlierMember before
    rw [list]
    split
    · refine List.pairwise_cons.mpr ⟨?_, saved⟩
      intro earlier member
      rw [orig holder ‹_›]
      have owns := (nested.owned holder earlier).mp ((members earlier).mp member).1
      exact keeps member ((nested.orderly earlier).boosted holder owns)
    · exact saved

end Zephyr.Kernel.Mutex
