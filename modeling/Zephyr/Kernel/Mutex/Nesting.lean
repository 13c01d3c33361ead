import Mathlib.Data.List.Nodup
import Mathlib.Order.Lattice
import Zephyr.Kernel.Mutex.Model

/-! The mutexes each thread holds, most recent first, and what the saved priorities are worth.
As long as threads wait only for the mutex its owner acquired last, the priority saved with a
mutex is urgent enough for whoever waits for the mutexes acquired before it.
-/

namespace Zephyr.Kernel.Mutex

open Zephyr.Library

/-- The mutexes of each thread, the one acquired last in front. -/
abbrev Held : Type := Nat → List Nat

/-- `prio` is at least as urgent as every thread that waits for the mutex, up to the ceiling. -/
def System.Serves (system : System) (prio : Int) (mutex : Nat) : Prop :=
  ∀ waiter ∈ (system.mutexes mutex).waitQ,
    prio ≤ max (system.prio waiter.thread) priorityCeiling

/-- What holds of each mutex: it is locked exactly when it has an owner, only then do threads
wait for it, each once and in the order of their priorities, and the owner serves them.
-/
structure System.Orderly (system : System) (mutex : Nat) : Prop where
  locked : (system.mutexes mutex).lockCount = 0 ↔ (system.mutexes mutex).owner = none
  idle : (system.mutexes mutex).owner = none → (system.mutexes mutex).waitQ = []
  pended
    : ∀ waiter ∈ (system.mutexes mutex).waitQ,
        (system.threads waiter.thread).pendedOn = some mutex
  once : ((system.mutexes mutex).waitQ.map Waiter.thread).Nodup
  sorted
    : (system.mutexes mutex).waitQ.Pairwise
        (fun first second => system.prio first.thread ≤ system.prio second.thread)
  boosted
    : ∀ owner,
        (system.mutexes mutex).owner = some owner → system.Serves (system.prio owner) mutex

structure Nested (system : System) (held : Held) : Prop where
  owned
    : ∀ thread mutex, mutex ∈ held thread ↔ (system.mutexes mutex).owner = some thread
  distinct : ∀ thread, (held thread).Nodup
  orderly : ∀ mutex, system.Orderly mutex
  saved
    : ∀ thread,
        (held thread).Pairwise
          (fun later earlier => system.Serves (system.mutexes later).ownerOrigPrio earlier)

/-! ### Updates of the system -/

namespace System

variable {system : System} {thread other mutex : Nat}

@[simp]
theorem setMutex_threads (value : KMutex) : (system.setMutex mutex value).threads = system.threads :=
  rfl

@[simp]
theorem setThread_mutexes (value : Thread)
    : (system.setThread thread value).mutexes = system.mutexes :=
  rfl

@[simp]
theorem setMutex_self (value : KMutex) : (system.setMutex mutex value).mutexes mutex = value :=
  Function.update_self ..

theorem setMutex_other (value : KMutex) (ne : other ≠ mutex)
    : (system.setMutex mutex value).mutexes other = system.mutexes other :=
  Function.update_of_ne ne ..

@[simp]
theorem setThread_self (value : Thread) : (system.setThread thread value).threads thread = value :=
  Function.update_self ..

theorem setThread_other (value : Thread) (ne : other ≠ thread)
    : (system.setThread thread value).threads other = system.threads other :=
  Function.update_of_ne ne ..

@[simp]
theorem setMutex_prio (value : KMutex) : (system.setMutex mutex value).prio = system.prio :=
  rfl

theorem setThread_prio {value : Thread} (same : value.prio = system.prio thread)
    : (system.setThread thread value).prio = system.prio := by
  funext found
  by_cases self : found = thread
  · subst self
    simpa [prio] using same
  · simp only [prio, setThread_other value self]

theorem setThread_pendedOn {value : Thread}
    (same : value.pendedOn = (system.threads thread).pendedOn)
    : ((system.setThread thread value).threads other).pendedOn
      = (system.threads other).pendedOn := by
  by_cases self : other = thread
  · subst self
    simpa using same
  · rw [setThread_other value self]

@[simp]
theorem zThreadPrioSet_mutexes (prio : Int)
    : (system.zThreadPrioSet thread prio).mutexes = system.mutexes :=
  rfl

theorem zThreadPrioSet_pendedOn (prio : Int)
    : ((system.zThreadPrioSet thread prio).threads other).pendedOn
      = (system.threads other).pendedOn :=
  setThread_pendedOn rfl

theorem zThreadPrioSet_prio_self (prio : Int)
    : (system.zThreadPrioSet thread prio).prio thread = prio := by
  simp [zThreadPrioSet, System.prio]

theorem zThreadPrioSet_prio_other (prio : Int) (ne : other ≠ thread)
    : (system.zThreadPrioSet thread prio).prio other = system.prio other := by
  simp only [System.prio, zThreadPrioSet, setThread_other _ ne]

theorem adjustOwnerPrio_eq (prio : Int)
    : adjustOwnerPrio system thread prio = system.zThreadPrioSet thread prio := by
  unfold adjustOwnerPrio
  split
  · rfl
  · rename_i same
    obtain rfl := not_ne_iff.mp same
    have unchanged : { system.threads thread with prio := system.prio thread }
        = system.threads thread := rfl
    rw [zThreadPrioSet, unchanged, setThread, Function.update_eq_self]

theorem Serves.mono {later : System} {prio : Int} (serves : system.Serves prio mutex)
    (fewer : (later.mutexes mutex).waitQ ⊆ (system.mutexes mutex).waitQ)
    (same
      : ∀ waiter ∈ (later.mutexes mutex).waitQ,
          later.prio waiter.thread = system.prio waiter.thread)
    : later.Serves prio mutex := by
  intro waiter member
  rw [same waiter member]
  exact serves waiter (fewer member)

theorem Orderly.congr {later : System} (orderly : system.Orderly mutex)
    (mutexSame : later.mutexes mutex = system.mutexes mutex)
    (waiterSame
      : ∀ waiter ∈ (system.mutexes mutex).waitQ,
          later.prio waiter.thread = system.prio waiter.thread
          ∧ (later.threads waiter.thread).pendedOn = (system.threads waiter.thread).pendedOn)
    (serves
      : ∀ owner,
          (system.mutexes mutex).owner = some owner
          → later.prio owner = system.prio owner ∨ system.Serves (later.prio owner) mutex)
    : later.Orderly mutex := by
  have keeps {prio : Int} (before : system.Serves prio mutex) : later.Serves prio mutex := by
    refine before.mono (by rw [mutexSame]; exact List.Subset.refl _) ?_
    rw [mutexSame]
    exact fun waiter member => (waiterSame waiter member).1
  refine ⟨?_, ?_, ?_, ?_, ?_, ?_⟩
  · rw [mutexSame]
    exact orderly.locked
  · rw [mutexSame]
    exact orderly.idle
  · rw [mutexSame]
    intro waiter member
    rw [(waiterSame waiter member).2]
    exact orderly.pended waiter member
  · rw [mutexSame]
    exact orderly.once
  · rw [mutexSame]
    refine orderly.sorted.imp_of_mem ?_
    intro first second firstMember secondMember ordered
    rwa [(waiterSame first firstMember).1, (waiterSame second secondMember).1]
  · rw [mutexSame]
    intro owner owns
    rcases serves owner owns with same | served
    · rw [same]
      exact keeps (orderly.boosted owner owns)
    · exact keeps served

end System

/-! ### What the parts of the mutex functions keep -/

variable {system : System} {held : Held} {thread mutex : Nat}

theorem Nested.waiter_ne (nested : Nested system held)
    (running : (system.threads thread).pendedOn = none) {waiter : Waiter}
    (member : waiter ∈ (system.mutexes mutex).waitQ)
    : waiter.thread ≠ thread := by
  intro same
  have pended := (nested.orderly mutex).pended waiter member
  rw [same, running] at pended
  cases pended

theorem Nested.sameWaits {later : System} (nested : Nested system held)
    (mutexes : later.mutexes = system.mutexes) (prio : later.prio = system.prio)
    (pendedOn
      : ∀ {thread}, (later.threads thread).pendedOn = (system.threads thread).pendedOn)
    : Nested later held := by
  refine ⟨by rw [mutexes]; exact nested.owned, nested.distinct, ?_, ?_⟩
  · intro mutex
    refine (nested.orderly mutex).congr (by rw [mutexes]) ?_ ?_
    · exact fun waiter _ => ⟨by rw [prio], pendedOn⟩
    · exact fun owner _ => .inl (by rw [prio])
  · intro holder
    refine (nested.saved holder).imp ?_
    intro last earlier before
    rw [mutexes]
    exact before.mono (by rw [mutexes]; exact List.Subset.refl _) (fun _ _ => by rw [prio])

theorem Nested.prioSet {prio : Int} (nested : Nested system held)
    (running : (system.threads thread).pendedOn = none)
    (serves : ∀ mutex ∈ held thread, system.Serves prio mutex)
    : Nested (system.zThreadPrioSet thread prio) held := by
  have same {mutex : Nat} {waiter : Waiter} (member : waiter ∈ (system.mutexes mutex).waitQ)
      : (system.zThreadPrioSet thread prio).prio waiter.thread = system.prio waiter.thread :=
    System.zThreadPrioSet_prio_other prio (nested.waiter_ne running member)
  refine ⟨nested.owned, nested.distinct, ?_, ?_⟩
  · intro mutex
    refine (nested.orderly mutex).congr rfl ?_ ?_
    · intro waiter member
      exact ⟨same member, System.zThreadPrioSet_pendedOn prio⟩
    · intro owner owns
      by_cases self : owner = thread
      · subst self
        rw [System.zThreadPrioSet_prio_self]
        exact .inr (serves mutex ((nested.owned owner mutex).mpr owns))
      · exact .inl (System.zThreadPrioSet_prio_other prio self)
  · intro holder
    refine (nested.saved holder).imp ?_
    intro later earlier before
    exact before.mono (List.Subset.refl _) (fun waiter member => same member)

/-- One mutex changes, with its place in the lists of its old and new owner, while those who
wait for other mutexes keep waiting. What is left to show concerns that mutex.
-/
theorem Nested.change {later : System} {held' : Held} (nested : Nested system held)
    (others : ∀ other ≠ mutex, later.mutexes other = system.mutexes other)
    (prio : later.prio = system.prio)
    (still
      : ∀ other ≠ mutex,
          ∀ waiter ∈ (system.mutexes other).waitQ,
            (later.threads waiter.thread).pendedOn = (system.threads waiter.thread).pendedOn)
    (owned
      : ∀ holder other, other ∈ held' holder ↔ (later.mutexes other).owner = some holder)
    (distinct : ∀ holder, (held' holder).Nodup) (orderly : later.Orderly mutex)
    (saved
      : ∀ holder,
          (held' holder).Pairwise
            (fun last earlier => later.Serves (later.mutexes last).ownerOrigPrio earlier))
    : Nested later held' := by
  refine ⟨owned, distinct, ?_, saved⟩
  intro other
  by_cases self : other = mutex
  · exact self ▸ orderly
  · refine (nested.orderly other).congr (others other self) ?_ ?_
    · intro waiter member
      exact ⟨by rw [prio], still other self waiter member⟩
    · intro owner _
      exact .inl (by rw [prio])

/-- The lists stay as they are when no owner and no saved priority changes and nobody starts to
wait for a mutex below the top of its owner's list.
-/
theorem Nested.saved_congr {later : System} (nested : Nested system held)
    (prio : later.prio = system.prio)
    (orig
      : ∀ other,
          (later.mutexes other).ownerOrigPrio = (system.mutexes other).ownerOrigPrio)
    (fewer
      : ∀ holder last earlier,
          [last, earlier].Sublist (held holder)
          → (later.mutexes earlier).waitQ ⊆ (system.mutexes earlier).waitQ)
    (holder : Nat)
    : (held holder).Pairwise
        (fun last earlier => later.Serves (later.mutexes last).ownerOrigPrio earlier) := by
  rw [List.pairwise_iff_forall_sublist]
  intro last earlier sublist
  have before := List.pairwise_iff_forall_sublist.mp (nested.saved holder) sublist
  rw [orig]
  exact before.mono (fewer holder last earlier sublist) (fun waiter _ => by rw [prio])

end Zephyr.Kernel.Mutex
