import Zephyr.Kernel.Mutex.Locking
import Zephyr.Library.Run

/-! What `k_mutex_unlock` keeps when the mutex is the one its owner acquired last. -/

namespace Zephyr.Kernel.Mutex

variable {system : System} {held : Held} {thread mutex : Nat}

/-- The first waiter becomes the owner; the wait queue is sorted, so it serves the others. -/
theorem Nested.pass {newOwner : Waiter} {rest : List Waiter} (nested : Nested system held)
    (queue : (system.mutexes mutex).waitQ = newOwner :: rest)
    (changes : (system.mutexes mutex).owner ≠ some newOwner.thread)
    : Nested
        ((system.setMutex mutex
            { system.mutexes mutex with
              owner := some newOwner.thread
              ownerOrigPrio := system.prio newOwner.thread
              waitQ := rest }).setThread newOwner.thread
          { system.threads newOwner.thread with pendedOn := none })
        (held.handOver mutex (system.mutexes mutex).owner (some newOwner.thread)) := by
  have orderly := nested.orderly mutex
  have waited := orderly.pended newOwner (by simp [queue])
  have once := orderly.once
  have sorted := orderly.sorted
  rw [queue] at once sorted
  have tail {waiter : Waiter} (member : waiter ∈ rest) : waiter.thread ≠ newOwner.thread :=
    fun same => (List.nodup_cons.mp once).1 (same ▸ List.mem_map_of_mem member)
  refine nested.handOver changes (fun other ne => System.setMutex_other _ ne)
    (System.setThread_prio rfl) ?_ (by simp) ?_ ?_
  · intro other ne waiter member
    have elsewhere := (nested.orderly other).pended waiter member
    rw [System.setThread_other, System.setMutex_threads]
    intro same
    rw [same, waited] at elsewhere
    exact ne (Option.some.inj elsewhere).symm
  · rintro holder ⟨⟩
    simp
  · refine ⟨?_, ?_, ?_, ?_, ?_, ?_⟩
    all_goals simp only [System.setMutex_self, System.setThread_mutexes]
    · have owned : (system.mutexes mutex).owner ≠ none := fun none => by
        simp [orderly.idle none] at queue
      exact iff_of_false (fun zero => owned (orderly.locked.mp zero)) (by simp)
    · exact fun none => nomatch none
    · intro waiter member
      rw [System.setThread_other _ (tail member)]
      exact orderly.pended waiter (by simp [queue, member])
    · exact (List.nodup_cons.mp once).2
    · rw [System.setThread_prio]
      · exact (List.pairwise_cons.mp sorted).2
      · rfl
    · rintro owner ⟨⟩ waiter member
      rw [System.setThread_mutexes, System.setMutex_self] at member
      rw [System.setThread_prio]
      · have first := (List.pairwise_cons.mp sorted).1 waiter member
        exact first.trans (le_max_left _ _)
      · rfl

/-- Nobody waits, so the mutex becomes free. -/
theorem Nested.free (nested : Nested system held)
    (queue : (system.mutexes mutex).waitQ = []) (changes : (system.mutexes mutex).owner ≠ none)
    : Nested (system.setMutex mutex { system.mutexes mutex with owner := none, lockCount := 0 })
        (held.handOver mutex (system.mutexes mutex).owner none) := by
  refine nested.handOver changes (fun other ne => System.setMutex_other _ ne) rfl
    (fun _ _ _ _ => rfl) (by simp) (fun _ none => nomatch none) ?_
  refine ⟨?_, ?_, ?_, ?_, ?_, ?_⟩
  all_goals simp [queue]

/-- The state of the system when the priority of the owner is restored after the mutex has gone
to its next owner, instead of before.
-/
theorem kMutexUnlock_pass {newOwner : Waiter} {rest : List Waiter}
    (ne : newOwner.thread ≠ thread)
    (queue : (system.mutexes mutex).waitQ = newOwner :: rest)
    (owns : (system.mutexes mutex).owner = some thread)
    (last : ¬(system.mutexes mutex).lockCount > 1)
    : (kMutexUnlock system thread mutex).1
      = ((system.setMutex mutex
            { system.mutexes mutex with
              owner := some newOwner.thread
              ownerOrigPrio := system.prio newOwner.thread
              waitQ := rest }).setThread newOwner.thread
          { system.threads newOwner.thread with pendedOn := none }).zThreadPrioSet thread
            (system.mutexes mutex).ownerOrigPrio := by
  simp only [kMutexUnlock, owns, if_neg last, queue, ne_eq, not_true, if_false]
  rw [System.adjustOwnerPrio_eq, System.zThreadPrioSet_prio_other _ ne]
  simp only [System.zThreadPrioSet, System.setThread_other _ ne, System.setThread_other _ ne.symm]
  simp only [System.setThread, System.setMutex, Function.update_comm ne]

theorem kMutexUnlock_free (queue : (system.mutexes mutex).waitQ = [])
    (owns : (system.mutexes mutex).owner = some thread)
    (last : ¬(system.mutexes mutex).lockCount > 1)
    : (kMutexUnlock system thread mutex).1
      = (system.setMutex mutex
          { system.mutexes mutex with owner := none, lockCount := 0 }).zThreadPrioSet thread
            (system.mutexes mutex).ownerOrigPrio := by
  simp only [kMutexUnlock, owns, if_neg last, queue, ne_eq, not_true, if_false]
  rw [System.adjustOwnerPrio_eq]
  rfl

theorem Nested.saved_serves {later : System} {after : Option Nat} (nested : Nested system held)
    (changes : (system.mutexes mutex).owner ≠ after) (other : after ≠ some thread)
    (head : (held thread).head? = some mutex)
    (others : ∀ found ≠ mutex, later.mutexes found = system.mutexes found)
    (prio : later.prio = system.prio)
    : ∀ kept ∈ held.handOver mutex (system.mutexes mutex).owner after thread,
        later.Serves (system.mutexes mutex).ownerOrigPrio kept := by
  intro kept member
  obtain ⟨rest, -, members, list⟩ := nested.handOver_cases changes thread
  rw [list, if_neg other] at member
  obtain ⟨before, ne⟩ := (members kept).mp member
  obtain ⟨below, whole⟩ := List.head?_eq_some_iff.mp head
  have saved := nested.saved thread
  rw [whole] at before saved
  have served := (List.pairwise_cons.mp saved).1 kept ((List.mem_cons.mp before).resolve_left ne)
  exact served.mono (by rw [others kept ne]; exact List.Subset.refl _) (fun _ _ => by rw [prio])

theorem Nested.unlock (nested : Nested system held)
    (running : (system.threads thread).pendedOn = none)
    (lifo : Lifo (system, held) (.unlock thread mutex))
    : Nested (kMutexUnlock system thread mutex).1
        (held.handOver mutex (system.mutexes mutex).owner
          ((kMutexUnlock system thread mutex).1.mutexes mutex).owner) := by
  simp only [Lifo] at lifo
  by_cases owns : (system.mutexes mutex).owner = some thread
  · by_cases last : (system.mutexes mutex).lockCount > 1
    · have counts : (system.mutexes mutex).lockCount - 1 ≠ 0 := by
        intro zero
        rw [← UInt32.sub_add_cancel (system.mutexes mutex).lockCount 1, zero] at last
        exact absurd last (by decide)
      have taken : (system.mutexes mutex).lockCount ≠ 0 := fun zero => by simp [zero] at last
      have counted := nested.setCount (iff_of_false counts taken)
      simpa [kMutexUnlock, Held.handOver, owns, last] using counted
    · have head := lifo ⟨owns, last⟩
      cases queue : (system.mutexes mutex).waitQ with
      | nil =>
          have changes : (system.mutexes mutex).owner ≠ none := by simp [owns]
          rw [kMutexUnlock_free queue owns last, System.zThreadPrioSet_mutexes,
            System.setMutex_self]
          refine (nested.free queue changes).prioSet running ?_
          exact nested.saved_serves changes (by simp) head
            (fun other ne => System.setMutex_other _ ne) rfl
      | cons newOwner rest =>
          have first : newOwner ∈ (system.mutexes mutex).waitQ := by simp [queue]
          have ne := nested.waiter_ne running first
          have changes : (system.mutexes mutex).owner ≠ some newOwner.thread := by
            simpa [owns] using ne.symm
          rw [kMutexUnlock_pass ne queue owns last, System.zThreadPrioSet_mutexes,
            System.setThread_mutexes, System.setMutex_self]
          refine (nested.pass queue changes).prioSet ?_ ?_
          · rw [System.setThread_other _ ne.symm]
            exact running
          · exact nested.saved_serves changes (by simpa using ne) head
              (fun other ne => System.setMutex_other _ ne) (System.setThread_prio rfl)
  · have unchanged : (kMutexUnlock system thread mutex).1 = system := by
      cases found : (system.mutexes mutex).owner with
      | none => simp [kMutexUnlock, found]
      | some owner =>
          have other : owner ≠ thread := fun same => owns (same ▸ found)
          simp [kMutexUnlock, found, other]
    rw [unchanged, Held.handOver, if_pos rfl]
    exact nested

end Zephyr.Kernel.Mutex

/-! The owner of a mutex is as urgent as the threads that wait for it, as long as threads wait
only for the mutex its owner acquired last and the owner itself is not waiting.
-/

namespace Zephyr.Kernel.Mutex

open Zephyr.Library

variable {system : System} {held : Held} {thread mutex : Nat}

theorem Nested.initial (prio : Nat → Int) : Nested (start prio) (fun _ => []) := by
  refine ⟨?_, ?_, ?_, ?_⟩
  · simp [start]
  · simp
  · intro mutex
    refine ⟨?_, ?_, ?_, ?_, ?_, ?_⟩
    all_goals simp [start]
  · simp

theorem mayCall_running (may : system.mayCall thread = true)
    : (system.threads thread).pendedOn = none := by
  simp only [System.mayCall, Bool.and_eq_true, Option.isNone_iff_eq_none] at may
  exact may.1

theorem Nested.step {state next : System × Held} {call : Call} (nested : Nested state.1 state.2)
    (lifo : Lifo state call) (stays : StaysNested state call)
    (stepped : recordedStep state call = some next)
    : Nested next.1 next.2 := by
  obtain ⟨system, held⟩ := state
  obtain ⟨after, moved, rfl⟩ := Option.map_eq_some_iff.mp stepped
  cases call with
  | lock thread mutex timeout =>
      simp only [Mutex.step] at moved
      split at moved
      · obtain ⟨⟨locked, result⟩, returned, rfl⟩ := Option.map_eq_some_iff.mp moved
        exact nested.lock (mayCall_running ‹_›) stays returned
      · cases moved
  | unlock thread mutex =>
      simp only [Mutex.step] at moved
      split at moved
      · cases moved
        exact nested.unlock (mayCall_running ‹_›) lifo
      · cases moved
  | timeout thread =>
      simp only [Mutex.step] at moved
      split at moved
      · cases moved
      · split at moved
        · cases moved
        · rename_i found
          cases moved
          exact nested.waitTimeout (List.mem_of_find?_eq_some found)
  | timedOut thread =>
      simp only [Mutex.step] at moved
      split at moved
      · cases moved
      · rename_i mutex waited
        cases moved
        exact nested.lockTimedOut thread (stays mutex waited)

/-- The owner of a mutex is at every moment at least as urgent as every thread that waits for
it, up to the ceiling.
-/
theorem owners_serve_waiters {prio : Nat → Int} {calls : List Call} {state : System × Held}
    (meets
      : RunMeets recordedStep (fun state call => Lifo state call ∧ StaysNested state call)
          (recordedStart prio) calls)
    (ran : run recordedStep (recordedStart prio) calls = some state)
    {mutex owner : Nat} (owns : (state.1.mutexes mutex).owner = some owner)
    {waiter : Waiter} (waits : waiter ∈ (state.1.mutexes mutex).waitQ)
    : state.1.prio owner ≤ max (state.1.prio waiter.thread) priorityCeiling := by
  have nested := run_invariant_of_meets (fun state => Nested state.1 state.2)
    (fun inv condition stepped => inv.step condition.1 condition.2 stepped)
    (Nested.initial prio) meets ran
  exact (nested.orderly mutex).boosted owner owns waiter waits

/-- Priorities 10, 9, 8 and so on. -/
def falling (thread : Nat) : Int :=
  10 - thread

/-- Thread 0 holds two mutexes. Two threads wait for the second one, the more urgent of them
times out, and thread 0 releases it to the other.
-/
def nestedCalls : List Call :=
  [.lock 0 0 kForever, .lock 0 1 kForever, .lock 3 1 ⟨5⟩, .lock 2 1 kForever, .timeout 3,
    .timedOut 3, .lock 1 1 kForever, .unlock 0 1]

theorem nestedCalls_serve_waiters
    : RunMeets recordedStep (fun state call => Lifo state call ∧ StaysNested state call)
        (recordedStart falling) nestedCalls
      ∧ ∃ state,
          run recordedStep (recordedStart falling) nestedCalls = some state
          ∧ (state.1.mutexes 1).owner = some 2
          ∧ ⟨1, kForever⟩ ∈ (state.1.mutexes 1).waitQ
          ∧ state.1.prio 2 ≤ max (state.1.prio 1) priorityCeiling := by
  have meets : RunMeets recordedStep
      (fun state call => Lifo state call ∧ StaysNested state call)
      (recordedStart falling) nestedCalls := by decide
  obtain ⟨state, ran⟩ : ∃ state, run recordedStep (recordedStart falling) nestedCalls = some state :=
    Option.isSome_iff_exists.mp (by decide)
  have out : (run recordedStep (recordedStart falling) nestedCalls).map
      (fun state => ((state.1.mutexes 1).owner, (state.1.mutexes 1).waitQ))
      = some (some 2, [⟨1, kForever⟩]) := by decide
  rw [ran, Option.map_some, Option.some_inj, Prod.mk.injEq] at out
  have waits : ⟨1, kForever⟩ ∈ (state.1.mutexes 1).waitQ := by simp [out.2]
  exact ⟨meets, state, ran, out.1, waits, owners_serve_waiters meets ran out.1 waits⟩

/-- Thread 0 locks two mutexes and is boosted by a thread that waits for the first. It releases
the second one first, as the order asks, and is back at the priority saved with that mutex.
-/
theorem nested_unlock_drops_boost
    : RunMeets recordedStep Lifo (recordedStart falling)
        [.lock 0 0 kForever, .lock 0 1 kForever, .lock 3 0 kForever, .unlock 0 1]
      ∧ ∃ state,
          run recordedStep (recordedStart falling)
            [.lock 0 0 kForever, .lock 0 1 kForever, .lock 3 0 kForever, .unlock 0 1]
            = some state
          ∧ (state.1.mutexes 0).owner = some 0
          ∧ ⟨3, kForever⟩ ∈ (state.1.mutexes 0).waitQ
          ∧ ¬state.1.prio 0 ≤ max (state.1.prio 3) priorityCeiling :=
  ⟨by decide, _, rfl, by decide, by decide, by decide⟩

end Zephyr.Kernel.Mutex
