import Zephyr.Kernel.Waiting
import Zephyr.Library.Run

/-! The semaphore of `sem.c`. -/

namespace Zephyr.Kernel.Sem

open Zephyr.Library Zephyr.Kernel.Waiting

/-- `struct k_sem` -/
structure KSem where
  waitQ : WaitQ Unit
  count : UInt32
  limit : UInt32

/-- A call of `k_sem_take` that has its result. -/
structure Return where
  thread : Nat
  ret : Int
  deriving DecidableEq, Repr

/-- `k_sem_init`; `K_SEM_MAX_LIMIT` is `UINT_MAX`. -/
def kSemInit (prio : Nat → Int) (initialCount limit : UInt32) : Except Int KSem :=
  if limit = 0 ∨ limit > 0xFFFFFFFF ∨ initialCount > limit then .error (-einval)
  else .ok { waitQ := .init prio, count := initialCount, limit := limit }

def kSemGive (sem : KSem) : KSem × List Return :=
  match sem.waitQ.zUnpendFirstThread with
  | (some thread, waitQ) => ({ sem with waitQ := waitQ }, [⟨thread.thread, 0⟩])
  | (none, _) => ({ sem with count := sem.count + if sem.count ≠ sem.limit then 1 else 0 }, [])

def kSemTake (sem : KSem) (thread : Nat) (timeout : KTimeout) : KSem × List Return :=
  if sem.count > 0 then ({ sem with count := sem.count - 1 }, [⟨thread, 0⟩])
  else if timeout = kNoWait then (sem, [⟨thread, -ebusy⟩])
  else ({ sem with waitQ := sem.waitQ.zPendCurr ⟨thread, timeout, ()⟩ }, [])

/-- The loop of `k_sem_reset` takes the first thread until there is none. -/
def kSemReset (sem : KSem) : KSem × List Return :=
  ({ sem with waitQ := { sem.waitQ with waiters := [] }, count := 0 },
    sem.waitQ.waiters.map fun thread => ⟨thread.thread, -eagain⟩)

inductive Call where
  | give
  | take (thread : Nat) (timeout : KTimeout)
  | reset
  | event (event : Event)
  deriving DecidableEq, Repr

/-- The semaphore with what has happened since the last reset: the count then, the gives that the
limit did not absorb, and the calls of `k_sem_take` that got a result.
-/
structure System where
  sem : KSem
  initialCount : Nat
  gives : Nat
  returns : List Return

def System.start (sem : KSem) : System where
  sem := sem
  initialCount := sem.count.toNat
  gives := 0
  returns := []

/-- Nobody waits and the count is at its limit, so that a give has no effect. -/
def KSem.Absorbs (sem : KSem) : Prop :=
  sem.waitQ.waiters = [] ∧ sem.count = sem.limit

instance (sem : KSem) : Decidable sem.Absorbs :=
  inferInstanceAs (Decidable (_ ∧ _))

def step (system : System) : Call → Option System
  | .give =>
      let (sem, returns) := kSemGive system.sem
      some
        { system with
          sem := sem
          gives := if system.sem.Absorbs then system.gives else system.gives + 1
          returns := system.returns ++ returns }
  | .take thread timeout =>
      if system.sem.waitQ.mayCall thread timeout then
        let (sem, returns) := kSemTake system.sem thread timeout
        some { system with sem := sem, returns := system.returns ++ returns }
      else none
  | .reset =>
      let (sem, returns) := kSemReset system.sem
      some { sem := sem, initialCount := 0, gives := 0, returns := returns }
  | .event event =>
      (system.sem.waitQ.event event).map fun (timedOut, waitQ) =>
        { system with
          sem := { system.sem with waitQ := waitQ }
          returns :=
            system.returns
            ++ timedOut.toList.map fun thread => ⟨thread.thread, -eagain⟩ }

/-- The calls that took the semaphore. -/
def taken (returns : List Return) : Nat :=
  returns.countP fun call => call.ret = 0

structure Balanced (limit : UInt32) (system : System) : Prop where
  limited : system.sem.limit = limit
  inLimit : system.sem.count ≤ limit
  waiting : system.sem.waitQ.waiters ≠ [] → system.sem.count = 0
  conserved
    : system.initialCount + system.gives = system.sem.count.toNat + taken system.returns

theorem taken_append (first second : List Return)
    : taken (first ++ second) = taken first + taken second :=
  List.countP_append

theorem taken_map_error {ρ : Type} (threads : List (Waiter ρ)) {ret : Int} (failed : ret ≠ 0)
    : taken (threads.map fun thread => ⟨thread.thread, ret⟩) = 0 := by
  refine List.countP_eq_zero.mpr fun call member => ?_
  obtain ⟨thread, _, rfl⟩ := List.mem_map.mp member
  simpa using failed

theorem kSemGive_waiting {sem : KSem} {thread : Waiter Unit} {rest : List (Waiter Unit)}
    (waiting : sem.waitQ.waiters = thread :: rest)
    : kSemGive sem
      = ({ sem with waitQ := { sem.waitQ with waiters := rest } }, [⟨thread.thread, 0⟩]) := by
  rw [kSemGive, WaitQ.zUnpendFirstThread, waiting]

theorem kSemGive_alone {sem : KSem} (alone : sem.waitQ.waiters = [])
    : kSemGive sem
      = ({ sem with count := sem.count + if sem.count ≠ sem.limit then 1 else 0 }, []) := by
  rw [kSemGive, WaitQ.zUnpendFirstThread, alone]

theorem give_balanced {limit : UInt32} {system next : System} (balanced : Balanced limit system)
    (stepped : step system .give = some next)
    : Balanced limit next := by
  obtain ⟨limited, inLimit, waiting, conserved⟩ := balanced
  simp only [step, Option.some.injEq] at stepped
  subst stepped
  cases isWaiters : system.sem.waitQ.waiters with
  | nil =>
      rw [kSemGive_alone isWaiters]
      by_cases full : system.sem.count = system.sem.limit
      · have absorbs : system.sem.Absorbs := ⟨isWaiters, full⟩
        simp only [full, ne_eq, not_true_eq_false, if_false, absorbs, if_true, List.append_nil]
        refine ⟨limited, ?_, fun pended => absurd isWaiters pended, ?_⟩
        · simpa [full] using inLimit
        · simpa [full] using conserved
      · have absorbs : ¬system.sem.Absorbs := fun absorbs => full absorbs.2
        have below : system.sem.count.toNat < limit.toNat := by
          rw [limited] at full
          have different : system.sem.count.toNat ≠ limit.toNat :=
            fun same => full (UInt32.toNat_inj.mp same)
          have le := UInt32.le_iff_toNat_le.mp inLimit
          omega
        have more : (system.sem.count + 1).toNat = system.sem.count.toNat + 1 := by
          have small := limit.toNat_lt
          rw [UInt32.toNat_add, UInt32.toNat_one]
          omega
        simp only [ne_eq, full, not_false_eq_true, if_true, absorbs, if_false, List.append_nil]
        refine ⟨limited, ?_, fun pended => absurd isWaiters pended, ?_⟩
        · rw [UInt32.le_iff_toNat_le, more]
          exact below
        · dsimp only
          omega
  | cons thread rest =>
      have pended : system.sem.waitQ.waiters ≠ [] := by
        rw [isWaiters]
        exact List.cons_ne_nil _ _
      have absorbs : ¬system.sem.Absorbs := fun absorbs => pended absorbs.1
      rw [kSemGive_waiting isWaiters]
      simp only [absorbs, if_false]
      refine ⟨limited, inLimit, fun _ => waiting pended, ?_⟩
      have one : taken [⟨thread.thread, 0⟩] = 1 := rfl
      rw [taken_append, one]
      dsimp only
      omega

theorem take_balanced {limit : UInt32} {system next : System} {thread : Nat} {timeout : KTimeout}
    (balanced : Balanced limit system)
    (stepped : step system (.take thread timeout) = some next)
    : Balanced limit next := by
  obtain ⟨limited, inLimit, waiting, conserved⟩ := balanced
  simp only [step] at stepped
  split at stepped
  · rw [← Option.some.inj stepped]
    simp only [kSemTake]
    by_cases available : system.sem.count > 0
    · have positive := UInt32.lt_iff_toNat_lt.mp available
      have fewer : (system.sem.count - 1).toNat = system.sem.count.toNat - 1 := by
        have one : (1 : UInt32) ≤ system.sem.count := UInt32.le_iff_toNat_le.mpr positive
        rw [UInt32.toNat_sub_of_le _ _ one]
        rfl
      simp only [available, if_true]
      refine ⟨limited, ?_, ?_, ?_⟩
      · have le := UInt32.le_iff_toNat_le.mp inLimit
        rw [UInt32.le_iff_toNat_le, fewer]
        omega
      · intro pended
        have none := waiting pended
        rw [none] at positive
        exact absurd positive (by decide)
      · have one : taken [⟨thread, 0⟩] = 1 := rfl
        rw [UInt32.toNat_zero] at positive
        rw [taken_append, fewer, one]
        dsimp only
        omega
    · have none : system.sem.count = 0 := by
        rw [← UInt32.toNat_inj, UInt32.toNat_zero]
        have small := mt UInt32.lt_iff_toNat_lt.mpr available
        rw [UInt32.toNat_zero] at small
        omega
      simp only [available, if_false]
      split
      · refine ⟨limited, inLimit, waiting, ?_⟩
        rw [taken_append]
        exact conserved
      · refine ⟨limited, inLimit, fun _ => none, ?_⟩
        rw [List.append_nil]
        exact conserved
  · exact nomatch stepped

theorem event_balanced {limit : UInt32} {system next : System} {event : Event}
    (balanced : Balanced limit system) (stepped : step system (.event event) = some next)
    : Balanced limit next := by
  obtain ⟨limited, inLimit, waiting, conserved⟩ := balanced
  obtain ⟨⟨timedOut, waitQ⟩, happened, rfl⟩ := Option.map_eq_some_iff.mp stepped
  refine ⟨limited, inLimit, ?_, ?_⟩
  · intro pended
    refine waiting fun nobody => pended ?_
    exact WaitQ.event_eq_nil happened nobody
  · rw [taken_append, taken_map_error _ (by decide)]
    exact conserved

theorem step_balanced {limit : UInt32} {system next : System} {call : Call}
    (balanced : Balanced limit system) (stepped : step system call = some next)
    : Balanced limit next := by
  cases call with
  | give => exact give_balanced balanced stepped
  | take thread timeout => exact take_balanced balanced stepped
  | reset =>
      rw [← Option.some.inj stepped]
      refine ⟨balanced.limited, UInt32.zero_le, fun _ => rfl, ?_⟩
      simp only [taken_map_error _ (show -eagain ≠ 0 by decide), UInt32.toNat_zero]
  | event event => exact event_balanced balanced stepped

theorem start_balanced {prio : Nat → Int} {initialCount limit : UInt32} {sem : KSem}
    (initialised : kSemInit prio initialCount limit = .ok sem)
    : Balanced limit (.start sem) := by
  unfold kSemInit at initialised
  split at initialised
  · exact nomatch initialised
  · rename_i valid
    rw [← Except.ok.inj initialised]
    refine ⟨rfl, ?_, fun pended => absurd rfl pended, rfl⟩
    exact UInt32.not_lt.mp fun more => valid (.inr (.inr more))

/-- In every interleaving the count stays within the limit, threads wait only at a count of zero,
a reset ends every wait with `-EAGAIN`, and what was given since the last one is in the count or
was taken.
-/
theorem sem_conserves {prio : Nat → Int} {initialCount limit : UInt32} {sem : KSem}
    {calls : List Call} {final : System}
    (initialised : kSemInit prio initialCount limit = .ok sem)
    (ran : run step (.start sem) calls = some final)
    : final.sem.count ≤ limit
      ∧ (final.sem.waitQ.waiters ≠ [] → final.sem.count = 0)
      ∧ (∃ next,
          step final .reset = some next
          ∧ next.sem.waitQ.waiters = []
          ∧ next.returns = final.sem.waitQ.waiters.map fun thread => ⟨thread.thread, -eagain⟩)
      ∧ final.initialCount + final.gives = final.sem.count.toNat + taken final.returns := by
  have balanced : Balanced limit final :=
    run_invariant (Balanced limit) step_balanced (start_balanced initialised) ran
  exact ⟨balanced.inLimit, balanced.waiting, ⟨_, rfl, rfl, rfl⟩, balanced.conserved⟩

def smallCalls : List Call :=
  [.take 1 kNoWait, .take 2 kForever, .take 3 ⟨10⟩, .event (.expire 3), .give,
    .event .threadTimeout, .give, .give]

/-- The first give is handed over while the handler of the other wait is still to run; the last
one is absorbed.
-/
theorem smallCalls_conserve
    : ∃ sem final,
        kSemInit (fun _ => 0) 1 1 = .ok sem
        ∧ run step (.start sem) smallCalls = some final
        ∧ final.gives = 2
        ∧ final.returns = [⟨1, 0⟩, ⟨2, 0⟩, ⟨3, -eagain⟩]
        ∧ final.initialCount + final.gives = final.sem.count.toNat + taken final.returns := by
  refine ⟨⟨.init fun _ => 0, 1, 1⟩, _, rfl, rfl, by decide, by decide, ?_⟩
  have initialised : kSemInit (fun _ => 0) 1 1 = .ok ⟨.init fun _ => 0, 1, 1⟩ := rfl
  exact (sem_conserves initialised (show run step _ smallCalls = some _ from rfl)).2.2.2

end Zephyr.Kernel.Sem
