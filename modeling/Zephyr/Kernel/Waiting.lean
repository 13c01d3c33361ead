import Zephyr.Kernel.Base

/-! The wait queue of one kernel object, with the steps that other parts of the kernel take on it.
An object's function runs under a lock, up to the point where it returns or pends. The clock
interrupt takes an expired timeout off its list before it calls the handler, and interrupts of a
higher priority may come in between.
-/

namespace Zephyr.Kernel.Waiting

open Zephyr.Library

/-- A thread pended on the object; `request` is what its call keeps for the time it waits. -/
structure Waiter (ρ : Type) where
  thread : Nat
  timeout : KTimeout
  request : ρ
  deriving DecidableEq, Repr

/-- The pended threads, the threads' priorities, and the thread whose timeout
`sys_clock_announce` has removed without having called its handler yet.
-/
structure WaitQ (ρ : Type) where
  prio : Nat → Int
  waiters : List (Waiter ρ)
  firing : Option Nat

variable {ρ : Type}

def WaitQ.init (prio : Nat → Int) : WaitQ ρ where
  prio := prio
  waiters := []
  firing := none

/-- A thread runs only when it is not pended and no interrupt is active; an interrupt makes calls
that do not wait.
-/
def WaitQ.mayCall (waitQ : WaitQ ρ) (thread : Nat) (timeout : KTimeout) : Bool :=
  timeout = kNoWait
  || waitQ.firing.isNone && waitQ.waiters.all (fun waiter => waiter.thread ≠ thread)

def WaitQ.zPendCurr (waitQ : WaitQ ρ) (self : Waiter ρ) : WaitQ ρ :=
  { waitQ with
    waiters := zPriqDumbAdd (fun waiter => waitQ.prio waiter.thread) self waitQ.waiters }

def WaitQ.zUnpendFirstThread (waitQ : WaitQ ρ) : Option (Waiter ρ) × WaitQ ρ :=
  match waitQ.waiters with
  | [] => (none, waitQ)
  | thread :: rest => (some thread, { waitQ with waiters := rest })

/-- A step of the clock, or of `k_thread_priority_set`. -/
inductive Event where
  | expire (thread : Nat)
  | threadTimeout
  | prioSet (thread : Nat) (prio : Int)
  deriving DecidableEq, Repr

/-- `z_thread_timeout` wakes the thread if nothing else has; the waiter given back is the one whose
wait has timed out.
-/
def WaitQ.event (waitQ : WaitQ ρ) : Event → Option (Option (Waiter ρ) × WaitQ ρ)
  | .expire thread =>
      if waitQ.firing = none
          ∧ waitQ.waiters.any fun waiter => waiter.thread = thread && waiter.timeout ≠ kForever
      then some (none, { waitQ with firing := some thread })
      else none
  | .threadTimeout =>
      waitQ.firing.map fun thread =>
        (waitQ.waiters.find? fun waiter => waiter.thread = thread,
          { waitQ with
            waiters := waitQ.waiters.eraseP fun waiter => waiter.thread = thread
            firing := none })
  | .prioSet thread prio =>
      some (none, { waitQ with prio := Function.update waitQ.prio thread prio })

theorem WaitQ.mem_zPendCurr {waitQ : WaitQ ρ} {self waiter : Waiter ρ}
    : waiter ∈ (waitQ.zPendCurr self).waiters ↔ waiter = self ∨ waiter ∈ waitQ.waiters := by
  rw [zPendCurr, zPriqDumbAdd_eq_stableInsert, mem_stableInsert]

theorem WaitQ.event_sublist {waitQ next : WaitQ ρ} {event : Event} {timedOut : Option (Waiter ρ)}
    (stepped : waitQ.event event = some (timedOut, next))
    : next.waiters.Sublist waitQ.waiters := by
  cases event with
  | expire thread =>
      simp only [WaitQ.event] at stepped
      split at stepped
      · obtain ⟨_, rfl⟩ := Prod.mk.inj (Option.some.inj stepped)
        exact List.Sublist.refl _
      · exact nomatch stepped
  | threadTimeout =>
      obtain ⟨thread, _, isNext⟩ := Option.map_eq_some_iff.mp stepped
      obtain ⟨_, rfl⟩ := Prod.mk.inj isNext
      exact List.eraseP_sublist
  | prioSet thread prio =>
      obtain ⟨_, rfl⟩ := Prod.mk.inj (Option.some.inj stepped)
      exact List.Sublist.refl _

theorem WaitQ.event_eq_nil {waitQ next : WaitQ ρ} {event : Event} {timedOut : Option (Waiter ρ)}
    (stepped : waitQ.event event = some (timedOut, next)) (nobody : waitQ.waiters = [])
    : next.waiters = [] := by
  have fewer := event_sublist stepped
  rw [nobody] at fewer
  exact List.sublist_nil.mp fewer

end Zephyr.Kernel.Waiting
