import Zephyr.Kernel.Base

/-! The mutexes of `mutex.c` with the priorities that their owners inherit.
A lock that waits is two steps: up to the point where the thread pends, and, if the wait timed
out, what it does when it runs again.
-/

namespace Zephyr.Kernel.Mutex

structure Waiter where
  thread : Nat
  timeout : KTimeout
  deriving DecidableEq, Repr

/-- `struct k_mutex`. -/
structure KMutex where
  owner : Option Nat := none
  ownerOrigPrio : Int := 0
  lockCount : UInt32 := 0
  waitQ : List Waiter := []
  deriving DecidableEq, Repr

/-- What a thread's mutex calls read and write of it; `timedOut` is the mutex of a lock whose
wait is over and that has not returned yet.
-/
structure Thread where
  prio : Int
  pendedOn : Option Nat := none
  timedOut : Option Nat := none
  deriving DecidableEq, Repr

structure System where
  mutexes : Nat → KMutex
  threads : Nat → Thread

def System.setMutex (system : System) (mutex : Nat) (value : KMutex) : System :=
  { system with mutexes := Function.update system.mutexes mutex value }

def System.setThread (system : System) (thread : Nat) (value : Thread) : System :=
  { system with threads := Function.update system.threads thread value }

def System.prio (system : System) (thread : Nat) : Int :=
  (system.threads thread).prio

/-- `z_thread_prio_set`; a wait queue that holds the thread is not sorted again. -/
def System.zThreadPrioSet (system : System) (thread : Nat) (prio : Int) : System :=
  system.setThread thread { system.threads thread with prio := prio }

/-! ### Priority inheritance -/

/-- `CONFIG_PRIORITY_CEILING`. -/
def priorityCeiling : Int := -127

def zGetNewPrioWithCeiling (prio : Int) : Int :=
  if prio ≥ priorityCeiling then prio else priorityCeiling

def newPrioForInheritance (target limit : Int) : Int :=
  zGetNewPrioWithCeiling (if target < limit then target else limit)

def adjustOwnerPrio (system : System) (owner : Nat) (newPrio : Int) : System :=
  if system.prio owner ≠ newPrio then system.zThreadPrioSet owner newPrio else system

/-! ### The mutex functions -/

/-- `z_pend_curr` on the wait queue of a mutex. -/
def zPendCurr (system : System) (self mutex : Nat) (timeout : KTimeout) : System :=
  let m := system.mutexes mutex
  (system.setMutex mutex
      { m with
        waitQ := zPriqDumbAdd (fun w => system.prio w.thread) ⟨self, timeout⟩ m.waitQ }).setThread
    self { system.threads self with pendedOn := some mutex }

/-- `z_impl_k_mutex_lock` up to its wait: the result of the call, or `none` when it pends. It is
undefined for a locked mutex without an owner.
-/
def kMutexLock (system : System) (self mutex : Nat) (timeout : KTimeout)
    : Option (System × Option Int) :=
  let m := system.mutexes mutex
  if m.lockCount = 0 ∨ m.owner = some self then
    some (system.setMutex mutex
      { m with
        ownerOrigPrio := if m.lockCount = 0 then system.prio self else m.ownerOrigPrio
        lockCount := m.lockCount + 1
        owner := some self }, some 0)
  else if timeout = kNoWait then some (system, some (-ebusy))
  else
    match m.owner with
    | none => none
    | some owner =>
        let newPrio := newPrioForInheritance (system.prio self) (system.prio owner)
        let system :=
          if newPrio < system.prio owner then adjustOwnerPrio system owner newPrio else system
        some (zPendCurr system self mutex timeout, none)

/-- The rest of `z_impl_k_mutex_lock` after a timeout: it adjusts the owner's priority down. -/
def kMutexLockTimedOut (system : System) (self mutex : Nat) : System × Int :=
  let m := system.mutexes mutex
  let system := system.setThread self { system.threads self with timedOut := none }
  match m.owner with
  | none => (system, -eagain)
  | some owner =>
      let newPrio :=
        match m.waitQ with
        | waiter :: _ => newPrioForInheritance (system.prio waiter.thread) m.ownerOrigPrio
        | [] => m.ownerOrigPrio
      (adjustOwnerPrio system owner newPrio, -eagain)

def kMutexUnlock (system : System) (self mutex : Nat) : System × Int :=
  let m := system.mutexes mutex
  match m.owner with
  | none => (system, -einval)
  | some owner =>
      if owner ≠ self then (system, -eperm)
      else if m.lockCount > 1 then
        (system.setMutex mutex { m with lockCount := m.lockCount - 1 }, 0)
      else
        let system := adjustOwnerPrio system owner m.ownerOrigPrio
        match m.waitQ with
        | newOwner :: rest =>
            ((system.setMutex mutex
                { m with
                  owner := some newOwner.thread
                  ownerOrigPrio := system.prio newOwner.thread
                  waitQ := rest }).setThread newOwner.thread
              { system.threads newOwner.thread with pendedOn := none }, 0)
        | [] => (system.setMutex mutex { m with owner := none, lockCount := 0 }, 0)

/-- The timeout of a pended thread: it leaves the wait queue and becomes ready. -/
def waitTimeout (system : System) (waiter : Waiter) (mutex : Nat) : System :=
  let m := system.mutexes mutex
  (system.setMutex mutex { m with waitQ := m.waitQ.erase waiter }).setThread waiter.thread
    { system.threads waiter.thread with pendedOn := none, timedOut := some mutex }

/-! ### Interleavings -/

inductive Call where
  | lock (thread mutex : Nat) (timeout : KTimeout)
  | unlock (thread mutex : Nat)
  | timeout (thread : Nat)
  | timedOut (thread : Nat)
  deriving DecidableEq, Repr

/-- A thread makes a call when it is not pended and not inside an earlier lock. -/
def System.mayCall (system : System) (thread : Nat) : Bool :=
  (system.threads thread).pendedOn.isNone && (system.threads thread).timedOut.isNone

def step (system : System) : Call → Option System
  | .lock thread mutex timeout =>
      if system.mayCall thread then
        (kMutexLock system thread mutex timeout).map Prod.fst
      else none
  | .unlock thread mutex =>
      if system.mayCall thread then some (kMutexUnlock system thread mutex).1 else none
  | .timeout thread =>
      match (system.threads thread).pendedOn with
      | none => none
      | some mutex =>
          match (system.mutexes mutex).waitQ.find?
              (fun waiter => waiter.thread = thread ∧ waiter.timeout ≠ kForever) with
          | none => none
          | some waiter => some (waitTimeout system waiter mutex)
  | .timedOut thread =>
      match (system.threads thread).timedOut with
      | none => none
      | some mutex => some (kMutexLockTimedOut system thread mutex).1

/-- Every mutex is free and every thread has a priority of its own. -/
def start (prio : Nat → Int) : System where
  mutexes := fun _ => {}
  threads := fun thread => { prio := prio thread }

end Zephyr.Kernel.Mutex
