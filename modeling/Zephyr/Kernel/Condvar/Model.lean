import Zephyr.Kernel.Mutex.Model

/-! The condition variables of `condvar.c`, with the mutex that waiters release and take again.
Interrupts are locked from the release to the wait, and threads change only where they are not.
-/

namespace Zephyr.Kernel.Condvar

open Zephyr.Kernel.Mutex

/-! ### The condition variable -/

/-- Where a thread is in `k_condvar_wait`. -/
inductive Phase where
  | outside
  /-- It has released the mutex and has not yet pended. -/
  | releasing (timeout : KTimeout)
  | pended
  /-- It is ready again and has to lock the mutex. -/
  | woken (ret : Int)
  /-- It has called `k_mutex_lock` and waited for the mutex. -/
  | locking (ret : Int)
  deriving DecidableEq, Repr

/-- A condition variable and the mutex that is used with it, which has the number zero. -/
structure System where
  base : Mutex.System
  waitQ : List Waiter := []
  phase : Nat → Phase := fun _ => .outside
  /-- The thread that runs with interrupts locked. -/
  irqLock : Option Nat := none

def System.mutex (system : System) : KMutex :=
  system.base.mutexes 0

def System.setPhase (system : System) (thread : Nat) (phase : Phase) : System :=
  { system with phase := Function.update system.phase thread phase }

/-- `k_spin_lock`; the key says whether interrupts were unlocked. -/
def kSpinLock (system : System) (self : Nat) : System × Bool :=
  ({ system with irqLock := some self }, system.irqLock.isNone)

/-- `z_reschedule` and `k_spin_unlock`: with the key of an outer lock interrupts stay locked and
no other thread runs.
-/
def zReschedule (system : System) (key : Bool) : System :=
  if key then { system with irqLock := none } else system

/-- `k_mutex_unlock` -/
def mutexUnlock (system : System) (self : Nat) : System :=
  let (system, key) := kSpinLock system self
  zReschedule { system with base := (kMutexUnlock system.base self 0).1 } key

/-- `k_condvar_wait` up to `z_pend_curr`. -/
def kCondvarWait (system : System) (self : Nat) (timeout : KTimeout) : System :=
  (mutexUnlock (kSpinLock system self).1 self).setPhase self (.releasing timeout)

/-- `z_pend_curr` on the wait queue, which swaps to another thread. -/
def zPendCurr (system : System) (self : Nat) (timeout : KTimeout) : System :=
  { system.setPhase self .pended with
    waitQ :=
      zPriqDumbAdd (fun waiter => system.base.prio waiter.thread) ⟨self, timeout⟩ system.waitQ
    irqLock := none }

/-- The rest of `k_condvar_wait`, up to the wait for the mutex. -/
def relock (system : System) (self : Nat) (ret : Int) : Option System :=
  match kMutexLock system.base self 0 kForever with
  | none => none
  | some (base, some _) => some ({ system with base := base }.setPhase self .outside)
  | some (base, none) => some ({ system with base := base }.setPhase self (.locking ret))

/-- `z_unpend_first_thread` and `z_ready_thread` -/
def kCondvarSignal (system : System) : System :=
  match system.waitQ with
  | [] => system
  | waiter :: rest => { system.setPhase waiter.thread (.woken 0) with waitQ := rest }

/-- The loop of `k_condvar_broadcast`. -/
def wakeAll (phase : Nat → Phase) : List Waiter → Nat → (Nat → Phase) × Nat
  | [], woken => (phase, woken)
  | waiter :: rest, woken =>
      wakeAll (Function.update phase waiter.thread (.woken 0)) rest (woken + 1)

def kCondvarBroadcast (system : System) : System × Nat :=
  let (phase, woken) := wakeAll system.phase system.waitQ 0
  ({ system with phase := phase, waitQ := [] }, woken)

/-! ### Interleavings -/

inductive Call where
  | lock (thread : Nat) (timeout : KTimeout)
  | unlock (thread : Nat)
  | lockTimeout (thread : Nat)
  | lockTimedOut (thread : Nat)
  | wait (thread : Nat) (timeout : KTimeout)
  | pend (thread : Nat)
  | waitTimeout (thread : Nat)
  | relock (thread : Nat)
  | waitReturn (thread : Nat)
  | signal (thread : Nat)
  | broadcast (thread : Nat)
  deriving DecidableEq, Repr

/-- A thread makes a call when it runs with interrupts unlocked and is outside of others. -/
def System.mayCall (system : System) (thread : Nat) : Prop :=
  system.irqLock = none
  ∧ system.phase thread = .outside
  ∧ (system.base.threads thread).pendedOn = none
  ∧ (system.base.threads thread).timedOut = none

instance (system : System) (thread : Nat) : Decidable (system.mayCall thread) :=
  inferInstanceAs (Decidable (_ ∧ _ ∧ _ ∧ _))

/-- The waits are made by an owner that has locked the mutex once; a lock that would overflow the
count is not a step.
-/
def step (system : System) : Call → Option System
  | .lock thread timeout =>
      if system.mayCall thread
          ∧ (system.mutex.owner = some thread → system.mutex.lockCount + 1 ≠ 0) then
        (kMutexLock system.base thread 0 timeout).map fun result =>
          { system with base := result.1 }
      else none
  | .unlock thread =>
      if system.mayCall thread then some (mutexUnlock system thread) else none
  | .lockTimeout thread =>
      match system.mutex.waitQ.find? (fun w => w.thread = thread ∧ w.timeout ≠ kForever) with
      | some waiter =>
          if system.irqLock = none then
            some { system with base := Mutex.waitTimeout system.base waiter 0 }
          else none
      | none => none
  | .lockTimedOut thread =>
      if system.irqLock = none ∧ (system.base.threads thread).timedOut = some 0 then
        some { system with base := (kMutexLockTimedOut system.base thread 0).1 }
      else none
  | .wait thread timeout =>
      if system.mayCall thread ∧ system.mutex.owner = some thread ∧ system.mutex.lockCount = 1 then
        some (kCondvarWait system thread timeout)
      else none
  | .pend thread =>
      match system.phase thread with
      | .releasing timeout => some (zPendCurr system thread timeout)
      | _ => none
  | .waitTimeout thread =>
      match system.waitQ.find? (fun w => w.thread = thread ∧ w.timeout ≠ kForever) with
      | some waiter =>
          if system.irqLock = none then
            some { system.setPhase thread (.woken (-eagain)) with
              waitQ := system.waitQ.erase waiter }
          else none
      | none => none
  | .relock thread =>
      match system.phase thread with
      | .woken ret =>
          if system.irqLock = none ∧ (system.base.threads thread).pendedOn = none then
            relock system thread ret
          else none
      | _ => none
  | .waitReturn thread =>
      match system.phase thread with
      | .locking _ =>
          if system.irqLock = none ∧ (system.base.threads thread).pendedOn = none then
            some (system.setPhase thread .outside)
          else none
      | _ => none
  | .signal thread => if system.mayCall thread then some (kCondvarSignal system) else none
  | .broadcast thread =>
      if system.mayCall thread then some (kCondvarBroadcast system).1 else none

def start (prio : Nat → Int) : System where
  base := Mutex.start prio

end Zephyr.Kernel.Condvar
