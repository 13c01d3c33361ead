import Mathlib
import Zephyr.Library.Run

/-! Runtime power management of devices, after `device_runtime.c` and `device.c`. What a function
does between taking and giving the semaphore of the device is one definition. Results are given
without their sign, so 0 is success.
-/

namespace Zephyr.Pm

def ealready : Nat := 120

inductive PmDeviceState where
  | active
  | suspended
  | suspending
  | off
  deriving DecidableEq, Repr

/-! ### The work item -/

/-- The flags of the delayable work item of a device. -/
structure Work where
  delayed : Bool := false
  queued : Bool := false
  running : Bool := false
  canceling : Bool := false
  deriving DecidableEq, Repr

/-- The handler has not been started for the last time it was scheduled. -/
def Work.pending (work : Work) : Bool :=
  work.delayed || work.queued

/-- `k_work_schedule`, at once or with a delay: for an item that is idle or running only. -/
def Work.schedule (work : Work) (noWait : Bool) : Work :=
  if work.delayed || work.queued || work.canceling then work
  else if noWait then { work with queued := true }
  else { work with delayed := true }

/-- The timeout of a delayed item. It is not submitted while it is being cancelled. -/
def Work.expire (work : Work) : Work :=
  if work.canceling then { work with delayed := false }
  else { work with delayed := false, queued := true }

/-- `k_work_cancel_delayable`: whether the item is running, and what becomes of it. -/
def Work.cancelDelayable (work : Work) : Bool × Work :=
  let dequeued := { work with delayed := false, queued := work.queued && work.canceling }
  (work.running,
    { dequeued with canceling := work.canceling || dequeued.running || dequeued.queued })

/-- The work queue starts the handler. -/
def Work.start (work : Work) : Work :=
  { work with queued := false, running := true }

/-- The handler has returned. -/
def Work.finish (work : Work) : Work :=
  { work with running := false, canceling := false }

@[simp]
theorem Work.schedule_running {work : Work} {noWait : Bool}
    : (work.schedule noWait).running = work.running := by
  unfold Work.schedule
  repeat' split
  all_goals rfl

@[simp]
theorem Work.schedule_canceling {work : Work} {noWait : Bool}
    : (work.schedule noWait).canceling = work.canceling := by
  unfold Work.schedule
  repeat' split
  all_goals rfl

theorem Work.cancelDelayable_idle {work : Work} (idle : work.running = false)
    (canceling : work.canceling = true → work.running = true)
    : work.cancelDelayable = (false, {}) := by
  rcases work with ⟨delayed, queued, running, canceling'⟩
  cases running <;> cases canceling' <;> simp_all [Work.cancelDelayable]

theorem Work.cancelDelayable_running {work : Work} (isRunning : work.running = true)
    : work.cancelDelayable.1 = true ∧ work.cancelDelayable.2.running = true := by
  simp [Work.cancelDelayable, isRunning]

theorem Work.cancelDelayable_pending {work : Work}
    (isPending : work.cancelDelayable.2.pending = true)
    : work.pending = true ∧ work.canceling = true := by
  simp only [Work.cancelDelayable, Work.pending, Bool.false_or, Bool.and_eq_true] at isPending
  simp [Work.pending, isPending]

theorem Work.schedule_pending {work : Work} {noWait : Bool} (idle : ¬ work.pending = true)
    (isPending : (work.schedule noWait).pending = true)
    : (work.schedule noWait).canceling = false
      ∧ ¬ ((work.schedule noWait).delayed = true ∧ (work.schedule noWait).queued = true) := by
  rcases work with ⟨delayed, queued, running, canceling⟩
  cases delayed <;> cases queued <;> cases canceling <;> cases noWait <;>
    simp_all [Work.schedule, Work.pending]

/-! ### A device -/

/-- `struct pm_device` with the flags in use. `event` is whether one of the two events is set. -/
structure PmDevice where
  usage : Nat := 0
  state : PmDeviceState := .suspended
  work : Work := {}
  event : Bool := false
  runtimeEnabled : Bool := true
  isrSafe : Bool := false
  pdClaimed : Bool := false
  turnOnFailed : Bool := false
  deriving DecidableEq, Repr

/-- The end of `pm_device_runtime_get`, with the result of the action if it is called. -/
def getResume (resume : Nat) (dev : PmDevice) : Nat × PmDevice :=
  if dev.usage > 1 then (0, dev)
  else if resume ≠ 0 then
    (resume, { dev with usage := if dev.usage = 0 then 2 ^ 32 - 1 else dev.usage - 1 })
  else (0, { dev with state := .active })

/-- `pm_device_runtime_get` each time it has the semaphore again; `none` is that it waits for the
end of a suspend, without the semaphore.
-/
def getAgain (resume : Nat) (dev : PmDevice) : Option Nat × PmDevice :=
  if dev.state = .suspending then (none, { dev with event := false })
  else
    let (ret, dev) := getResume resume dev
    (some ret, dev)

/-- `pm_device_runtime_get` from where the domain has been claimed. -/
def getClaimed (resume : Nat) (dev : PmDevice) : Option Nat × PmDevice :=
  let dev := { dev with usage := (dev.usage + 1) % 2 ^ 32 }
  if dev.state = .suspending then
    let (running, work) := dev.work.cancelDelayable
    let dev := { dev with work := work }
    if !running then (some 0, { dev with state := .active }) else getAgain resume dev
  else getAgain resume dev

/-- How `runtime_suspend` is to suspend: with the result of the action, or by the work item. -/
inductive Suspend where
  | now (result : Nat)
  | later (noWait : Bool)
  deriving DecidableEq, Repr

/-- `runtime_suspend` of a device with runtime power management. -/
def suspendLocked (suspend : Suspend) (dev : PmDevice) : Nat × PmDevice :=
  if dev.usage = 0 then (ealready, dev)
  else
    let released := { dev with usage := dev.usage - 1 }
    if released.usage > 0 then (0, released)
    else
      match suspend with
      | .later noWait =>
          (0, { released with state := .suspending, work := dev.work.schedule noWait })
      | .now result => if result ≠ 0 then (result, dev) else (0, { released with state := .suspended })

/-- `runtime_suspend_work` with the semaphore, behind its action. -/
def workLocked (suspend : Nat) (dev : PmDevice) : PmDevice :=
  if suspend ≠ 0 then
    { dev with usage := (dev.usage + 1) % 2 ^ 32, state := .active, event := true }
  else { dev with state := .suspended, event := true }

end Zephyr.Pm

/-! Threads that use a device without a power domain, whose actions all succeed. Each call is one
section with the semaphore of the device, or one step of the work queue or of `k_event_wait`.
-/

namespace Zephyr.Pm

open Zephyr.Library

variable {Thread : Type}

/-- Where a thread is that waits in `pm_device_runtime_get`: about to call `k_event_wait`, in it,
or about to take the semaphore again.
-/
inductive Phase where
  | unlocked
  | pended
  | woken
  deriving DecidableEq, Repr

/-- The part of `runtime_suspend_work` that the work queue is in. -/
inductive Handler where
  | suspending
  | finishing
  deriving DecidableEq, Repr

/-- The device, the handler if it is running, the threads that wait for a suspend, and for each
`pm_device_runtime_get` that has returned 0 and was not put the thread that called it.
-/
structure Users (Thread : Type) where
  dev : PmDevice := {}
  handler : Option Handler := none
  waiters : List (Thread × Phase) := []
  holders : List Thread := []

inductive UserCall (Thread : Type) where
  | get (thread : Thread)
  | wait (thread : Thread)
  | again (thread : Thread)
  | put (thread : Thread)
  | putAsync (thread : Thread) (noWait : Bool)
  | expire
  | startWork
  | lockWork
  | finishWork

def Users.isWaiting [DecidableEq Thread] (users : Users Thread) (thread : Thread) : Bool :=
  users.waiters.any (fun waiter => waiter.1 = thread)

/-- What a get has come to: it has returned, or the thread waits. -/
def Users.got (users : Users Thread) (thread : Thread) : Option Nat × PmDevice → Users Thread
  | (none, dev) => { users with dev := dev, waiters := (thread, .unlocked) :: users.waiters }
  | (some 0, dev) => { users with dev := dev, holders := thread :: users.holders }
  | (some _, dev) => { users with dev := dev }

def Users.put [DecidableEq Thread] (users : Users Thread) (thread : Thread) : Nat × PmDevice → Users Thread
  | (0, dev) => { users with dev := dev, holders := users.holders.erase thread }
  | (_, dev) => { users with dev := dev }

/-- `k_event_set` wakes every thread in `k_event_wait`. -/
def wakeAll (waiters : List (Thread × Phase)) : List (Thread × Phase) :=
  waiters.map fun waiter => (waiter.1, if waiter.2 = .pended then .woken else waiter.2)

def userStep [DecidableEq Thread] (users : Users Thread)
    : UserCall Thread → Option (Users Thread)
  | .get thread =>
      if users.isWaiting thread then none else some (users.got thread (getClaimed 0 users.dev))
  | .wait thread =>
      if (thread, .unlocked) ∈ users.waiters then
        let phase := if users.dev.event then Phase.woken else .pended
        some { users with waiters := (thread, phase) :: users.waiters.erase (thread, .unlocked) }
      else none
  | .again thread =>
      if (thread, .woken) ∈ users.waiters then
        let rest := { users with waiters := users.waiters.erase (thread, .woken) }
        some (rest.got thread (getAgain 0 users.dev))
      else none
  | .put thread =>
      if users.isWaiting thread then none
      else some (users.put thread (suspendLocked (.now 0) users.dev))
  | .putAsync thread noWait =>
      if users.isWaiting thread then none
      else some (users.put thread (suspendLocked (.later noWait) users.dev))
  | .expire =>
      if users.dev.work.delayed then
        some { users with dev := { users.dev with work := users.dev.work.expire } }
      else none
  | .startWork =>
      if users.dev.work.queued ∧ users.handler = none then
        some
          { users with
            handler := some .suspending
            dev := { users.dev with work := users.dev.work.start } }
      else none
  | .lockWork =>
      if users.handler = some .suspending then
        some
          { users with
            handler := some .finishing
            dev := workLocked 0 users.dev
            waiters := wakeAll users.waiters }
      else none
  | .finishWork =>
      if users.handler = some .finishing then
        some
          { users with
            handler := none
            dev := { users.dev with work := users.dev.work.finish } }
      else none

/-- A put is that of a thread that has got the device, and the count has room for another get. -/
def Matched (users : Users Thread) : UserCall Thread → Prop
  | .get _ => users.dev.usage + 1 < 2 ^ 32
  | .put thread | .putAsync thread _ => thread ∈ users.holders
  | _ => True

/-- A get finds the device suspended only when no other is waiting. -/
def Alone (users : Users Thread) : UserCall Thread → Prop
  | .get _ => users.dev.state = .suspended → users.waiters = []
  | .again thread => users.dev.state = .suspended → users.waiters = [(thread, .woken)]
  | _ => True

instance [DecidableEq Thread] (users : Users Thread)
    : (call : UserCall Thread) → Decidable (Matched users call)
  | .get _ => inferInstanceAs (Decidable (_ < _))
  | .put thread | .putAsync thread _ => inferInstanceAs (Decidable (thread ∈ users.holders))
  | .wait _ | .again _ | .expire | .startWork | .lockWork | .finishWork => .isTrue trivial

instance [DecidableEq Thread] (users : Users Thread)
    : (call : UserCall Thread) → Decidable (Alone users call)
  | .get _ => inferInstanceAs (Decidable (users.dev.state = .suspended → users.waiters = []))
  | .again thread =>
      inferInstanceAs
        (Decidable (users.dev.state = .suspended → users.waiters = [(thread, .woken)]))
  | .wait _ | .put _ | .putAsync _ _ | .expire | .startWork | .lockWork | .finishWork =>
      .isTrue trivial

/-- The device is active while a thread has it. -/
def Users.Active (users : Users Thread) : Prop :=
  users.holders ≠ [] → users.dev.state = .active

/-- What every call keeps. The work item is there for a suspend only. -/
structure Users.Sound (users : Users Thread) : Prop where
  usage : users.dev.usage = users.holders.length + users.waiters.length
  range : users.dev.usage < 2 ^ 32
  active : users.Active
  on : users.dev.state ≠ .off
  running : users.dev.work.running = users.handler.isSome
  canceling : users.dev.work.canceling = true → users.dev.work.running = true
  suspending
    : users.dev.work.pending = true ∨ users.handler = some .suspending
      → users.dev.state = .suspending
  pending
    : users.dev.work.pending = true
      → users.dev.work.canceling = false
        ∧ users.handler ≠ some .suspending
        ∧ ¬ (users.dev.work.delayed = true ∧ users.dev.work.queued = true)

end Zephyr.Pm
