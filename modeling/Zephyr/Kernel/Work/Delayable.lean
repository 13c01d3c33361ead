import Zephyr.Kernel.Timeout.Delivery
import Zephyr.Kernel.Work.Cancelling

/-! Delayable work items of `work.c` over the timeout queue. An expiry is two steps: the timeout is
dequeued by `sys_clock_announce`, and its callback `work_timeout` takes the work lock later.
-/

namespace Zephyr.Kernel.Work

open Timeout (Clock History)

/-- A `struct _timeout`: one in a delayable work item, or one of the rest of the kernel. -/
inductive Timer where
  | dwork (item : Nat)
  | other (number : Nat)
  deriving DecidableEq, Repr

/-- The items and the timeout queue. `target` is the `queue` of a `struct k_work_delayable`, and
`expired` says that the running callback is a `work_timeout` that has not taken the work lock.
-/
structure Delayables where
  system : System := {}
  clock : Clock Timer Unit := {}
  target : Nat → Option Nat := fun _ => none
  expired : Option Nat := none

def Delayables.isDelayed (delayables : Delayables) (item : Nat) : Bool :=
  (delayables.system.work (.item item)).flags.delayed

def Delayables.setDelayed (delayables : Delayables) (item : Nat) (delayed : Bool) : Delayables :=
  { delayables with
    system :=
      delayables.system.setFlags (.item item) (fun flags => { flags with delayed := delayed }) }

def workTimeout (delayables : Delayables) (item : Nat) : Delayables :=
  if delayables.isDelayed item then
    let delayables := delayables.setDelayed item false
    let queue := delayables.target item
    -- the caller is an interrupt
    { delayables with
      system := (submitToQueueLocked delayables.system none (.item item) queue).1 }
  else delayables

def scheduleForQueueLocked (delayables : Delayables) (caller queue : Option Nat) (item : Nat)
    (delay : KTimeout) (hw : UInt32)
    : Delayables × Int :=
  if delay = kNoWait then
    let (system, ret, _) := submitToQueueLocked delayables.system caller (.item item) queue
    ({ delayables with system := system }, ret)
  else
    let delayables := delayables.setDelayed item true
    ({ delayables with
        target := Function.update delayables.target item queue
        clock := delayables.clock.zAddTimeout (.dwork item) () delay hw },
      1)

def unscheduleLocked (delayables : Delayables) (item : Nat) : Delayables × Bool :=
  if delayables.isDelayed item then
    let delayables := delayables.setDelayed item false
    let (clock, ret) := delayables.clock.zAbortTimeout (.dwork item)
    ({ delayables with clock := clock }, ret = 0)
  else (delayables, false)

/-- `work_busy_get_locked` has no flag but `K_WORK_RUNNING`. -/
def idleOrRunning (work : KWork) : Bool :=
  !(work.flags.delayed || work.flags.queued || work.flags.canceling || work.flags.flushing)

def kWorkScheduleForQueue (delayables : Delayables) (caller queue : Option Nat) (item : Nat)
    (delay : KTimeout) (hw : UInt32)
    : Delayables × Int :=
  if idleOrRunning (delayables.system.work (.item item)) then
    scheduleForQueueLocked delayables caller queue item delay hw
  else (delayables, 0)

def kWorkRescheduleForQueue (delayables : Delayables) (caller queue : Option Nat) (item : Nat)
    (delay : KTimeout) (hw : UInt32)
    : Delayables × Int :=
  let (delayables, _) := unscheduleLocked delayables item
  scheduleForQueueLocked delayables caller queue item delay hw

def cancelDelayableAsyncLocked (delayables : Delayables) (item : Nat) : Delayables × Flags :=
  let (delayables, _) := unscheduleLocked delayables item
  let (system, flags) := cancelAsyncLocked delayables.system (.item item)
  ({ delayables with system := system }, flags)

def kWorkCancelDelayableSync (delayables : Delayables) (item sync : Nat)
    : Delayables × Bool × Bool :=
  let pending := workBusyGetLocked (delayables.system.work (.item item))
  if pending then
    let (delayables, _) := cancelDelayableAsyncLocked delayables item
    let (system, needWait) := cancelSyncLocked delayables.system (.item item) sync
    ({ delayables with system := system }, pending, needWait)
  else (delayables, pending, false)

def kWorkFlushDelayable (delayables : Delayables) (caller : Option Nat) (item sync : Nat)
    : Delayables × Bool :=
  if workBusyGetLocked (delayables.system.work (.item item)) then
    let (delayables, unscheduled) := unscheduleLocked delayables item
    let system :=
      if unscheduled then
        let queue := delayables.target item
        (submitToQueueLocked delayables.system caller (.item item) queue).1
      else delayables.system
    let (system, needFlush) := workFlushLocked system (.item item) sync
    ({ delayables with system := system }, needFlush)
  else (delayables, false)

/-! ### Interleavings -/

inductive DelayableCall where
  | work (call : Call)
  | schedule (caller queue : Option Nat) (item : Nat) (delay : KTimeout) (hw : UInt32)
  | reschedule (caller queue : Option Nat) (item : Nat) (delay : KTimeout) (hw : UInt32)
  | cancelDelayable (item : Nat)
  | cancelDelayableSync (item sync : Nat)
  | flushDelayable (caller : Option Nat) (item sync : Nat)
  | addTimeout (number : Nat) (timeout : KTimeout) (hw : UInt32)
  | abortTimeout (number : Nat)
  | announce (ticks : Int32) (hw : UInt32)
  | workTimeout
  | callbackReturns (hw : UInt32)
  deriving DecidableEq, Repr

/-- The announcement has started the callback of a delayable item, or of another timeout. -/
def Delayables.announced (delayables : Delayables) (clock : Clock Timer Unit) : Delayables :=
  { delayables with
    clock := clock
    expired :=
      match clock.callback with
      | some { node := .dwork item, .. } => some item
      | _ => none }

/-- A step under the work lock or the timeout lock. An announcement goes on when its callback has
returned, and a timeout of the rest of the kernel is not added while it is linked.
-/
def delayableStep (delayables : Delayables) : DelayableCall → Option Delayables
  | .work call =>
      (step delayables.system call).map (fun system => { delayables with system := system })
  | .schedule caller queue item delay hw =>
      some (kWorkScheduleForQueue delayables caller queue item delay hw).1
  | .reschedule caller queue item delay hw =>
      some (kWorkRescheduleForQueue delayables caller queue item delay hw).1
  | .cancelDelayable item => some (cancelDelayableAsyncLocked delayables item).1
  | .cancelDelayableSync item sync =>
      if delayables.system.isFree sync then
        some (kWorkCancelDelayableSync delayables item sync).1
      else none
  | .flushDelayable caller item sync =>
      if delayables.system.isFree sync then
        some (kWorkFlushDelayable delayables caller item sync).1
      else none
  | .addTimeout number timeout hw =>
      (Timeout.step delayables.clock (.addTimeout (.other number) () timeout hw)).map
        (fun clock => { delayables with clock := clock })
  | .abortTimeout number =>
      (Timeout.step delayables.clock (.abortTimeout (.other number))).map
        (fun clock => { delayables with clock := clock })
  | .announce ticks hw =>
      (Timeout.step delayables.clock (.announce ticks hw)).map delayables.announced
  | .workTimeout =>
      delayables.expired.map (fun item =>
        { workTimeout delayables item with expired := none })
  | .callbackReturns hw =>
      if delayables.expired = none then
        (Timeout.step delayables.clock (.callbackReturns hw)).map delayables.announced
      else none

end Zephyr.Kernel.Work
