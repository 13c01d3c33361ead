import Zephyr.Kernel.Base

/-! The work items and work queues of `work.c`. Each call is what it does under the work lock; a
work queue thread takes the lock once before and once after a handler runs, which makes two
steps. It may look for work at any time, so its sleeping and waking is left out.
-/

namespace Zephyr.Kernel.Work

def enodev : Int := 19

def ealready : Int := 120

/-- A `struct k_work`: an item of the users, or the one in the flusher of a `k_work_sync`. -/
inductive WorkId where
  | item (number : Nat)
  | flusher (sync : Nat)
  deriving DecidableEq, Repr

structure Flags where
  running : Bool := false
  canceling : Bool := false
  queued : Bool := false
  delayed : Bool := false
  flushing : Bool := false
  deriving DecidableEq, Repr

structure KWork where
  queue : Option Nat := none
  flags : Flags := {}
  deriving DecidableEq, Repr

/-- `struct k_work_q` with the work whose handler its thread runs. -/
structure KWorkQ where
  pending : List WorkId := []
  started : Bool := false
  busy : Bool := false
  drain : Bool := false
  plugged : Bool := false
  noYield : Bool := false
  handling : Option WorkId := none
  deriving DecidableEq, Repr

/-- All items and queues, the list of pending cancels, and the semaphores of the `k_work_sync`
objects that have been given.
-/
structure System where
  work : WorkId → KWork := fun _ => {}
  queue : Nat → KWorkQ := fun _ => {}
  pendingCancels : List (Nat × WorkId) := []
  given : Nat → Bool := fun _ => false

namespace System

def setFlags (system : System) (work : WorkId) (change : Flags → Flags) : System :=
  { system with
    work :=
      Function.update system.work work
        { system.work work with flags := change (system.work work).flags } }

def setQueue (system : System) (queue : Nat) (change : KWorkQ → KWorkQ) : System :=
  { system with queue := Function.update system.queue queue (change (system.queue queue)) }

end System

/-! ### Flushing and cancelling -/

/-- `work_busy_get_locked` is not 0: a flag of `K_WORK_MASK` is set. -/
def workBusyGetLocked (work : KWork) : Bool :=
  work.flags.delayed || work.flags.queued || work.flags.running || work.flags.canceling
    || work.flags.flushing

def initFlusher (system : System) (sync : Nat) : System :=
  { system with
    work :=
      Function.update system.work (.flusher sync) { queue := none, flags := { flushing := true } }
    given := Function.update system.given sync false }

def initWorkCancel (system : System) (canceller : Nat) (work : WorkId) : System :=
  { system with
    pendingCancels := system.pendingCancels ++ [(canceller, work)]
    given := Function.update system.given canceller false }

def finalizeFlushLocked (system : System) (work : WorkId) : System :=
  match work with
  | .flusher sync =>
      let system := system.setFlags work (fun flags => { flags with flushing := false })
      { system with given := Function.update system.given sync true }
  | .item _ => system.setFlags work (fun flags => { flags with flushing := false })

/-- Only the first record for the item is removed and released. -/
def finalizeCancelLocked (system : System) (work : WorkId) : System :=
  let system := system.setFlags work (fun flags => { flags with canceling := false })
  match system.pendingCancels.find? (fun record => record.2 = work) with
  | some record =>
      { system with
        pendingCancels := system.pendingCancels.erase record
        given := Function.update system.given record.1 true }
  | none => system

def insertBehind (work flusher : WorkId) : List WorkId → List WorkId
  | [] => []
  | found :: rest =>
      if found = work then found :: flusher :: rest
      else found :: insertBehind work flusher rest

def queueFlusherLocked (system : System) (queue : Nat) (work : WorkId) (sync : Nat) : System :=
  let inList := work ∈ (system.queue queue).pending
  let system := initFlusher system sync
  system.setQueue queue (fun q =>
    { q with
      pending :=
        if inList then insertBehind work (.flusher sync) q.pending
        else .flusher sync :: q.pending })

/-- An item that is not bound to a queue is not queued, so `queue` is not dereferenced then. -/
def queueRemoveLocked (system : System) (queue : Option Nat) (work : WorkId) : System :=
  if (system.work work).flags.queued then
    let system := system.setFlags work (fun flags => { flags with queued := false })
    match queue with
    | some queue => system.setQueue queue (fun q => { q with pending := q.pending.erase work })
    | none => system
  else system

def workFlushLocked (system : System) (work : WorkId) (sync : Nat) : System × Bool :=
  let needFlush := (system.work work).flags.queued || (system.work work).flags.running
  match needFlush, (system.work work).queue with
  | true, some queue => (queueFlusherLocked system queue work sync, true)
  | _, _ => (system, needFlush)

def cancelAsyncLocked (system : System) (work : WorkId) : System × Flags :=
  let system :=
    if (system.work work).flags.canceling then system
    else queueRemoveLocked system (system.work work).queue work
  let system :=
    if workBusyGetLocked (system.work work) then
      system.setFlags work (fun flags => { flags with canceling := true })
    else system
  (system, (system.work work).flags)

def cancelSyncLocked (system : System) (work : WorkId) (canceller : Nat) : System × Bool :=
  if (system.work work).flags.canceling then (initWorkCancel system canceller work, true)
  else (system, false)

def kWorkCancelSync (system : System) (work : WorkId) (sync : Nat) : System × Bool × Bool :=
  let pending := workBusyGetLocked (system.work work)
  if pending then
    let (system, needWait) := cancelSyncLocked (cancelAsyncLocked system work).1 work sync
    (system, pending, needWait)
  else (system, pending, false)

/-! ### Submitting -/

/-- `queue_submit_locked`; `caller` is the queue whose thread makes the call. -/
def queueSubmitLocked (system : System) (caller : Option Nat) (queue : Option Nat) (work : WorkId)
    : System × Int :=
  match queue with
  | none => (system, -einval)
  | some queue =>
      let chained : Bool := caller = some queue
      let draining := (system.queue queue).drain
      let plugged := (system.queue queue).plugged
      if !(system.queue queue).started then (system, -enodev)
      else if draining && !chained then (system, -ebusy)
      else if plugged && !draining then (system, -ebusy)
      else (system.setQueue queue (fun q => { q with pending := q.pending ++ [work] }), 1)

/-- `submit_to_queue_locked`, with the queue that the item was submitted to. -/
def submitToQueueLocked (system : System) (caller : Option Nat) (work : WorkId)
    (queue : Option Nat)
    : System × Int × Option Nat :=
  if (system.work work).flags.canceling then (system, -ebusy, none)
  else if !(system.work work).flags.queued then
    let queue := queue.orElse (fun _ => (system.work work).queue)
    -- a running item stays on the queue that runs it
    let running := (system.work work).flags.running
    let queue := if running then (system.work work).queue else queue
    let (system, rc) := queueSubmitLocked system caller queue work
    if rc < 0 then (system, rc, none)
    else
      let system := system.setFlags work (fun flags => { flags with queued := true })
      ({ system with
          work := Function.update system.work work { system.work work with queue := queue } },
        if running then 2 else 1, queue)
  else (system, 0, none)

/-! ### Work queue threads -/

/-- `work_queue_main` up to the handler: the first work is taken, or a drain is completed. -/
def workQueueTake (system : System) (queue : Nat) : System :=
  match (system.queue queue).pending with
  | work :: rest =>
      let system :=
        system.setQueue queue
          (fun q => { q with pending := rest, busy := true, handling := some work })
      system.setFlags work (fun flags => { flags with running := true, queued := false })
  | [] => system.setQueue queue (fun q => { q with drain := false })

/-- `work_queue_main` behind the handler of `work`. -/
def workQueueComplete (system : System) (queue : Nat) (work : WorkId) : System :=
  let system := system.setFlags work (fun flags => { flags with running := false })
  let system :=
    if (system.work work).flags.flushing then finalizeFlushLocked system work else system
  let system :=
    if (system.work work).flags.canceling then finalizeCancelLocked system work else system
  system.setQueue queue (fun q => { q with busy := false, handling := none })

def kWorkQueueStart (system : System) (queue : Nat) (noYield : Bool) : System :=
  system.setQueue queue (fun q =>
    { pending := [], started := true, noYield := noYield, handling := q.handling })

def kWorkQueueDrain (system : System) (queue : Nat) (plug : Bool) : System :=
  let q := system.queue queue
  if q.busy || q.drain || plug || !q.pending.isEmpty then
    system.setQueue queue (fun q => { q with drain := true, plugged := q.plugged || plug })
  else system

def kWorkQueueUnplug (system : System) (queue : Nat) : System × Int :=
  (system.setQueue queue (fun q => { q with plugged := false }),
    if (system.queue queue).plugged then 0 else -ealready)

/-! ### Interleavings -/

inductive Call where
  | submit (caller : Option Nat) (queue : Option Nat) (item : Nat)
  | cancel (item : Nat)
  | cancelSync (item : Nat) (sync : Nat)
  | flush (item : Nat) (sync : Nat)
  | take (queue : Nat)
  | complete (queue : Nat)
  | start (queue : Nat) (noYield : Bool)
  | drain (queue : Nat) (plug : Bool)
  | unplug (queue : Nat)
  deriving DecidableEq, Repr

/-- A `k_work_sync` is free while neither its flusher nor its canceller is in use. -/
def System.isFree (system : System) (sync : Nat) : Bool :=
  !(system.work (.flusher sync)).flags.flushing
    && system.pendingCancels.all (fun record => record.1 ≠ sync)

/-- A lock-protected step. Only a started queue has a thread, a thread takes work when it runs no
handler, a queue is started once, and a `k_work_sync` in use is not used again.
-/
def step (system : System) : Call → Option System
  | .submit caller queue item => some (submitToQueueLocked system caller (.item item) queue).1
  | .cancel item => some (cancelAsyncLocked system (.item item)).1
  | .cancelSync item sync =>
      if system.isFree sync then some (kWorkCancelSync system (.item item) sync).1 else none
  | .flush item sync =>
      if system.isFree sync then some (workFlushLocked system (.item item) sync).1 else none
  | .take queue =>
      if (system.queue queue).started ∧ (system.queue queue).handling = none then
        some (workQueueTake system queue)
      else none
  | .complete queue =>
      match (system.queue queue).handling with
      | some work => some (workQueueComplete system queue work)
      | none => none
  | .start queue noYield =>
      if (system.queue queue).started then none else some (kWorkQueueStart system queue noYield)
  | .drain queue plug => some (kWorkQueueDrain system queue plug)
  | .unplug queue => some (kWorkQueueUnplug system queue).1

end Zephyr.Kernel.Work
