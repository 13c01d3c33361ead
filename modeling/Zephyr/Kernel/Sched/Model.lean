import Mathlib.Logic.Function.Iterate
import Mathlib.Tactic.Simps.Basic
import Zephyr.Kernel.Base

/-! The scheduler of `sched.c` for one processor with list queues.
Interrupts may come between `z_swap` and the context switch, as on ARM; `swapPending` says that
the switch is still to happen.
-/

namespace Zephyr.Kernel.Sched

/-- The bits of `thread_state` that are set on one processor. -/
structure ThreadState where
  dummy : Bool := false
  pending : Bool := false
  prestart : Bool := false
  dead : Bool := false
  suspended : Bool := false
  queued : Bool := false
  deriving DecidableEq, Repr

/-- A wait queue of a kernel object, or the `join_queue` of a thread. -/
inductive WaitQ where
  | object (id : Nat)
  | join (thread : Nat)
  deriving DecidableEq, Repr

structure Thread where
  state : ThreadState
  prio : Int
  schedLocked : UInt8 := 0
  timeoutActive : Bool := false
  pendedOn : Option WaitQ := none
  essential : Bool := false
  swapRetval : Int := 0
  swapData : Nat := 0
  deriving DecidableEq, Repr

/-- The scheduler's part of `_kernel`. `insertions` counts the insertions into the run queue and
`queuedAt` has the number of each thread's last one. `fault` is set when a node that is not
linked is removed, or one that is linked is added: the list operations are undefined then.
-/
structure System where
  threads : Nat → Thread
  runq : List Nat := []
  waitq : WaitQ → List Nat := fun _ => []
  current : Nat
  cache : Nat
  swapPending : Bool := false
  insertions : Nat := 0
  queuedAt : Nat → Nat := fun _ => 0
  fault : Bool := false

/-- `z_idle_threads[0]`. -/
def idleThread : Nat := 0

@[simps runq waitq current cache swapPending insertions queuedAt fault]
def System.modify (system : System) (thread : Nat) (change : Thread → Thread) : System :=
  { system with
    threads := Function.update system.threads thread (change (system.threads thread)) }

/-! ### Thread states -/

def zIsThreadPreventedFromRunning (thread : Thread) : Bool :=
  thread.state.pending || thread.state.prestart || thread.state.dead || thread.state.dummy
    || thread.state.suspended

def zIsThreadReady (thread : Thread) : Bool :=
  !(zIsThreadPreventedFromRunning thread || thread.timeoutActive)

/-- `thread_is_preemptible`: the scheduler is not locked and the priority is not cooperative. -/
def threadIsPreemptible (thread : Thread) : Bool :=
  thread.schedLocked = 0 && 0 ≤ thread.prio

def zMarkThreadAsSuspended (thread : Thread) : Thread :=
  { thread with state.suspended := true }

def zMarkThreadAsNotSuspended (thread : Thread) : Thread :=
  { thread with state.suspended := false }

def zMarkThreadAsStarted (thread : Thread) : Thread :=
  { thread with state.prestart := false }

def Thread.setDead (thread : Thread) : Thread :=
  { thread with state.dead := true }

def zMarkThreadAsPending (thread : Thread) : Thread :=
  { thread with state.pending := true }

def zMarkThreadAsNotPending (thread : Thread) : Thread :=
  { thread with state.pending := false }

def Thread.setQueued (queued : Bool) (thread : Thread) : Thread :=
  { thread with state.queued := queued }

/-! ### The run queue -/

def queueThread (system : System) (thread : Nat) : System :=
  let system := system.modify thread (Thread.setQueued true)
  { system with
    runq := zPriqDumbAdd (fun other => (system.threads other).prio) thread system.runq
    fault := system.fault || system.runq.contains thread
    insertions := system.insertions + 1
    queuedAt := Function.update system.queuedAt thread system.insertions }

def dequeueThread (system : System) (thread : Nat) : System :=
  let system := system.modify thread (Thread.setQueued false)
  { system with
    runq := system.runq.erase thread
    fault := system.fault || !system.runq.contains thread }

def nextUp (system : System) : Nat :=
  system.runq.head?.getD idleThread

def shouldPreempt (system : System) (thread : Nat) (preemptOk : Bool) : Bool :=
  preemptOk || zIsThreadPreventedFromRunning (system.threads system.current)
    || (system.threads thread).timeoutActive
    || threadIsPreemptible (system.threads system.current)

def updateCache (system : System) (preemptOk : Bool) : System :=
  let thread := nextUp system
  { system with
    cache := if shouldPreempt system thread preemptOk then thread else system.current }

def readyThread (system : System) (thread : Nat) : System :=
  if !(system.threads thread).state.queued && zIsThreadReady (system.threads thread) then
    updateCache (queueThread system thread) false
  else system

/-- A thread leaves the run queue if it is in it. -/
def dequeueIfQueued (system : System) (thread : Nat) : System :=
  if (system.threads thread).state.queued then dequeueThread system thread else system

def unreadyThread (system : System) (thread : Nat) : System :=
  updateCache (dequeueIfQueued system thread) (thread == system.current)

/-! ### Context switches -/

/-- Who calls: an interrupt, or the running thread with interrupts unlocked or not. -/
inductive Context where
  | isr
  | thread (irqUnlocked : Bool)
  deriving DecidableEq, Repr

def Context.resched : Context → Bool
  | .isr => false
  | .thread irqUnlocked => irqUnlocked

/-- `z_swap` with `arch_swap`: the switch is requested and happens once interrupts are over. -/
def zSwap (system : System) : System :=
  { system.modify system.current (fun thread => { thread with swapRetval := -eagain }) with
    swapPending := true }

def zReschedule (context : Context) (system : System) : System :=
  if context.resched && system.cache ≠ system.current then zSwap system else system

/-- The exit of an interrupt requests a switch when another thread is to run. -/
def interruptExit (system : System) : System :=
  { system with swapPending := system.swapPending || system.cache ≠ system.current }

/-- The switch itself: the cached thread becomes the running one. -/
def contextSwitch (system : System) : System :=
  { system with current := system.cache, swapPending := false }

/-! ### Timeouts and wait queues -/

def zAddThreadTimeout (system : System) (thread : Nat) (timeout : KTimeout) : System :=
  if timeout = kForever then system
  else
    { system.modify thread (fun thread => { thread with timeoutActive := true }) with
      fault := system.fault || (system.threads thread).timeoutActive }

def zAbortThreadTimeout (system : System) (thread : Nat) : System × Int :=
  if (system.threads thread).timeoutActive then
    (system.modify thread (fun thread => { thread with timeoutActive := false }), 0)
  else (system, -einval)

def addToWaitqLocked (system : System) (thread : Nat) (waitQ : Option WaitQ) : System :=
  let system := (unreadyThread system thread).modify thread zMarkThreadAsPending
  match waitQ with
  | none => system
  | some waitQ =>
      let system := system.modify thread (fun thread => { thread with pendedOn := some waitQ })
      let queue := system.waitq waitQ
      { system with
        waitq := Function.update system.waitq waitQ
          (zPriqDumbAdd (fun other => (system.threads other).prio) thread queue)
        fault := system.fault || queue.contains thread }

def pendLocked (system : System) (thread : Nat) (waitQ : Option WaitQ) (timeout : KTimeout)
    : System :=
  zAddThreadTimeout (addToWaitqLocked system thread waitQ) thread timeout

/-- `unpend_thread_no_timeout`, and nothing for a thread that is on no wait queue. -/
def unpendThreadNoTimeout (system : System) (thread : Nat) : System :=
  match (system.threads thread).pendedOn with
  | none => system
  | some waitQ =>
      let queue := system.waitq waitQ
      { system.modify thread
          (fun thread => { zMarkThreadAsNotPending thread with pendedOn := none }) with
        waitq := Function.update system.waitq waitQ (queue.erase thread)
        fault := system.fault || !queue.contains thread }

def zUnpendThread (system : System) (thread : Nat) : System :=
  (zAbortThreadTimeout (unpendThreadNoTimeout system thread) thread).1

def zUnpend1NoTimeout (system : System) (waitQ : WaitQ) : System × Option Nat :=
  match system.waitq waitQ with
  | [] => (system, none)
  | thread :: _ => (unpendThreadNoTimeout system thread, some thread)

def zUnpendFirstThread (system : System) (waitQ : WaitQ) : System × Option Nat :=
  match system.waitq waitQ with
  | [] => (system, none)
  | thread :: _ => (zUnpendThread system thread, some thread)

/-- One turn of the loop of `z_unpend_all`. -/
def zUnpendAllTurn (waitQ : WaitQ) (system : System) : System :=
  match system.waitq waitQ with
  | [] => system
  | thread :: _ => readyThread (zUnpendThread system thread) thread

def zUnpendAll (system : System) (waitQ : WaitQ) : System :=
  (zUnpendAllTurn waitQ)^[(system.waitq waitQ).length] system

def zSchedWake (system : System) (waitQ : WaitQ) (swapRetval : Int) (swapData : Nat)
    : System × Bool :=
  match system.waitq waitQ with
  | [] => (system, false)
  | thread :: _ =>
      let system := system.modify thread
        (fun thread => { thread with swapRetval := swapRetval, swapData := swapData })
      (readyThread (zUnpendThread system thread) thread, true)

def zSchedWakeThread (system : System) (thread : Nat) (isTimeout : Bool) : System :=
  if (system.threads thread).state.dead then system
  else
    let system := (unpendThreadNoTimeout system thread).modify thread zMarkThreadAsStarted
    let system := if isTimeout then system.modify thread zMarkThreadAsNotSuspended else system
    readyThread system thread

/-- The expiry of a thread's timeout: it is removed and `z_thread_timeout` is called. -/
def zThreadTimeout (system : System) (thread : Nat) : System :=
  zSchedWakeThread (zAbortThreadTimeout system thread).1 thread true

/-! ### The operations -/

def zSchedStart (context : Context) (system : System) (thread : Nat) : System :=
  if (system.threads thread).state.prestart then
    zReschedule context (readyThread (system.modify thread zMarkThreadAsStarted) thread)
  else system

/-- `thread_schedule_new`. -/
def threadScheduleNew (context : Context) (system : System) (thread : Nat) (delay : KTimeout)
    : System :=
  if delay = kNoWait then zSchedStart context system thread
  else zAddThreadTimeout system thread delay

/-- One turn of the loop of `unpend_all`. -/
def unpendAllTurn (waitQ : WaitQ) (system : System) : System :=
  match system.waitq waitQ with
  | [] => system
  | thread :: _ =>
      let system := zUnpendThread system thread
      readyThread (system.modify thread (fun thread => { thread with swapRetval := 0 })) thread

def unpendAll (system : System) (waitQ : WaitQ) : System :=
  (unpendAllTurn waitQ)^[(system.waitq waitQ).length] system

def haltThread (system : System) (thread : Nat) (terminate : Bool) : System :=
  let state := (system.threads thread).state
  if if terminate then state.dead else state.suspended then system
  else
    let system := system.modify thread
      (if terminate then Thread.setDead else zMarkThreadAsSuspended)
    let system := dequeueIfQueued system thread
    let system :=
      if terminate then unpendAll (zUnpendThread system thread) (.join thread) else system
    updateCache system true

def zThreadHalt (context : Context) (system : System) (thread : Nat) (terminate : Bool)
    : System :=
  let halted := haltThread system thread terminate
  if thread = system.current ∧ context ≠ .isr then zSwap halted else halted

def kThreadSuspend (context : Context) (system : System) (thread : Nat) : System :=
  let system := (zAbortThreadTimeout system thread).1
  if (system.threads thread).state.suspended then system
  else zThreadHalt context system thread false

def kThreadResume (context : Context) (system : System) (thread : Nat) : System :=
  if (system.threads thread).state.suspended then
    zReschedule context (readyThread (system.modify thread zMarkThreadAsNotSuspended) thread)
  else system

/-- `k_thread_abort`; aborting an essential thread ends in a panic. -/
def kThreadAbort (context : Context) (system : System) (thread : Nat) : Option System :=
  if (system.threads thread).essential then none
  else if (system.threads thread).state.dead then some system
  else some (zThreadHalt context system thread true)

/-- `z_pend_curr` up to the switch. -/
def zPendCurr (system : System) (waitQ : Option WaitQ) (timeout : KTimeout) : System :=
  zSwap (pendLocked system system.current waitQ timeout)

def zThreadPrioSet (system : System) (thread : Nat) (prio : Int) : System × Bool :=
  if zIsThreadReady (system.threads thread) then
    let system := (dequeueThread system thread).modify thread
      (fun thread => { thread with prio := prio })
    (updateCache (queueThread system thread) true, true)
  else (system.modify thread (fun thread => { thread with prio := prio }), false)

def kThreadPrioritySet (context : Context) (system : System) (thread : Nat) (prio : Int)
    : System :=
  let (system, needSched) := zThreadPrioSet system thread prio
  if needSched && (system.threads system.current).schedLocked = 0 then
    zReschedule context system
  else system

def kYield (system : System) : System :=
  zSwap (updateCache (queueThread (dequeueThread system system.current) system.current) true)

/-- `z_tick_sleep` up to the switch. -/
def zTickSleep (system : System) (ticks : Int64) : System :=
  if ticks = 0 then kYield system
  else
    let current := system.current
    let system := zAddThreadTimeout (unreadyThread system current) current ⟨ticks⟩
    zSwap (system.modify current zMarkThreadAsSuspended)

def kSleep (context : Context) (system : System) (timeout : KTimeout) : System :=
  if timeout = kForever then kThreadSuspend context system system.current
  else zTickSleep system timeout.ticks

def kWakeup (context : Context) (system : System) (thread : Nat) : System :=
  if (system.threads thread).state.pending then system
  else
    let (system, aborted) := zAbortThreadTimeout system thread
    if aborted < 0 ∧ (system.threads thread).state ≠ { suspended := true } then system
    else
      zReschedule context (readyThread (system.modify thread zMarkThreadAsNotSuspended) thread)

/-- `k_thread_join` up to the switch: its result, or `none` when the caller waits. -/
def kThreadJoin (system : System) (thread : Nat) (timeout : KTimeout) : System × Option Int :=
  if (system.threads thread).state.dead then (system, some 0)
  else if timeout = kNoWait then (system, some (-ebusy))
  else if thread = system.current
      ∨ (system.threads thread).pendedOn = some (.join system.current) then
    (system, some (-edeadlk))
  else (zSwap (pendLocked system system.current (some (.join thread)) timeout), none)

def kSchedLock (system : System) : System :=
  system.modify system.current
    (fun thread => { thread with schedLocked := thread.schedLocked - 1 })

def kSchedUnlock (context : Context) (system : System) : System :=
  let system := system.modify system.current
    (fun thread => { thread with schedLocked := thread.schedLocked + 1 })
  zReschedule context (updateCache system false)

/-! ### Interleavings -/

inductive Operation where
  | start (thread : Nat)
  | scheduleNew (thread : Nat) (delay : KTimeout)
  | suspend (thread : Nat)
  | resume (thread : Nat)
  | wakeup (thread : Nat)
  | abort (thread : Nat)
  | unpend (thread : Nat)
  | unpendNoTimeout (thread : Nat)
  | unpendFirst (waitQ : WaitQ)
  | unpend1NoTimeout (waitQ : WaitQ)
  | unpendAll (waitQ : WaitQ)
  | ready (thread : Nat)
  | wake (waitQ : WaitQ) (swapRetval : Int) (swapData : Nat)
  deriving DecidableEq, Repr

/-- What only a thread may do, most of it to itself. -/
inductive ThreadOperation where
  | pend (waitQ : Option WaitQ) (timeout : KTimeout)
  | pendDummy (thread : Nat) (waitQ : Option WaitQ) (timeout : KTimeout)
  | prioSet (thread : Nat) (prio : Int)
  | inherit (thread : Nat) (prio : Int)
  | yield
  | sleep (timeout : KTimeout)
  | join (thread : Nat) (timeout : KTimeout)
  | schedLock
  | schedUnlock
  deriving DecidableEq, Repr

inductive Call where
  | interrupt (operation : Operation)
  | timeout (thread : Nat)
  | thread (irqUnlocked : Bool) (operation : Operation)
  | self (irqUnlocked : Bool) (operation : ThreadOperation)
  | contextSwitch
  deriving DecidableEq, Repr

/-- The thread that an operation names; it is never the idle thread. -/
def Operation.target : Operation → Option Nat
  | .start thread | .scheduleNew thread _ | .suspend thread | .resume thread | .wakeup thread
  | .abort thread | .unpend thread | .unpendNoTimeout thread | .ready thread => some thread
  | .unpendFirst _ | .unpend1NoTimeout _ | .unpendAll _ | .wake .. => none

def perform (context : Context) (system : System) : Operation → Option System
  | .start thread => some (zSchedStart context system thread)
  | .scheduleNew thread delay =>
      if (system.threads thread).state.prestart
          ∧ (system.threads thread).timeoutActive = false then
        some (threadScheduleNew context system thread delay)
      else none
  | .suspend thread => some (kThreadSuspend context system thread)
  | .resume thread => some (kThreadResume context system thread)
  | .wakeup thread => some (kWakeup context system thread)
  | .abort thread => kThreadAbort context system thread
  | .unpend thread => some (zUnpendThread system thread)
  | .unpendNoTimeout thread => some (unpendThreadNoTimeout system thread)
  | .unpendFirst waitQ => some (zUnpendFirstThread system waitQ).1
  | .unpend1NoTimeout waitQ => some (zUnpend1NoTimeout system waitQ).1
  | .unpendAll waitQ => some (zUnpendAll system waitQ)
  | .ready thread => some (readyThread system thread)
  | .wake waitQ swapRetval swapData => some (zSchedWake system waitQ swapRetval swapData).1

def performSelf (context : Context) (system : System) : ThreadOperation → Option System
  | .pend waitQ timeout => some (zPendCurr system waitQ timeout)
  | .pendDummy thread waitQ timeout =>
      let dummy := system.threads thread
      if thread ≠ idleThread ∧ dummy.state.dummy ∧ dummy.pendedOn = none
          ∧ dummy.timeoutActive = false then
        some (pendLocked system thread waitQ timeout)
      else none
  | .prioSet thread prio =>
      if thread = idleThread then none
      else some (kThreadPrioritySet context system thread prio)
  | .inherit thread prio =>
      if thread = idleThread then none else some (zThreadPrioSet system thread prio).1
  | .yield => some (kYield system)
  | .sleep timeout => some (kSleep context system timeout)
  | .join thread timeout => some (kThreadJoin system thread timeout).1
  | .schedLock => some (kSchedLock system)
  | .schedUnlock => some (kSchedUnlock context system)

def System.threadRuns (system : System) : Bool :=
  !system.swapPending && system.current ≠ idleThread

def step (system : System) : Call → Option System
  | .interrupt operation =>
      if operation.target = some idleThread then none
      else (perform .isr system operation).map interruptExit
  | .timeout thread =>
      if thread ≠ idleThread ∧ (system.threads thread).timeoutActive then
        some (interruptExit (zThreadTimeout system thread))
      else none
  | .thread irqUnlocked operation =>
      if system.threadRuns ∧ operation.target ≠ some idleThread then
        perform (.thread irqUnlocked) system operation
      else none
  | .self irqUnlocked operation =>
      if system.threadRuns then performSelf (.thread irqUnlocked) system operation else none
  | .contextSwitch => if system.swapPending then some (contextSwitch system) else none

/-- The idle thread runs and every other thread is a dummy or not started yet. -/
def start (prio : Nat → Int) (dummy essential : Nat → Bool) : System where
  threads := fun thread =>
    { state :=
        if thread = idleThread then {}
        else { dummy := dummy thread, prestart := !dummy thread }
      prio := prio thread
      essential := essential thread }
  current := idleThread
  cache := idleThread

end Zephyr.Kernel.Sched
