import Zephyr.Kernel.Sched.Consistency

/-! A thread that is cooperative or holds the scheduler lock goes on running while it and the
interrupts act on other threads, as long as nothing recomputes the choice with `preempt_ok` set
when another thread is first in the run queue.
-/

namespace Zephyr.Kernel.Sched

open Zephyr.Library

/-- The current thread is queued and may not be preempted. -/
structure System.Guarded (system : System) : Prop where
  queued : (system.threads system.current).state.queued = true
  kept : threadIsPreemptible (system.threads system.current) = false

/-- The current thread goes on as it is and is chosen to run. -/
structure System.Keeps (system later : System) : Prop where
  current : later.current = system.current
  running : later.threads system.current = system.threads system.current
  swapPending : later.swapPending = system.swapPending
  chosen : later.cache = system.current

variable {context : Context} {system later : System} {loose : Nat → Prop}
  {thread other : Nat}

namespace System.Keeps

theorem refl (chosen : system.cache = system.current) : system.Keeps system :=
  ⟨rfl, rfl, rfl, chosen⟩

theorem touch {next : System} (keeps : system.Keeps later) (ne : thread ≠ system.current)
    (touches : later.Touches next thread) (swapPending : next.swapPending = later.swapPending)
    : system.Keeps next :=
  ⟨touches.current.trans keeps.current, (touches.others _ ne.symm).trans keeps.running,
    swapPending.trans keeps.swapPending, touches.cache.trans keeps.chosen⟩

theorem unpendThreadNoTimeout (keeps : system.Keeps later) (ne : thread ≠ system.current)
    : system.Keeps (unpendThreadNoTimeout later thread) := by
  refine keeps.touch ne .unpendThreadNoTimeout ?_
  unfold Sched.unpendThreadNoTimeout
  split <;> rfl

theorem zAbortThreadTimeout (keeps : system.Keeps later) (ne : thread ≠ system.current)
    : system.Keeps (zAbortThreadTimeout later thread).1 := by
  refine keeps.touch ne .zAbortThreadTimeout ?_
  unfold Sched.zAbortThreadTimeout
  split <;> rfl

theorem zUnpendThread (keeps : system.Keeps later) (ne : thread ≠ system.current)
    : system.Keeps (zUnpendThread later thread) :=
  (keeps.unpendThreadNoTimeout ne).zAbortThreadTimeout ne

theorem zAddThreadTimeout {timeout : KTimeout} (keeps : system.Keeps later)
    (ne : thread ≠ system.current)
    : system.Keeps (zAddThreadTimeout later thread timeout) := by
  refine keeps.touch ne .zAddThreadTimeout ?_
  unfold Sched.zAddThreadTimeout
  split <;> rfl

theorem queueThread (keeps : system.Keeps later) (ne : thread ≠ system.current)
    : system.Keeps (queueThread later thread) :=
  ⟨keeps.current, (queueThread_other ne.symm).trans keeps.running, keeps.swapPending,
    keeps.chosen⟩

theorem dequeueIfQueued (keeps : system.Keeps later) (ne : thread ≠ system.current)
    : system.Keeps (dequeueIfQueued later thread) := by
  refine ⟨dequeueIfQueued_current.trans keeps.current,
    (dequeueIfQueued_other ne.symm).trans keeps.running, ?_, ?_⟩
  all_goals unfold Sched.dequeueIfQueued; split
  · exact keeps.swapPending
  · exact keeps.swapPending
  · exact keeps.chosen
  · exact keeps.chosen

theorem zReschedule (keeps : system.Keeps later)
    : system.Keeps (zReschedule context later) := by
  have same : later.cache = later.current := keeps.chosen.trans keeps.current.symm
  simpa [Sched.zReschedule, same] using keeps

end System.Keeps

/-! ### The choice of the next thread -/

/-- Without `preempt_ok` a guarded thread stays chosen: it is not prevented from running and
the first thread of the run queue has no timeout.
-/
theorem System.Keeps.updateCache (keeps : system.Keeps later) (guarded : system.Guarded)
    (queues : later.Queues loose)
    : system.Keeps (updateCache later false) := by
  refine ⟨keeps.current, keeps.running, keeps.swapPending, ?_⟩
  have same : later.threads later.current = system.threads system.current := by
    rw [keeps.current, keeps.running]
  have queued : (later.threads later.current).state.queued = true := by
    rw [same]
    exact guarded.queued
  have member := (queues.fits later.current).linked.mpr queued
  have ready := (queues.fits later.current).runnable queued
  have next : nextUp later ∈ later.runq := by
    rw [nextUp]
    cases runq : later.runq with
    | nil => simp [runq] at member
    | cons first rest => simp
  have nextQueued := (queues.fits (nextUp later)).linked.mp next
  have noTimeout := ((queues.fits (nextUp later)).of_queued nextQueued).1
  have notPrevented : zIsThreadPreventedFromRunning (later.threads later.current) = false := by
    simp only [zIsThreadReady, Bool.not_eq_true', Bool.or_eq_false_iff] at ready
    exact ready.1
  have kept : threadIsPreemptible (later.threads later.current) = false := by
    rw [same]
    exact guarded.kept
  simpa [Sched.updateCache, shouldPreempt, notPrevented, noTimeout, kept] using keeps.current

/-- With `preempt_ok` the first thread of the run queue is chosen. -/
theorem System.Keeps.updateCache_first (keeps : system.Keeps later)
    (first : later.runq.head? = some system.current)
    : system.Keeps (Sched.updateCache later true) :=
  ⟨keeps.current, keeps.running, keeps.swapPending, by
    simp [Sched.updateCache, shouldPreempt, nextUp, first]⟩

theorem System.Keeps.readyThread (keeps : system.Keeps later) (guarded : system.Guarded)
    (queues : later.Queues (fun other => loose other ∨ other = thread))
    (ne : thread ≠ system.current) (notIdle : thread ≠ idleThread)
    : system.Keeps (readyThread later thread) := by
  unfold Sched.readyThread
  split
  · rename_i joins
    simp only [Bool.and_eq_true, Bool.not_eq_true'] at joins
    exact (keeps.queueThread ne).updateCache guarded
      (queues.queueThread notIdle joins.1 joins.2)
  · exact keeps

theorem System.Keeps.waiter_ne {waitQ : WaitQ} (keeps : system.Keeps later)
    (guarded : system.Guarded) (queues : later.Queues loose)
    (waits : thread ∈ later.waitq waitQ)
    : thread ≠ system.current := by
  rintro rfl
  have queued : (later.threads system.current).state.queued = true := by
    rw [keeps.running]
    exact guarded.queued
  have pended := ((queues.fits system.current).waiting waitQ).mp waits
  simp [((queues.fits system.current).of_queued queued).2.1] at pended

/-! ### Operations that wake threads -/

/-- A guarded thread runs and is chosen to run on. -/
structure System.Steady (system : System) (loose : Nat → Prop) : Prop where
  guarded : system.Guarded
  queues : system.Queues loose
  chosen : system.cache = system.current

namespace System.Steady

theorem keeps (steady : system.Steady loose) : system.Keeps system :=
  .refl steady.chosen

theorem start (steady : system.Steady loose) (ne : thread ≠ system.current)
    (notIdle : thread ≠ idleThread)
    : system.Keeps (zSchedStart context system thread) := by
  unfold zSchedStart
  split
  · have started := steady.keeps.touch ne (.modify rfl : system.Touches
      (system.modify thread zMarkThreadAsStarted) thread) rfl
    exact (started.readyThread steady.guarded steady.queues.markStarted ne notIdle).zReschedule
  · exact steady.keeps

theorem scheduleNew {delay : KTimeout} (steady : system.Steady loose)
    (ne : thread ≠ system.current) (notIdle : thread ≠ idleThread)
    : system.Keeps (threadScheduleNew context system thread delay) := by
  unfold threadScheduleNew
  split
  · exact steady.start ne notIdle
  · exact steady.keeps.zAddThreadTimeout ne

theorem resume (steady : system.Steady loose) (ne : thread ≠ system.current)
    (notIdle : thread ≠ idleThread)
    : system.Keeps (kThreadResume context system thread) := by
  unfold kThreadResume
  split
  · have resumed := steady.keeps.touch ne (.modify rfl : system.Touches
      (system.modify thread zMarkThreadAsNotSuspended) thread) rfl
    exact (resumed.readyThread steady.guarded steady.queues.markNotSuspended ne
      notIdle).zReschedule
  · exact steady.keeps

theorem wakeup (steady : system.Steady loose) (ne : thread ≠ system.current)
    (notIdle : thread ≠ idleThread)
    : system.Keeps (kWakeup context system thread) := by
  have aborted := steady.queues.zAbortThreadTimeout thread
  have keeps := steady.keeps.zAbortThreadTimeout ne
  unfold kWakeup
  split
  · exact steady.keeps
  · dsimp only
    split
    · exact keeps
    · exact ((keeps.touch ne (.modify rfl) rfl).readyThread steady.guarded
        aborted.markNotSuspended.merge ne notIdle).zReschedule

theorem wakeFirst {waitQ : WaitQ} (steady : system.Steady loose) (swapRetval : Int)
    (swapData : Nat)
    : system.Keeps (zSchedWake system waitQ swapRetval swapData).1 := by
  unfold zSchedWake
  split
  · exact steady.keeps
  · rename_i found rest first
    have member : found ∈ system.waitq waitQ := by simp [first]
    have ne := steady.keeps.waiter_ne steady.guarded steady.queues member
    have written : (system.modify found (fun thread =>
        { thread with swapRetval := swapRetval, swapData := swapData })).Queues loose :=
      steady.queues.sameBits found (fun _ => rfl) (fun _ => ⟨rfl, rfl, rfl⟩)
    exact ((steady.keeps.touch ne (.modify rfl) rfl).zUnpendThread ne).readyThread
      steady.guarded written.zUnpendThread ne (steady.queues.waiter_ne_idle member)

theorem unpendAll {waitQ : WaitQ} (steady : system.Steady loose)
    : system.Keeps (zUnpendAll system waitQ) := by
  refine (Function.Iterate.rec (fun later => later.Queues loose ∧ system.Keeps later)
    ⟨steady.queues, steady.keeps⟩ ?_ _).2
  rintro later ⟨queues, keeps⟩
  unfold zUnpendAllTurn
  split
  · exact ⟨queues, keeps⟩
  · rename_i found rest first
    have member : found ∈ later.waitq waitQ := by simp [first]
    have ne := keeps.waiter_ne steady.guarded queues member
    have notIdle := queues.waiter_ne_idle member
    exact ⟨queues.zUnpendThread.readyThread notIdle,
      (keeps.zUnpendThread ne).readyThread steady.guarded queues.zUnpendThread ne notIdle⟩

theorem timeout (steady : system.Steady loose) (ne : thread ≠ system.current)
    (notIdle : thread ≠ idleThread)
    : system.Keeps (zThreadTimeout system thread) := by
  have expired := steady.queues.zAbortThreadTimeout thread
  have keeps := steady.keeps.zAbortThreadTimeout ne
  unfold zThreadTimeout zSchedWakeThread
  split
  · exact keeps
  · have woken := (expired.unpendThreadNoTimeout.merge.markStarted.merge).markNotSuspended.merge
    have started := (keeps.unpendThreadNoTimeout ne).touch ne (.modify rfl : System.Touches _
      (System.modify _ thread zMarkThreadAsStarted) thread) rfl
    exact (started.touch ne (.modify rfl) rfl).readyThread steady.guarded woken ne notIdle

theorem pendDummy {waitQ : Option WaitQ} {timeout : KTimeout} (steady : system.Steady loose)
    (may : system.MayWait thread) (ne : thread ≠ system.current)
    : system.Keeps (pendLocked system thread waitQ timeout) := by
  have dequeued := steady.keeps.dequeueIfQueued ne
  have unready : system.Keeps (unreadyThread system thread) := by
    rw [unreadyThread, beq_false_of_ne ne]
    exact dequeued.updateCache steady.guarded steady.queues.dequeueIfQueued
  obtain ⟨-, touches⟩ := pendLocked_spec waitQ timeout steady.queues may
  refine unready.touch ne touches ?_
  unfold pendLocked zAddThreadTimeout addToWaitqLocked
  cases waitQ <;> (split <;> rfl)

end System.Steady

end Zephyr.Kernel.Sched
