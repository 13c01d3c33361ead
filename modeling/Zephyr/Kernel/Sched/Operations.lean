import Zephyr.Library.Run
import Zephyr.Kernel.Sched.Running

/-! What each operation of the scheduler keeps, made by an interrupt or by the running thread. -/

namespace Zephyr.Kernel.Sched

open Zephyr.Library

/-- What an operation leaves behind: fitting queues and a fitting choice of the next thread; and
if the running thread made the call and goes on running, it is still queued.
-/
structure Result (context : Context) (system later : System) (loose : Nat → Prop) : Prop where
  queues : later.Queues loose
  cache : later.CacheFits
  running : context ≠ .isr → system.Running → later.swapPending = false → later.Running

variable {context : Context} {system later : System} {loose : Nat → Prop}
  {thread other : Nat}

theorem Result.same (queues : system.Queues loose) (cache : system.CacheFits)
    : Result context system system loose :=
  ⟨queues, cache, fun _ running _ => running⟩

theorem zSwap_touches : system.Touches (zSwap system) system.current :=
  ⟨fun _ ne => Function.update_of_ne ne .., by simp [zSwap], rfl, rfl⟩

theorem System.Queues.zSwap (queues : system.Queues loose) : (zSwap system).Queues loose := by
  have same : (system.modify system.current
      (fun thread => { thread with swapRetval := -eagain })).Queues loose :=
    queues.sameBits system.current (fun _ => rfl) (fun _ => ⟨rfl, rfl, rfl⟩)
  exact ⟨fun found => (same.fits found).congr rfl Iff.rfl (fun _ => Iff.rfl) id, same.once,
    same.sorted, same.stamped, same.waitOnce, same.intact⟩

theorem Result.swap (queues : later.Queues loose) (cache : later.CacheFits)
    : Result context system (zSwap later) loose :=
  ⟨queues.zSwap, zSwap_touches.cacheFits cache, fun _ _ pending => by simp [zSwap] at pending⟩

theorem Result.reschedule (result : Result context system later loose)
    : Result context system (zReschedule context later) loose := by
  unfold zReschedule
  split
  · exact .swap result.queues result.cache
  · exact result

/-- A thread has been changed, so that it may be ready, and is made ready if it is. -/
theorem Result.wake (touches : system.Touches later thread)
    (queues : later.Queues (fun other => loose other ∨ other = thread))
    (notIdle : thread ≠ idleThread) (cache : system.CacheFits)
    (fits : system.CurrentFits ∨ thread = system.current)
    : Result context system (readyThread later thread) loose :=
  ⟨queues.readyThread notIdle,
    readyThread_fits queues notIdle (touches.cacheFits cache) (touches.currentFits fits),
    fun _ running _ => (touches.running running).readyThread⟩

/-! ### Start, resume and wake-up -/

theorem ready_markStarted {found : Thread} (ready : zIsThreadReady found = true)
    : zIsThreadReady (zMarkThreadAsStarted found) = true := by
  simp_all [zIsThreadReady, zIsThreadPreventedFromRunning, zMarkThreadAsStarted]

theorem ready_markNotSuspended {found : Thread} (ready : zIsThreadReady found = true)
    : zIsThreadReady (zMarkThreadAsNotSuspended found) = true := by
  simp_all [zIsThreadReady, zIsThreadPreventedFromRunning, zMarkThreadAsNotSuspended]

theorem System.Queues.markStarted (queues : system.Queues loose)
    : (system.modify thread zMarkThreadAsStarted).Queues
        (fun other => loose other ∨ other = thread) :=
  queues.bits rfl rfl rfl (fun _ => id) (fun _ => ready_markStarted)

theorem System.Queues.markNotSuspended (queues : system.Queues loose)
    : (system.modify thread zMarkThreadAsNotSuspended).Queues
        (fun other => loose other ∨ other = thread) :=
  queues.bits rfl rfl rfl (fun _ => id) (fun _ => ready_markNotSuspended)

theorem System.Queues.zAbortThreadTimeout (thread : Nat) (queues : system.Queues loose)
    : (zAbortThreadTimeout system thread).1.Queues
        (fun other => loose other ∨ other = thread) := by
  unfold Sched.zAbortThreadTimeout
  split
  · dsimp only
    refine queues.bits rfl rfl rfl (fun _ => id) ?_
    intro _ ready
    simp_all [zIsThreadReady, zIsThreadPreventedFromRunning]
  · exact queues.loosen thread

theorem Result.start (queues : system.Queues loose) (cache : system.CacheFits)
    (notIdle : thread ≠ idleThread) (fits : system.CurrentFits ∨ thread = system.current)
    : Result context system (zSchedStart context system thread) loose := by
  unfold zSchedStart
  split
  · exact (Result.wake (.modify rfl) queues.markStarted notIdle cache fits).reschedule
  · exact .same queues cache

theorem Result.resume (queues : system.Queues loose) (cache : system.CacheFits)
    (notIdle : thread ≠ idleThread) (fits : system.CurrentFits ∨ thread = system.current)
    : Result context system (kThreadResume context system thread) loose := by
  unfold kThreadResume
  split
  · exact (Result.wake (.modify rfl) queues.markNotSuspended notIdle cache fits).reschedule
  · exact .same queues cache

theorem Result.wakeup (queues : system.Queues loose) (cache : system.CacheFits)
    (notIdle : thread ≠ idleThread) (fits : system.CurrentFits ∨ thread = system.current)
    : Result context system (kWakeup context system thread) loose := by
  have aborted := queues.zAbortThreadTimeout thread
  have touches : system.Touches (zAbortThreadTimeout system thread).1 thread :=
    .zAbortThreadTimeout
  unfold kWakeup
  split
  · exact .same queues cache
  · dsimp only
    split
    · rename_i idle
      have unchanged : (zAbortThreadTimeout system thread).1 = system := by
        unfold zAbortThreadTimeout at idle ⊢
        split
        · simp_all
        · rfl
      rw [unchanged]
      exact .same queues cache
    · exact (Result.wake (touches.trans (.modify rfl)) aborted.markNotSuspended.merge notIdle
        cache fits).reschedule

/-! ### Wait queues -/

theorem System.Queues.zUnpendThread (queues : system.Queues loose)
    : (zUnpendThread system thread).Queues (fun other => loose other ∨ other = thread) :=
  (queues.unpendThreadNoTimeout.zAbortThreadTimeout thread).merge

/-- A thread that was only unpended may be ready; its caller is to make it so. -/
theorem Result.touched (touches : system.Touches later thread) (queues : later.Queues loose)
    (cache : system.CacheFits)
    : Result context system later loose :=
  ⟨queues, touches.cacheFits cache, fun _ running _ => touches.running running⟩

theorem System.Queues.waiter_ne_idle {waitQ : WaitQ} (queues : system.Queues loose)
    (waits : thread ∈ system.waitq waitQ)
    : thread ≠ idleThread := by
  intro idle
  have pended := ((queues.fits thread).waiting waitQ).mp waits
  simp [((queues.fits thread).idle idle).2] at pended

theorem System.Touches.wakeWith {change : Thread → Thread}
    (same : ∀ found : Thread, (change found).state = found.state)
    : system.Touches (Sched.zUnpendThread (system.modify thread change) thread) thread :=
  (System.Touches.modify (by rw [same])).trans .zUnpendThread

theorem Result.wakeFirst {waitQ : WaitQ} (swapRetval : Int) (swapData : Nat)
    (queues : system.Queues loose) (cache : system.CacheFits) (fits : system.CurrentFits)
    : Result context system (zSchedWake system waitQ swapRetval swapData).1 loose := by
  unfold zSchedWake
  split
  · exact .same queues cache
  · rename_i found rest first
    have member : found ∈ system.waitq waitQ := by simp [first]
    have written : (system.modify found (fun thread =>
        { thread with swapRetval := swapRetval, swapData := swapData })).Queues loose :=
      queues.sameBits found (fun _ => rfl) (fun _ => ⟨rfl, rfl, rfl⟩)
    exact .wake (.wakeWith (fun _ => rfl)) written.zUnpendThread (queues.waiter_ne_idle member)
      cache (.inl fits)

theorem zAbortThreadTimeout_self
    : (zAbortThreadTimeout system thread).1.threads thread
      = { system.threads thread with timeoutActive := false } := by
  unfold zAbortThreadTimeout
  split
  · simp
  · rename_i inactive
    rw [← Bool.eq_false_iff.mpr inactive]

theorem zUnpendThread_awake
    : ((zUnpendThread system thread).threads thread).timeoutActive = false := by
  rw [zUnpendThread, zAbortThreadTimeout_self]

/-- What the loop of `z_unpend_all` keeps. -/
structure Unpending (system later : System) (loose : Nat → Prop) : Prop where
  queues : later.Queues loose
  cache : later.CacheFits
  fits : later.CurrentFits
  running : system.Running → later.Running

theorem Unpending.turn {waitQ : WaitQ} (unpending : Unpending system later loose)
    : Unpending system (zUnpendAllTurn waitQ later) loose := by
  unfold zUnpendAllTurn
  split
  · exact unpending
  · rename_i found rest first
    have member : found ∈ later.waitq waitQ := by simp [first]
    have woken : Result (.thread true) later (readyThread (zUnpendThread later found) found)
        loose :=
      .wake .zUnpendThread unpending.queues.zUnpendThread
        (unpending.queues.waiter_ne_idle member) unpending.cache (.inl unpending.fits)
    have touches : later.Touches (zUnpendThread later found) found := .zUnpendThread
    exact ⟨woken.queues, woken.cache,
      readyThread_currentFits (touches.currentFits (.inl unpending.fits)) zUnpendThread_awake,
      fun running => (touches.running (unpending.running running)).readyThread⟩

theorem Result.unpendAll {waitQ : WaitQ} (queues : system.Queues loose)
    (cache : system.CacheFits) (fits : system.CurrentFits)
    : Result context system (zUnpendAll system waitQ) loose := by
  have unpending : Unpending system (zUnpendAll system waitQ) loose :=
    Function.Iterate.rec (fun later => Unpending system later loose) ⟨queues, cache, fits, id⟩
      (fun _ => Unpending.turn) _
  exact ⟨unpending.queues, unpending.cache, fun _ running _ => unpending.running running⟩

theorem Result.timeout (queues : system.Queues loose) (cache : system.CacheFits)
    (notIdle : thread ≠ idleThread) (fits : system.CurrentFits ∨ thread = system.current)
    : Result context system (zThreadTimeout system thread) loose := by
  have expired := queues.zAbortThreadTimeout thread
  have touches : system.Touches (zAbortThreadTimeout system thread).1 thread :=
    .zAbortThreadTimeout
  unfold zThreadTimeout zSchedWakeThread
  split
  · rename_i dead
    refine .touched touches (expired.tighten thread ?_) cache
    intro ready
    simp [zIsThreadReady, zIsThreadPreventedFromRunning, dead] at ready
  · have woken := (expired.unpendThreadNoTimeout.merge.markStarted.merge).markNotSuspended.merge
    refine .wake ?_ woken notIdle cache fits
    exact touches.trans (System.Touches.unpendThreadNoTimeout.trans
      ((System.Touches.modify rfl).trans (.modify rfl)))

/-! ### Suspend and abort -/

theorem unpendAllTurn_queues {waitQ : WaitQ} (queues : system.Queues loose)
    : (unpendAllTurn waitQ system).Queues loose := by
  unfold unpendAllTurn
  split
  · exact queues
  · rename_i found rest first
    have member : found ∈ system.waitq waitQ := by simp [first]
    have written : ((zUnpendThread system found).modify found
        (fun thread => { thread with swapRetval := 0 })).Queues
          (fun other => loose other ∨ other = found) :=
      queues.zUnpendThread.sameBits found (fun _ => rfl) (fun _ => ⟨rfl, rfl, rfl⟩)
    exact written.readyThread (queues.waiter_ne_idle member)

theorem System.Running.unpendAllTurn {waitQ : WaitQ} (running : system.Running)
    : (unpendAllTurn waitQ system).Running := by
  unfold Sched.unpendAllTurn
  split
  · exact running
  · exact ((System.Touches.zUnpendThread.trans (.modify rfl)).running running).readyThread

theorem System.Queues.unpendAll (waitQ : WaitQ) (queues : system.Queues loose)
    : (unpendAll system waitQ).Queues loose :=
  Function.Iterate.rec (fun later : System => later.Queues loose) queues
    (fun _ => unpendAllTurn_queues) _

theorem System.Running.unpendAll (waitQ : WaitQ) (running : system.Running)
    : (unpendAll system waitQ).Running :=
  Function.Iterate.rec System.Running running (fun _ => System.Running.unpendAllTurn) _

theorem zUnpendThread_waitq {waitQ : WaitQ}
    (waits : (system.threads thread).pendedOn = some waitQ)
    : (zUnpendThread system thread).waitq waitQ = (system.waitq waitQ).erase thread := by
  have unpended : (unpendThreadNoTimeout system thread).waitq waitQ
      = (system.waitq waitQ).erase thread := by
    rw [unpendThreadNoTimeout_eq waits]
    simp
  unfold zUnpendThread zAbortThreadTimeout
  split <;> exact unpended

theorem readyThread_waitq : (readyThread system thread).waitq = system.waitq := by
  unfold readyThread
  split <;> rfl

/-- The loop of `unpend_all` goes on until the wait queue is empty. -/
theorem unpendAll_empties {waitQ : WaitQ} (queues : system.Queues loose)
    : (unpendAll system waitQ).waitq waitQ = [] := by
  refine (iterate_ends (fun later : System => later.waitq waitQ = [])
    (fun later => (later.waitq waitQ).length) (fun later => later.Queues loose)
    unpendAllTurn_queues ?_ ?_ queues).1
  · intro later before waiting
    cases first : later.waitq waitQ with
    | nil => exact absurd first waiting
    | cons found rest =>
        have waits := ((before.fits found).waiting waitQ).mp (by simp [first])
        simp only [unpendAllTurn, first, readyThread_waitq, System.modify_waitq,
          zUnpendThread_waitq waits, List.erase_cons_head, List.length_cons]
        omega
  · intro later empty
    simp [unpendAllTurn, empty]

theorem System.Queues.halt {change : Thread → Thread}
    (queues : system.Queues (fun other => loose other ∨ other = thread))
    (same
      : ∀ found : Thread,
          (change found).prio = found.prio
          ∧ (change found).state.queued = found.state.queued
          ∧ (change found).state.pending = found.state.pending
          ∧ (change found).pendedOn = found.pendedOn)
    (commutes : ∀ found : Thread, (change found).setQueued false = change (found.setQueued false))
    (prevents : ∀ found : Thread, zIsThreadReady (change found) = false)
    : (Sched.dequeueIfQueued (system.modify thread change) thread).Queues loose := by
  rw [dequeueIfQueued_modify (fun found => (same found).2.1) commutes]
  have dequeued : (Sched.dequeueIfQueued system thread).Queues
      (fun other => loose other ∨ other = thread) :=
    queues.dequeueIfQueued.merge
  have unqueued : ((Sched.dequeueIfQueued system thread).threads thread).state.queued = false := by
    rw [dequeueIfQueued_self]
    rfl
  obtain ⟨prio, queued, pending, pendedOn⟩ :=
    same ((Sched.dequeueIfQueued system thread).threads thread)
  have marked := dequeued.bits prio queued pendedOn
    (fun _ waits => by rw [pending]; exact waits) (fun linked => by simp [unqueued] at linked)
  refine marked.merge.tighten thread ?_
  rw [System.modify_self, prevents]
  exact fun ready => nomatch ready

theorem dequeueIfQueued_current : (dequeueIfQueued system thread).current = system.current := by
  unfold dequeueIfQueued
  split <;> rfl

theorem System.Running.dequeueIfQueued (running : system.Running)
    (ne : thread ≠ system.current)
    : (dequeueIfQueued system thread).Running := by
  rw [Running, dequeueIfQueued_current, dequeueIfQueued_other ne.symm]
  exact running

theorem zUnpendThread_dead
    : ((zUnpendThread system thread).threads thread).state.dead
      = (system.threads thread).state.dead := by
  have unpended : ((unpendThreadNoTimeout system thread).threads thread).state.dead
      = (system.threads thread).state.dead := by
    unfold unpendThreadNoTimeout
    split
    · rfl
    · simp [zMarkThreadAsNotPending]
  unfold zUnpendThread zAbortThreadTimeout
  split
  · simpa using unpended
  · exact unpended

theorem setDead_not_ready (found : Thread) : zIsThreadReady found.setDead = false := by
  simp [zIsThreadReady, zIsThreadPreventedFromRunning, Thread.setDead]

theorem markSuspended_not_ready (found : Thread)
    : zIsThreadReady (zMarkThreadAsSuspended found) = false := by
  simp [zIsThreadReady, zIsThreadPreventedFromRunning, zMarkThreadAsSuspended]

theorem System.Queues.setDead
    (queues : system.Queues (fun other => loose other ∨ other = thread))
    : (Sched.zUnpendThread (Sched.dequeueIfQueued (system.modify thread Thread.setDead) thread)
        thread).Queues loose := by
  have halted : (Sched.dequeueIfQueued (system.modify thread Thread.setDead) thread).Queues
      loose :=
    queues.halt (fun _ => ⟨rfl, rfl, rfl, rfl⟩) (fun _ => rfl) setDead_not_ready
  refine halted.zUnpendThread.tighten thread ?_
  intro ready
  simp [zIsThreadReady, zIsThreadPreventedFromRunning, zUnpendThread_dead,
    dequeueIfQueued_self, Thread.setDead, Thread.setQueued] at ready

theorem System.Running.haltThread (running : system.Running) (ne : thread ≠ system.current)
    : (haltThread system thread false).Running := by
  simp only [Sched.haltThread, Bool.false_eq_true, if_false]
  split
  · exact running
  · have touched : (system.modify thread zMarkThreadAsSuspended).Running :=
      (Touches.modify rfl).running running
    exact touched.dequeueIfQueued ne

/-- What halting a thread keeps; the halted thread does not run any more. -/
structure Halting (system later : System) (loose : Nat → Prop) (thread : Nat) : Prop where
  queues : later.Queues loose
  cache : later.CacheFits
  running : thread ≠ system.current → system.Running → later.Running

theorem Halting.suspend
    (queues : system.Queues (fun other => loose other ∨ other = thread))
    (cache : system.CacheFits)
    : Halting system (haltThread system thread false) loose thread := by
  have halted : (dequeueIfQueued (system.modify thread zMarkThreadAsSuspended) thread).Queues
      loose :=
    queues.halt (fun _ => ⟨rfl, rfl, rfl, rfl⟩) (fun _ => rfl) markSuspended_not_ready
  suffices halts : (haltThread system thread false).Queues loose
      ∧ (haltThread system thread false).CacheFits from
    ⟨halts.1, halts.2, fun ne running => running.haltThread ne⟩
  simp only [haltThread, Bool.false_eq_true, if_false]
  split
  · rename_i suspended
    refine ⟨queues.tighten thread ?_, cache⟩
    intro ready
    simp [zIsThreadReady, zIsThreadPreventedFromRunning, suspended] at ready
  · exact ⟨halted.updateCache true, updateCache_fits halted (.inl rfl)⟩

theorem Halting.abort
    (queues : system.Queues (fun other => loose other ∨ other = thread))
    (cache : system.CacheFits)
    : Halting system (haltThread system thread true) loose thread := by
  simp only [haltThread, if_true]
  split
  · rename_i dead
    refine ⟨queues.tighten thread ?_, cache, fun _ => id⟩
    intro ready
    simp [zIsThreadReady, zIsThreadPreventedFromRunning, dead] at ready
  · have woken := queues.setDead.unpendAll (.join thread)
    refine ⟨woken.updateCache true, updateCache_fits woken (.inl rfl), ?_⟩
    intro ne running
    have touched : (system.modify thread Thread.setDead).Running :=
      (System.Touches.modify rfl).running running
    exact (System.Touches.zUnpendThread.running (touched.dequeueIfQueued ne)).unpendAll _

theorem Halting.result {terminate : Bool}
    (halting : Halting system (haltThread system thread terminate) loose thread)
    : Result context system (zThreadHalt context system thread terminate) loose := by
  unfold zThreadHalt
  dsimp only
  split
  · exact .swap halting.queues halting.cache
  · rename_i other
    refine ⟨halting.queues, halting.cache, ?_⟩
    intro notIsr running _
    exact halting.running (fun self => other ⟨self, notIsr⟩) running

theorem Result.suspend (queues : system.Queues loose) (cache : system.CacheFits)
    : Result context system (kThreadSuspend context system thread) loose := by
  have touches : system.Touches (zAbortThreadTimeout system thread).1 thread :=
    .zAbortThreadTimeout
  have aborted := queues.zAbortThreadTimeout thread
  unfold kThreadSuspend
  dsimp only
  split
  · rename_i suspended
    refine .touched touches (aborted.tighten thread ?_) cache
    intro ready
    simp [zIsThreadReady, zIsThreadPreventedFromRunning, suspended] at ready
  · have halted : Result context _ _ loose :=
      (Halting.suspend aborted (touches.cacheFits cache)).result
    exact ⟨halted.queues, halted.cache,
      fun notIsr running => halted.running notIsr (touches.running running)⟩

theorem Result.abort (queues : system.Queues loose) (cache : system.CacheFits)
    (aborts : kThreadAbort context system thread = some later)
    : Result context system later loose := by
  unfold kThreadAbort at aborts
  split at aborts
  · cases aborts
  · split at aborts
    · cases aborts
      exact .same queues cache
    · cases aborts
      exact (Halting.abort (queues.loosen thread) cache).result

end Zephyr.Kernel.Sched
