import Zephyr.Kernel.Sched.Operations

/-! What the operations of the running thread on itself keep, and its priority changes. -/

namespace Zephyr.Kernel.Sched

open Zephyr.Library

variable {context : Context} {system later : System} {loose : Nat → Prop}
  {thread other : Nat}

theorem System.Fits.of_queued (fits : system.Fits loose thread)
    (queued : (system.threads thread).state.queued = true)
    : (system.threads thread).timeoutActive = false
      ∧ (system.threads thread).pendedOn = none
      ∧ thread ≠ idleThread := by
  have ready := fits.runnable queued
  simp only [zIsThreadReady, zIsThreadPreventedFromRunning, Bool.not_eq_true',
    Bool.or_eq_false_iff] at ready
  refine ⟨ready.2, ?_, ?_⟩
  · by_contra waits
    simp [fits.pended waits] at ready
  · intro idle
    simp [(fits.idle idle).1] at queued

/-! ### Waiting -/

/-- A thread that is in no queue. -/
structure System.Unlinked (system : System) (thread : Nat) : Prop where
  notIdle : thread ≠ idleThread
  queued : (system.threads thread).state.queued = false
  free : (system.threads thread).pendedOn = none
  inactive : (system.threads thread).timeoutActive = false

/-- A thread that is in no queue is blocked: whatever was loose about it is not any more. -/
theorem System.Queues.block {change : Thread → Thread}
    (queues : system.Queues (fun other => loose other ∨ other = thread))
    (unlinked : system.Unlinked thread)
    (prio : (change (system.threads thread)).prio = (system.threads thread).prio)
    (queued : (change (system.threads thread)).state.queued = false)
    (pendedOn
      : (change (system.threads thread)).pendedOn = none)
    (blocks : zIsThreadReady (change (system.threads thread)) = false)
    : (system.modify thread change).Queues loose := by
  have marked := queues.bits prio (queued.trans unlinked.queued.symm)
    (pendedOn.trans unlinked.free.symm) (fun waits => absurd unlinked.free waits)
    (fun linked => by simp [unlinked.queued] at linked)
  refine marked.merge.tighten thread ?_
  rw [System.modify_self, blocks]
  exact fun ready => nomatch ready

/-- What a thread that is to wait looks like before: in the run queue or in no queue. -/
structure System.MayWait (system : System) (thread : Nat) : Prop where
  notIdle : thread ≠ idleThread
  free : (system.threads thread).pendedOn = none
  inactive : (system.threads thread).timeoutActive = false

theorem System.Fits.mayWait (fits : system.Fits loose thread)
    (queued : (system.threads thread).state.queued = true)
    : system.MayWait thread :=
  have facts := fits.of_queued queued
  ⟨facts.2.2, facts.2.1, facts.1⟩

theorem unreadyThread_self
    : (unreadyThread system thread).threads thread
      = (system.threads thread).setQueued false :=
  dequeueIfQueued_self

theorem System.MayWait.unlinked (may : system.MayWait thread)
    : (unreadyThread system thread).Unlinked thread :=
  ⟨may.notIdle, by rw [unreadyThread_self]; rfl, by rw [unreadyThread_self]; exact may.free,
    by rw [unreadyThread_self]; exact may.inactive⟩

theorem System.Queues.unreadyThread (queues : system.Queues loose)
    : (unreadyThread system thread).Queues (fun other => loose other ∨ other = thread) :=
  queues.dequeueIfQueued.updateCache _

theorem unreadyThread_fits (queues : system.Queues loose)
    (runs : thread = system.current ∨ system.Running)
    : (unreadyThread system thread).CacheFits := by
  refine updateCache_fits queues.dequeueIfQueued ?_
  by_cases self : thread = system.current
  · exact .inl (by simp [self])
  · exact .inr (.inl ((runs.resolve_left self).dequeueIfQueued self))

theorem markPending_not_ready (found : Thread)
    : zIsThreadReady (zMarkThreadAsPending found) = false := by
  simp [zIsThreadReady, zIsThreadPreventedFromRunning, zMarkThreadAsPending]

theorem System.Queues.zAddThreadTimeout {timeout : KTimeout} (queues : system.Queues loose)
    (queued : (system.threads thread).state.queued = false)
    (inactive : (system.threads thread).timeoutActive = false)
    : (zAddThreadTimeout system thread timeout).Queues loose := by
  unfold Sched.zAddThreadTimeout
  split
  · exact queues
  · have marked : (system.modify thread
        (fun thread => { thread with timeoutActive := true })).Queues loose := by
      refine (queues.bits rfl rfl rfl (fun _ => id)
        (fun linked => by simp [queued] at linked)).tighten thread ?_
      simp [zIsThreadReady]
    rw [inactive, Bool.or_false]
    exact marked

theorem System.Touches.zAddThreadTimeout {timeout : KTimeout}
    : system.Touches (zAddThreadTimeout system thread timeout) thread := by
  unfold Sched.zAddThreadTimeout
  split
  · exact refl system thread
  · exact ⟨fun _ ne => Function.update_of_ne ne .., by simp, rfl, rfl⟩

theorem addToWaitqLocked_spec (waitQ : Option WaitQ) (queues : system.Queues loose)
    (may : system.MayWait thread)
    : (addToWaitqLocked system thread waitQ).Queues loose
      ∧ (unreadyThread system thread).Touches (addToWaitqLocked system thread waitQ) thread
      ∧ ((addToWaitqLocked system thread waitQ).threads thread).timeoutActive = false := by
  have unlinked := may.unlinked
  have pending : ((unreadyThread system thread).modify thread zMarkThreadAsPending).Queues
      loose :=
    queues.unreadyThread.block unlinked rfl unlinked.queued unlinked.free
      (markPending_not_ready _)
  have touches : (unreadyThread system thread).Touches
      ((unreadyThread system thread).modify thread zMarkThreadAsPending) thread :=
    .modify rfl
  unfold addToWaitqLocked
  cases waitQ with
  | none =>
      refine ⟨pending, touches, ?_⟩
      simpa [zMarkThreadAsPending] using unlinked.inactive
  | some waitQ =>
      refine ⟨?_, ?_, ?_⟩
      · refine pending.joinWaitq may.notIdle ?_ ?_
        · simpa [zMarkThreadAsPending] using unlinked.free
        · simp [zMarkThreadAsPending]
      · refine touches.trans ⟨fun _ ne => Function.update_of_ne ne .., ?_, rfl, rfl⟩
        simp
      · simpa [zMarkThreadAsPending] using unlinked.inactive

theorem pendLocked_spec (waitQ : Option WaitQ) (timeout : KTimeout)
    (queues : system.Queues loose) (may : system.MayWait thread)
    : (pendLocked system thread waitQ timeout).Queues loose
      ∧ (unreadyThread system thread).Touches (pendLocked system thread waitQ timeout)
          thread := by
  obtain ⟨added, touches, inactive⟩ := addToWaitqLocked_spec waitQ queues may
  refine ⟨added.zAddThreadTimeout ?_ inactive, touches.trans .zAddThreadTimeout⟩
  rw [touches.queued]
  exact may.unlinked.queued

theorem Result.pend (waitQ : Option WaitQ) (timeout : KTimeout) (queues : system.Queues loose)
    (may : system.MayWait system.current)
    : Result context system (zSwap (pendLocked system system.current waitQ timeout)) loose := by
  obtain ⟨waits, touches⟩ := pendLocked_spec waitQ timeout queues may
  exact .swap waits (touches.cacheFits (unreadyThread_fits queues (.inl rfl)))

theorem Result.pendDummy (waitQ : Option WaitQ) (timeout : KTimeout)
    (queues : system.Queues loose) (may : system.MayWait thread) (running : system.Running)
    (ne : thread ≠ system.current)
    : Result context system (pendLocked system thread waitQ timeout) loose := by
  obtain ⟨waits, touches⟩ := pendLocked_spec waitQ timeout queues may
  refine ⟨waits, touches.cacheFits (unreadyThread_fits queues (.inr running)), ?_⟩
  intro _ _ _
  exact touches.running (running.dequeueIfQueued ne)

/-! ### Yield, sleep and priorities -/

theorem Result.yield (queues : system.Queues loose)
    (queued : (system.threads system.current).state.queued = true)
    : Result context system (kYield system) loose := by
  have fits := queues.fits system.current
  have requeued : (queueThread (dequeueThread system system.current) system.current).Queues
      loose := by
    refine (queues.dequeueThread queued).queueThread (fits.of_queued queued).2.2 ?_ ?_
    · rw [dequeueThread_self]
      rfl
    · rw [dequeueThread_self]
      exact fits.runnable queued
  exact .swap (requeued.updateCache true) (updateCache_fits requeued (.inl rfl))

theorem Result.sleep (ticks : Int64) (queues : system.Queues loose)
    (queued : (system.threads system.current).state.queued = true)
    : Result context system (zTickSleep system ticks) loose := by
  have may := (queues.fits system.current).mayWait queued
  have unlinked := may.unlinked
  unfold zTickSleep
  split
  · exact .yield queues queued
  · have timed : (zAddThreadTimeout (unreadyThread system system.current) system.current
        ⟨ticks⟩).Queues (fun other => loose other ∨ other = system.current) :=
      queues.unreadyThread.zAddThreadTimeout unlinked.queued unlinked.inactive
    have touches : (unreadyThread system system.current).Touches
        (zAddThreadTimeout (unreadyThread system system.current) system.current ⟨ticks⟩)
        system.current :=
      .zAddThreadTimeout
    have asleep : ((zAddThreadTimeout (unreadyThread system system.current) system.current
        ⟨ticks⟩).modify system.current zMarkThreadAsSuspended).Queues loose := by
      refine (timed.bits rfl rfl rfl (fun _ => id) ?_).merge.tighten system.current ?_
      · exact fun linked => by simp [touches.queued, unlinked.queued] at linked
      · simp [markSuspended_not_ready]
    have cache := unreadyThread_fits queues (.inl rfl)
    exact .swap asleep ((touches.trans (.modify rfl)).cacheFits cache)

theorem System.Running.zThreadPrioSet {prio : Int} (running : system.Running)
    : (zThreadPrioSet system thread prio).1.Running := by
  unfold Sched.zThreadPrioSet
  split
  · refine running.imp_right ?_
    intro queued
    by_cases self : system.current = thread
    · change ((Sched.queueThread _ thread).threads system.current).state.queued = true
      rw [self, queueThread_self]
      rfl
    · change ((Sched.queueThread _ thread).threads system.current).state.queued = true
      rwa [queueThread_other self, System.modify_other _ self, dequeueThread_other self]
  · exact (Touches.modify rfl).running running

theorem Result.prioSet (prio : Int) (queues : system.Queues loose) (cache : system.CacheFits)
    (notIdle : thread ≠ idleThread)
    (ready
      : zIsThreadReady (system.threads thread) = true
        → (system.threads thread).state.queued = true)
    : Result context system (zThreadPrioSet system thread prio).1 loose := by
  have fits := queues.fits thread
  suffices changes : (zThreadPrioSet system thread prio).1.Queues loose
      ∧ (zThreadPrioSet system thread prio).1.CacheFits from
    ⟨changes.1, changes.2, fun _ running _ => running.zThreadPrioSet⟩
  unfold zThreadPrioSet
  split
  · rename_i isReady
    have queued := ready isReady
    have absent : thread ∉ (dequeueThread system thread).runq := queues.once.not_mem_erase
    have changed : ((dequeueThread system thread).modify thread
        (fun thread => { thread with prio := prio })).Queues
          (fun other => loose other ∨ other = thread) :=
      (queues.dequeueThread queued).sameBits thread (fun member => absurd member absent)
        (fun _ => ⟨rfl, rfl, rfl⟩)
    have requeued : (queueThread ((dequeueThread system thread).modify thread
        (fun thread => { thread with prio := prio })) thread).Queues loose := by
      refine changed.queueThread notIdle ?_ ?_
      · simp [Thread.setQueued]
      · simpa [zIsThreadReady, zIsThreadPreventedFromRunning, Thread.setQueued] using isReady
    exact ⟨requeued.updateCache true, updateCache_fits requeued (.inl rfl)⟩
  · rename_i notReady
    have absent : thread ∉ system.runq := fun member =>
      notReady (fits.runnable (fits.linked.mp member))
    dsimp only
    exact ⟨queues.sameBits thread (fun member => absurd member absent)
      (fun _ => ⟨rfl, rfl, rfl⟩), (System.Touches.modify rfl).cacheFits cache⟩

theorem Result.prioritySet (prio : Int) (queues : system.Queues loose)
    (cache : system.CacheFits) (notIdle : thread ≠ idleThread)
    (ready
      : zIsThreadReady (system.threads thread) = true
        → (system.threads thread).state.queued = true)
    : Result context system (kThreadPrioritySet context system thread prio) loose := by
  have changed : Result context system (zThreadPrioSet system thread prio).1 loose :=
    .prioSet prio queues cache notIdle ready
  unfold kThreadPrioritySet
  dsimp only
  split
  · exact changed.reschedule
  · exact changed

theorem Result.schedLock (queues : system.Queues loose) (cache : system.CacheFits)
    : Result context system (kSchedLock system) loose :=
  .touched (.modify rfl)
    (queues.sameBits system.current (fun _ => rfl) (fun _ => ⟨rfl, rfl, rfl⟩)) cache

theorem Result.schedUnlock (queues : system.Queues loose) (running : system.Running)
    : Result context system (kSchedUnlock context system) loose := by
  have unlocked : (system.modify system.current
      (fun thread => { thread with schedLocked := thread.schedLocked + 1 })).Queues loose :=
    queues.sameBits system.current (fun _ => rfl) (fun _ => ⟨rfl, rfl, rfl⟩)
  have touches : system.Touches (system.modify system.current
      (fun thread => { thread with schedLocked := thread.schedLocked + 1 })) system.current :=
    .modify rfl
  have runs := touches.running running
  exact Result.reschedule ⟨unlocked.updateCache false,
    updateCache_fits unlocked (.inr (.inl runs)), fun _ _ _ => runs⟩

end Zephyr.Kernel.Sched
