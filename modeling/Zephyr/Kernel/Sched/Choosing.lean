import Zephyr.Kernel.Sched.Protection

/-! Operations that choose the next thread with `preempt_ok` set: they leave a guarded thread
running only if it is first in the run queue afterwards.
-/

namespace Zephyr.Kernel.Sched

open Zephyr.Library

/-- The current thread is first in the run queue once `thread` has left it. -/
def System.FirstWithout (system : System) (thread : Nat) : Prop :=
  (system.runq.erase thread).head? = some system.current

/-- A waiter as `unpend_thread_no_timeout` and `z_abort_thread_timeout` leave it. -/
def Thread.unpended (thread : Thread) : Thread :=
  match thread.pendedOn with
  | none => { thread with timeoutActive := false }
  | some _ =>
      { zMarkThreadAsNotPending thread with pendedOn := none, timeoutActive := false }

/-- The operation does not choose another thread against the current one: it halts no thread,
or the current thread is first among those that are ready afterwards.
-/
def Operation.Undisturbed (system : System) : Operation → Prop
  | .suspend thread =>
      (system.threads thread).state.suspended = true ∨ system.FirstWithout thread
  | .abort thread =>
      (system.threads thread).state.dead = true
      ∨ system.FirstWithout thread
        ∧ ∀ waiter ∈ system.waitq (.join thread),
            waiter ≠ thread
            → zIsThreadReady (system.threads waiter).unpended = true
            → (system.threads system.current).prio ≤ (system.threads waiter).prio
  | _ => True

/-- The same for a new priority, which takes a ready thread out of the run queue and puts it
back.
-/
def System.PrioUndisturbed (system : System) (thread : Nat) (prio : Int) : Prop :=
  zIsThreadReady (system.threads thread) = true
  → (system.threads thread).state.queued = true
    ∧ system.FirstWithout thread
    ∧ (system.threads system.current).prio ≤ prio

instance (system : System) (thread : Nat) : Decidable (system.FirstWithout thread) :=
  inferInstanceAs (Decidable (_ = _))

instance (system : System) : (operation : Operation) → Decidable (operation.Undisturbed system)
  | .suspend thread => inferInstanceAs (Decidable (_ ∨ system.FirstWithout thread))
  | .abort thread =>
      inferInstanceAs
        (Decidable (_ ∨ system.FirstWithout thread ∧ ∀ waiter ∈ _, waiter ≠ _ → _ → _))
  | .start _ | .scheduleNew .. | .resume _ | .wakeup _ | .unpend _ | .unpendNoTimeout _
  | .unpendFirst _ | .unpend1NoTimeout _ | .unpendAll _ | .ready _ | .wake .. => .isTrue trivial

instance (system : System) (thread : Nat) (prio : Int)
    : Decidable (system.PrioUndisturbed thread prio) :=
  inferInstanceAs (Decidable (_ → _ ∧ system.FirstWithout thread ∧ _))

variable {context : Context} {system later : System} {loose : Nat → Prop}
  {thread other : Nat}

/-! ### The first thread of the run queue -/

theorem head?_zPriqDumbAdd {prio : Nat → Int} {queue : List Nat} {first : Nat}
    (head : queue.head? = some first) (notUrgent : prio first ≤ prio thread)
    : (zPriqDumbAdd prio thread queue).head? = some first := by
  cases queue with
  | nil => cases head
  | cons found rest =>
      cases head
      rw [zPriqDumbAdd, if_neg (fun urgent => by
        have := zSchedPrioCmp_pos.mp urgent
        omega)]
      rfl

theorem dequeueIfQueued_runq (queues : system.Queues loose)
    : (dequeueIfQueued system thread).runq = system.runq.erase thread := by
  unfold dequeueIfQueued
  split
  · rfl
  · rename_i unqueued
    exact (List.erase_of_not_mem
      (fun member => unqueued ((queues.fits thread).linked.mp member))).symm

theorem readyThread_head {first : Nat} (head : system.runq.head? = some first)
    (notUrgent
      : zIsThreadReady (system.threads thread) = true
        → (system.threads first).prio ≤ (system.threads thread).prio)
    : (readyThread system thread).runq.head? = some first := by
  unfold readyThread
  split
  · rename_i joins
    simp only [Bool.and_eq_true] at joins
    have prio : (fun found => ((system.modify thread (Thread.setQueued true)).threads found).prio)
        = (fun found => (system.threads found).prio) :=
      System.modify_prio rfl
    change (zPriqDumbAdd (fun found =>
      ((system.modify thread (Thread.setQueued true)).threads found).prio) thread
      system.runq).head? = some first
    rw [prio]
    exact head?_zPriqDumbAdd head (notUrgent joins.2)
  · exact head

theorem readyThread_other (ne : other ≠ thread)
    : (readyThread system thread).threads other = system.threads other := by
  unfold readyThread
  split
  · exact queueThread_other ne
  · rfl

theorem zUnpendThread_self
    : (zUnpendThread system thread).threads thread = (system.threads thread).unpended := by
  rw [zUnpendThread, zAbortThreadTimeout_self, Thread.unpended]
  cases waits : (system.threads thread).pendedOn with
  | none => simp only [unpendThreadNoTimeout, waits]
  | some waitQ =>
      rw [unpendThreadNoTimeout_eq waits]
      simp only [System.modify_self]

theorem zUnpendThread_runq : (zUnpendThread system thread).runq = system.runq := by
  unfold zUnpendThread zAbortThreadTimeout unpendThreadNoTimeout
  split <;> (split <;> rfl)

theorem zUnpendThread_mem_waitq {waitQ : WaitQ} {waiter : Nat}
    (member : waiter ∈ (zUnpendThread system thread).waitq waitQ)
    : waiter ∈ system.waitq waitQ := by
  have unpended : waiter ∈ (unpendThreadNoTimeout system thread).waitq waitQ := by
    unfold zUnpendThread zAbortThreadTimeout at member
    split at member <;> exact member
  cases waits : (system.threads thread).pendedOn with
  | none => simpa only [unpendThreadNoTimeout, waits] using unpended
  | some found =>
      rw [unpendThreadNoTimeout_eq waits] at unpended
      by_cases here : waitQ = found
      · subst here
        exact List.mem_of_mem_erase (by simpa using unpended)
      · simpa [here] using unpended

theorem dequeueIfQueued_waitq : (dequeueIfQueued system thread).waitq = system.waitq := by
  unfold dequeueIfQueued
  split <;> rfl

/-! ### Suspend and abort -/

theorem halted_runq (change : Thread → Thread) (queues : system.Queues loose)
    (queued : ∀ found : Thread, (change found).state.queued = found.state.queued)
    (commutes : ∀ found : Thread, (change found).setQueued false = change (found.setQueued false))
    : (dequeueIfQueued (system.modify thread change) thread).runq = system.runq.erase thread := by
  rw [dequeueIfQueued_modify queued commutes]
  exact dequeueIfQueued_runq queues

theorem zThreadHalt_other {terminate : Bool} (ne : thread ≠ system.current)
    : zThreadHalt context system thread terminate = haltThread system thread terminate := by
  rw [zThreadHalt]
  exact if_neg (fun self => ne self.1)

namespace System.Steady

theorem suspend (steady : system.Steady loose) (ne : thread ≠ system.current)
    (undisturbed
      : (system.threads thread).state.suspended = true ∨ system.FirstWithout thread)
    : system.Keeps (kThreadSuspend context system thread) := by
  have queues := steady.queues.zAbortThreadTimeout thread
  have keeps := steady.keeps.zAbortThreadTimeout ne
  have runq : (zAbortThreadTimeout system thread).1.runq = system.runq := by
    unfold zAbortThreadTimeout
    split <;> rfl
  have same : ((zAbortThreadTimeout system thread).1.threads thread).state
      = (system.threads thread).state := by
    rw [zAbortThreadTimeout_self]
  unfold kThreadSuspend
  dsimp only
  split
  · exact keeps
  · rename_i running
    rw [zThreadHalt_other (by rw [keeps.current]; exact ne), haltThread]
    simp only [Bool.false_eq_true, if_false, if_neg running]
    refine ((keeps.touch ne (.modify rfl) rfl).dequeueIfQueued ne).updateCache_first ?_
    rw [halted_runq zMarkThreadAsSuspended queues (fun _ => rfl) (fun _ => rfl), runq]
    rw [same] at running
    exact undisturbed.resolve_left running

/-- What the loop of `unpend_all` keeps for the threads that wait for `thread` to end. -/
structure Joining (system later : System) (loose : Nat → Prop) (thread : Nat) : Prop where
  queues : later.Queues loose
  keeps : system.Keeps later
  first : later.runq.head? = some system.current
  waiters
    : ∀ waiter ∈ later.waitq (.join thread),
        zIsThreadReady (later.threads waiter).unpended = true
        → (system.threads system.current).prio ≤ (later.threads waiter).prio

theorem unpended_prio (found : Thread) : found.unpended.prio = found.prio := by
  unfold Thread.unpended
  split <;> rfl

theorem unpended_dead (found : Thread) : found.unpended.state.dead = found.state.dead := by
  unfold Thread.unpended
  split <;> rfl

theorem Joining.turn (guarded : system.Guarded) (joining : Joining system later loose thread)
    : Joining system (unpendAllTurn (.join thread) later) loose thread := by
  have queues := joining.queues
  unfold unpendAllTurn
  split
  · exact joining
  · rename_i found rest waiting
    have member : found ∈ later.waitq (.join thread) := by simp [waiting]
    have ne := joining.keeps.waiter_ne guarded queues member
    have waits := ((queues.fits found).waiting _).mp member
    have touches : later.Touches ((zUnpendThread later found).modify found
        (fun thread => { thread with swapRetval := 0 })) found :=
      System.Touches.zUnpendThread.trans (.modify rfl)
    have written : ((zUnpendThread later found).modify found
        (fun thread => { thread with swapRetval := 0 })).Queues
          (fun other => loose other ∨ other = found) :=
      queues.zUnpendThread.sameBits found (fun _ => rfl) (fun _ => ⟨rfl, rfl, rfl⟩)
    have keeps : system.Keeps ((zUnpendThread later found).modify found
        (fun thread => { thread with swapRetval := 0 })) :=
      (joining.keeps.zUnpendThread ne).touch ne (.modify rfl) rfl
    refine ⟨written.readyThread (queues.waiter_ne_idle member),
      keeps.readyThread guarded written ne (queues.waiter_ne_idle member), ?_, ?_⟩
    · refine readyThread_head ?_ ?_
      · exact (congrArg List.head? zUnpendThread_runq).trans joining.first
      · intro ready
        rw [System.modify_self] at ready
        rw [keeps.running, System.modify_self]
        dsimp only
        rw [zUnpendThread_self, unpended_prio]
        exact joining.waiters found member (by rw [← zUnpendThread_self]; exact ready)
    · intro waiter still ready
      rw [readyThread_waitq] at still
      have old : waiter ∈ (later.waitq (.join thread)).erase found := by
        rw [← zUnpendThread_waitq waits]
        exact still
      have other : waiter ≠ found := by
        rintro rfl
        exact (queues.waitOnce _).not_mem_erase old
      have same : (Sched.readyThread ((zUnpendThread later found).modify found
          (fun thread => { thread with swapRetval := 0 })) found).threads waiter
            = later.threads waiter :=
        (readyThread_other other).trans (touches.others waiter other)
      rw [same] at ready ⊢
      exact joining.waiters waiter (List.mem_of_mem_erase old) ready

theorem Joining.loop (guarded : system.Guarded) (joining : Joining system later loose thread)
    : Joining system (Sched.unpendAll later (.join thread)) loose thread :=
  Function.Iterate.rec (fun later => Joining system later loose thread) joining
    (fun _ => Joining.turn guarded) _

theorem abort (steady : system.Steady loose) (ne : thread ≠ system.current)
    (undisturbed : (Operation.abort thread).Undisturbed system)
    (aborts : kThreadAbort context system thread = some later)
    : system.Keeps later := by
  unfold kThreadAbort at aborts
  split at aborts
  · cases aborts
  · split at aborts
    · cases aborts
      exact steady.keeps
    · rename_i alive
      cases aborts
      obtain ⟨first, waiters⟩ := undisturbed.resolve_left alive
      rw [zThreadHalt_other ne, haltThread]
      simp only [if_true, if_neg alive]
      have joining : Joining system (Sched.zUnpendThread (Sched.dequeueIfQueued
          (system.modify thread Thread.setDead) thread) thread) loose thread := by
        refine ⟨(steady.queues.loosen thread).setDead, ?_, ?_, ?_⟩
        · exact ((steady.keeps.touch ne (.modify rfl) rfl).dequeueIfQueued ne).zUnpendThread ne
        · rw [zUnpendThread_runq, halted_runq Thread.setDead steady.queues (fun _ => rfl)
            (fun _ => rfl)]
          exact first
        · intro waiter member ready
          by_cases self : waiter = thread
          · subst self
            rw [zUnpendThread_self, dequeueIfQueued_self, System.modify_self] at ready
            simp [zIsThreadReady, zIsThreadPreventedFromRunning, unpended_dead, Thread.setDead,
              Thread.setQueued] at ready
          · have same : (Sched.zUnpendThread (Sched.dequeueIfQueued
                (system.modify thread Thread.setDead) thread) thread).threads waiter
                  = system.threads waiter := by
              rw [System.Touches.zUnpendThread.others waiter self, dequeueIfQueued_other self,
                System.modify_other _ self]
            rw [same] at ready ⊢
            refine waiters waiter ?_ self ready
            have before := zUnpendThread_mem_waitq member
            rwa [dequeueIfQueued_waitq] at before
      exact (joining.loop steady.guarded).keeps.updateCache_first
        (joining.loop steady.guarded).first

/-! ### Priorities -/

theorem prioSet {prio : Int} (steady : system.Steady loose) (ne : thread ≠ system.current)
    (undisturbed : system.PrioUndisturbed thread prio)
    : system.Keeps (zThreadPrioSet system thread prio).1 := by
  unfold zThreadPrioSet
  split
  · rename_i ready
    obtain ⟨queued, first, notUrgent⟩ := undisturbed ready
    have dequeued : system.Keeps (dequeueThread system thread) := by
      have keeps := steady.keeps.dequeueIfQueued ne
      rwa [Sched.dequeueIfQueued, if_pos queued] at keeps
    refine ((dequeued.touch ne (.modify rfl) rfl).queueThread ne).updateCache_first ?_
    refine head?_zPriqDumbAdd first ?_
    rw [System.modify_other _ ne.symm, System.modify_other _ ne.symm, dequeueThread_other ne.symm,
      System.modify_self]
    simpa [Thread.setQueued] using notUrgent
  · dsimp only
    exact steady.keeps.touch ne (.modify rfl) rfl

theorem prioritySet {prio : Int} (steady : system.Steady loose) (ne : thread ≠ system.current)
    (undisturbed : system.PrioUndisturbed thread prio)
    : system.Keeps (kThreadPrioritySet context system thread prio) := by
  have keeps := steady.prioSet ne undisturbed
  unfold kThreadPrioritySet
  dsimp only
  split
  · exact keeps.zReschedule
  · exact keeps

theorem perform {operation : Operation} (steady : system.Steady loose)
    (notIdle : operation.target ≠ some idleThread)
    (others : operation.target ≠ some system.current)
    (undisturbed : operation.Undisturbed system)
    (performed : perform context system operation = some later)
    : system.Keeps later := by
  have named {thread : Nat} (target : operation.target = some thread)
      : thread ≠ system.current ∧ thread ≠ idleThread :=
    ⟨fun same => others (same ▸ target), fun same => notIdle (same ▸ target)⟩
  cases operation with
  | start thread =>
      cases performed
      exact steady.start (named rfl).1 (named rfl).2
  | scheduleNew thread delay =>
      simp only [Sched.perform] at performed
      split at performed
      · cases performed
        exact steady.scheduleNew (named rfl).1 (named rfl).2
      · cases performed
  | suspend thread =>
      cases performed
      exact steady.suspend (named rfl).1 undisturbed
  | resume thread =>
      cases performed
      exact steady.resume (named rfl).1 (named rfl).2
  | wakeup thread =>
      cases performed
      exact steady.wakeup (named rfl).1 (named rfl).2
  | abort thread => exact steady.abort (named rfl).1 undisturbed performed
  | unpend thread =>
      cases performed
      exact steady.keeps.zUnpendThread (named rfl).1
  | unpendNoTimeout thread =>
      cases performed
      exact steady.keeps.unpendThreadNoTimeout (named rfl).1
  | unpendFirst waitQ =>
      cases performed
      simp only [zUnpendFirstThread]
      split
      · exact steady.keeps
      · rename_i found rest first
        have member : found ∈ system.waitq waitQ := by simp [first]
        exact steady.keeps.zUnpendThread
          (steady.keeps.waiter_ne steady.guarded steady.queues member)
  | unpend1NoTimeout waitQ =>
      cases performed
      simp only [zUnpend1NoTimeout]
      split
      · exact steady.keeps
      · rename_i found rest first
        have member : found ∈ system.waitq waitQ := by simp [first]
        exact steady.keeps.unpendThreadNoTimeout
          (steady.keeps.waiter_ne steady.guarded steady.queues member)
  | unpendAll waitQ =>
      cases performed
      exact steady.unpendAll
  | ready thread =>
      cases performed
      exact steady.keeps.readyThread steady.guarded (steady.queues.loosen thread) (named rfl).1
        (named rfl).2
  | wake waitQ swapRetval swapData =>
      cases performed
      exact steady.wakeFirst swapRetval swapData

end System.Steady

end Zephyr.Kernel.Sched
