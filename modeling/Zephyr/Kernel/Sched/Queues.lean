import Zephyr.Kernel.Sched.Model

/-! What holds between the queues, the bits and the timeouts of the threads, and how each part
of the scheduler keeps it.
-/

namespace Zephyr.Kernel.Sched

open Zephyr.Library

/-- What holds of one thread. Threads that are `loose` may be ready without being queued. -/
structure System.Fits (system : System) (loose : Nat → Prop) (thread : Nat) : Prop where
  linked : thread ∈ system.runq ↔ (system.threads thread).state.queued = true
  runnable
    : (system.threads thread).state.queued = true
      → zIsThreadReady (system.threads thread) = true
  waiting
    : ∀ waitQ, thread ∈ system.waitq waitQ ↔ (system.threads thread).pendedOn = some waitQ
  pended
    : (system.threads thread).pendedOn ≠ none → (system.threads thread).state.pending = true
  settled
    : thread ≠ idleThread
      → zIsThreadReady (system.threads thread) = true
      → (system.threads thread).state.queued = true ∨ loose thread
  idle
    : thread = idleThread
      → (system.threads thread).state.queued = false
        ∧ (system.threads thread).pendedOn = none

/-- What holds of the queues: no thread is in one twice, the run queue is ordered by priority
and then by insertion, and no list operation has been undefined.
-/
structure System.Queues (system : System) (loose : Nat → Prop) : Prop where
  fits : ∀ thread, system.Fits loose thread
  once : system.runq.Nodup
  sorted
    : system.runq.Pairwise
        (Precedes (fun thread => (system.threads thread).prio) system.queuedAt)
  stamped : ∀ thread ∈ system.runq, system.queuedAt thread < system.insertions
  waitOnce : ∀ waitQ, (system.waitq waitQ).Nodup
  intact : system.fault = false

variable {system : System} {loose : Nat → Prop} {thread other : Nat}

@[simp]
theorem System.modify_self (change : Thread → Thread)
    : (system.modify thread change).threads thread = change (system.threads thread) :=
  Function.update_self ..

theorem System.modify_other (change : Thread → Thread) (ne : other ≠ thread)
    : (system.modify thread change).threads other = system.threads other :=
  Function.update_of_ne ne ..

theorem System.modify_prio {change : Thread → Thread}
    (same : (change (system.threads thread)).prio = (system.threads thread).prio)
    : (fun found => ((system.modify thread change).threads found).prio)
      = (fun found => (system.threads found).prio) := by
  funext found
  by_cases self : found = thread
  · subst self
    simpa using same
  · rw [System.modify_other change self]

theorem System.Fits.congr {later : System} {loose' : Nat → Prop}
    (fits : system.Fits loose other) (same : later.threads other = system.threads other)
    (runq : other ∈ later.runq ↔ other ∈ system.runq)
    (waitq : ∀ waitQ, other ∈ later.waitq waitQ ↔ other ∈ system.waitq waitQ)
    (more : loose other → loose' other)
    : later.Fits loose' other := by
  refine ⟨?_, ?_, ?_, ?_, ?_, ?_⟩
  all_goals rw [same]
  · exact runq.trans fits.linked
  · exact fits.runnable
  · exact fun waitQ => (waitq waitQ).trans (fits.waiting waitQ)
  · exact fits.pended
  · exact fun ne ready => (fits.settled ne ready).imp_right more
  · exact fits.idle

theorem System.Queues.change {later : System} {loose' : Nat → Prop}
    (queues : system.Queues loose)
    (others : ∀ other ≠ thread, later.threads other = system.threads other)
    (more : ∀ other ≠ thread, loose other → loose' other)
    (waitq
      : ∀ other ≠ thread, ∀ waitQ, other ∈ later.waitq waitQ ↔ other ∈ system.waitq waitQ)
    (runq : later.runq = system.runq) (queuedAt : later.queuedAt = system.queuedAt)
    (insertions : later.insertions = system.insertions)
    (prio
      : thread ∈ system.runq → (later.threads thread).prio = (system.threads thread).prio)
    (fits : later.Fits loose' thread) (waitOnce : ∀ waitQ, (later.waitq waitQ).Nodup)
    (intact : later.fault = false)
    : later.Queues loose' := by
  refine ⟨?_, by rw [runq]; exact queues.once, ?_, ?_, waitOnce, intact⟩
  · intro found
    by_cases self : found = thread
    · exact self ▸ fits
    · exact (queues.fits found).congr (others found self) (by rw [runq]) (waitq found self)
        (more found self)
  · have same : ∀ found ∈ system.runq,
        (later.threads found).prio = (system.threads found).prio := by
      intro found member
      by_cases self : found = thread
      · subst self
        exact prio member
      · rw [others found self]
    rw [runq, queuedAt]
    refine queues.sorted.imp_of_mem ?_
    intro left right leftMember rightMember before
    simpa only [Precedes, same left leftMember, same right rightMember] using before
  · rw [runq, queuedAt, insertions]
    exact queues.stamped

theorem System.Queues.modify {change : Thread → Thread} {loose' : Nat → Prop}
    (queues : system.Queues loose)
    (more : ∀ other ≠ thread, loose other → loose' other)
    (prio
      : thread ∈ system.runq
        → (change (system.threads thread)).prio = (system.threads thread).prio)
    (fits : (system.modify thread change).Fits loose' thread)
    : (system.modify thread change).Queues loose' :=
  queues.change (fun _ => System.modify_other change) more (fun _ _ _ => Iff.rfl) rfl rfl rfl
    (fun member => by simpa using prio member) fits queues.waitOnce queues.intact

theorem System.Queues.bits {change : Thread → Thread} (queues : system.Queues loose)
    (prio : (change (system.threads thread)).prio = (system.threads thread).prio)
    (queued
      : (change (system.threads thread)).state.queued = (system.threads thread).state.queued)
    (pendedOn
      : (change (system.threads thread)).pendedOn = (system.threads thread).pendedOn)
    (pending
      : (system.threads thread).pendedOn ≠ none
        → (system.threads thread).state.pending = true
        → (change (system.threads thread)).state.pending = true)
    (runnable
      : (system.threads thread).state.queued = true
        → zIsThreadReady (system.threads thread) = true
        → zIsThreadReady (change (system.threads thread)) = true)
    : (system.modify thread change).Queues (fun other => loose other ∨ other = thread) := by
  have fits := queues.fits thread
  refine queues.modify (fun _ _ => .inl) (fun _ => prio) ⟨?_, ?_, ?_, ?_, ?_, ?_⟩
  all_goals simp only [System.modify_self, System.modify_runq, System.modify_waitq]
  · rw [queued]
    exact fits.linked
  · rw [queued]
    exact fun linked => runnable linked (fits.runnable linked)
  · rw [pendedOn]
    exact fits.waiting
  · rw [pendedOn]
    exact fun waits => pending waits (fits.pended waits)
  · exact fun _ _ => .inr (.inr trivial)
  · rw [queued, pendedOn]
    exact fits.idle

theorem System.Queues.mono {loose' : Nat → Prop} (queues : system.Queues loose)
    (more : ∀ other, loose other → loose' other)
    : system.Queues loose' :=
  { queues with
    fits := fun found =>
      (queues.fits found).congr rfl Iff.rfl (fun _ => Iff.rfl) (more found) }

theorem System.Queues.loosen (thread : Nat) (queues : system.Queues loose)
    : system.Queues (fun other => loose other ∨ other = thread) :=
  queues.mono (fun _ => .inl)

theorem System.Queues.merge
    (queues : system.Queues (fun other => (loose other ∨ other = thread) ∨ other = thread))
    : system.Queues (fun other => loose other ∨ other = thread) :=
  queues.mono (fun _ either => either.elim id .inr)

theorem System.Queues.tighten (thread : Nat)
    (queues : system.Queues (fun other => loose other ∨ other = thread))
    (settled
      : zIsThreadReady (system.threads thread) = true
        → (system.threads thread).state.queued = true ∨ loose thread)
    : system.Queues loose := by
  refine { queues with fits := fun found => { queues.fits found with settled := ?_ } }
  intro ne ready
  rcases (queues.fits found).settled ne ready with queued | old | rfl
  · exact .inl queued
  · exact .inr old
  · exact settled ready

theorem System.Queues.sameBits {change : Thread → Thread} (thread : Nat)
    (queues : system.Queues loose)
    (prio
      : thread ∈ system.runq
        → (change (system.threads thread)).prio = (system.threads thread).prio)
    (same
      : ∀ found : Thread,
          (change found).state = found.state
          ∧ (change found).pendedOn = found.pendedOn
          ∧ (change found).timeoutActive = found.timeoutActive)
    : (system.modify thread change).Queues loose := by
  obtain ⟨state, pendedOn, timeoutActive⟩ := same (system.threads thread)
  have ready : zIsThreadReady (change (system.threads thread))
      = zIsThreadReady (system.threads thread) := by
    simp only [zIsThreadReady, zIsThreadPreventedFromRunning, state, timeoutActive]
  have fits := queues.fits thread
  refine queues.modify (fun _ _ => id) prio ⟨?_, ?_, ?_, ?_, ?_, ?_⟩
  all_goals
    simp only [System.modify_self, System.modify_runq, System.modify_waitq, state, pendedOn, ready]
  · exact fits.linked
  · exact fits.runnable
  · exact fits.waiting
  · exact fits.pended
  · exact fits.settled
  · exact fits.idle

/-! ### The run queue -/

section Frame

@[simp]
theorem dequeueThread_self
    : (dequeueThread system thread).threads thread = (system.threads thread).setQueued false :=
  System.modify_self _

theorem dequeueThread_other (ne : other ≠ thread)
    : (dequeueThread system thread).threads other = system.threads other :=
  System.modify_other _ ne

@[simp]
theorem queueThread_self
    : (queueThread system thread).threads thread = (system.threads thread).setQueued true :=
  System.modify_self _

theorem queueThread_other (ne : other ≠ thread)
    : (queueThread system thread).threads other = system.threads other :=
  System.modify_other _ ne

end Frame

theorem System.Queues.dequeueThread (queues : system.Queues loose)
    (queued : (system.threads thread).state.queued = true)
    : (dequeueThread system thread).Queues (fun other => loose other ∨ other = thread) := by
  have fits := queues.fits thread
  refine ⟨?_, queues.once.erase thread, ?_, ?_, queues.waitOnce, ?_⟩
  · intro found
    by_cases self : found = thread
    · subst self
      refine ⟨?_, ?_, ?_, ?_, fun _ _ => .inr (.inr rfl), ?_⟩
      all_goals rw [dequeueThread_self]
      · exact iff_of_false (queues.once.not_mem_erase) (by simp [Thread.setQueued])
      · simp [Thread.setQueued]
      · exact fits.waiting
      · exact fits.pended
      · exact fun idle => ⟨rfl, (fits.idle idle).2⟩
    · exact (queues.fits found).congr (dequeueThread_other self) (List.mem_erase_of_ne self)
        (fun _ => Iff.rfl) .inl
  · have prio : (fun found => ((Sched.dequeueThread system thread).threads found).prio)
        = (fun found => (system.threads found).prio) :=
      System.modify_prio rfl
    rw [prio]
    exact queues.sorted.sublist List.erase_sublist
  · exact fun found member => queues.stamped found (List.mem_of_mem_erase member)
  · simp [Sched.dequeueThread, queues.intact, fits.linked.mpr queued]

theorem System.Queues.queueThread
    (queues : system.Queues (fun other => loose other ∨ other = thread))
    (notIdle : thread ≠ idleThread)
    (queued : (system.threads thread).state.queued = false)
    (ready : zIsThreadReady (system.threads thread) = true)
    : (queueThread system thread).Queues loose := by
  have fits := queues.fits thread
  have absent : thread ∉ system.runq := by simp [fits.linked, queued]
  have prio : (fun found => ((Sched.queueThread system thread).threads found).prio)
      = (fun found => (system.threads found).prio) :=
    System.modify_prio rfl
  have joined : (Sched.queueThread system thread).runq
      = stableInsert (fun found => (system.threads found).prio) thread system.runq := by
    rw [← zPriqDumbAdd_eq_stableInsert, ← prio]
    rfl
  have old {found : Nat} (member : found ∈ system.runq)
      : (Sched.queueThread system thread).queuedAt found = system.queuedAt found :=
    Function.update_of_ne (fun same : found = thread => absent (same ▸ member)) ..
  have new : (Sched.queueThread system thread).queuedAt thread = system.insertions :=
    Function.update_self ..
  refine ⟨?_, ?_, ?_, ?_, queues.waitOnce, ?_⟩
  · intro found
    by_cases self : found = thread
    · subst self
      refine ⟨?_, ?_, ?_, ?_, fun _ _ => .inl ?_, fun idle => absurd idle notIdle⟩
      all_goals rw [queueThread_self]
      · rw [joined]
        simp [Thread.setQueued]
      · exact fun _ => ready
      · exact fits.waiting
      · exact fits.pended
      · rfl
    · refine (queues.fits found).congr (queueThread_other self) ?_ (fun _ => Iff.rfl) ?_
      · rw [joined, mem_stableInsert]
        simp [self]
      · exact fun either => either.resolve_right self
  · rw [joined, (perm_stableInsert _ _ _).nodup_iff]
    exact List.nodup_cons.mpr ⟨absent, queues.once⟩
  · rw [prio, joined]
    refine pairwise_stableInsert ?_ ?_
    · refine queues.sorted.imp_of_mem ?_
      intro left right leftMember rightMember before
      simpa only [Precedes, old leftMember, old rightMember] using before
    · intro found member
      rw [old member, new]
      exact queues.stamped found member
  · intro found member
    rw [joined, mem_stableInsert] at member
    change _ < system.insertions + 1
    rcases member with rfl | member
    · rw [new]
      omega
    · rw [old member]
      exact Nat.lt_succ_of_lt (queues.stamped found member)
  · simp [Sched.queueThread, queues.intact, absent]

theorem System.Queues.updateCache (preemptOk : Bool) (queues : system.Queues loose)
    : (updateCache system preemptOk).Queues loose :=
  ⟨fun found => (queues.fits found).congr rfl Iff.rfl (fun _ => Iff.rfl) id, queues.once,
    queues.sorted, queues.stamped, queues.waitOnce, queues.intact⟩

theorem System.Queues.readyThread
    (queues : system.Queues (fun other => loose other ∨ other = thread))
    (notIdle : thread ≠ idleThread)
    : (readyThread system thread).Queues loose := by
  unfold Sched.readyThread
  split
  · rename_i joins
    simp only [Bool.and_eq_true, Bool.not_eq_true'] at joins
    exact (queues.queueThread notIdle joins.1 joins.2).updateCache false
  · rename_i stays
    refine queues.tighten thread ?_
    intro ready
    left
    simpa [ready] using stays

theorem System.Queues.dequeueIfQueued (queues : system.Queues loose)
    : (dequeueIfQueued system thread).Queues (fun other => loose other ∨ other = thread) := by
  unfold Sched.dequeueIfQueued
  split
  · exact queues.dequeueThread ‹_›
  · exact queues.loosen thread

theorem dequeueIfQueued_self
    : (dequeueIfQueued system thread).threads thread
      = (system.threads thread).setQueued false := by
  unfold dequeueIfQueued
  split
  · exact dequeueThread_self
  · rename_i unqueued
    rw [Thread.setQueued, ← Bool.eq_false_iff.mpr unqueued]

theorem dequeueIfQueued_other (ne : other ≠ thread)
    : (dequeueIfQueued system thread).threads other = system.threads other := by
  unfold dequeueIfQueued
  split
  · exact dequeueThread_other ne
  · rfl

/-- Halting marks a thread before it leaves the run queue; the other order is the same. -/
theorem dequeueIfQueued_modify {change : Thread → Thread}
    (queued : ∀ found : Thread, (change found).state.queued = found.state.queued)
    (commutes : ∀ found : Thread, (change found).setQueued false = change (found.setQueued false))
    : dequeueIfQueued (system.modify thread change) thread
      = (dequeueIfQueued system thread).modify thread change := by
  unfold dequeueIfQueued
  rw [System.modify_self, queued]
  split
  · simp [dequeueThread, System.modify, commutes]
  · rfl

/-! ### Wait queues -/

theorem System.Fits.not_queued (fits : system.Fits loose thread)
    (prevented : zIsThreadPreventedFromRunning (system.threads thread) = true)
    : (system.threads thread).state.queued = false := by
  by_contra queued
  have ready := fits.runnable (Bool.not_eq_false _ ▸ queued)
  simp [zIsThreadReady, prevented] at ready

theorem unpendThreadNoTimeout_eq {waitQ : WaitQ}
    (waits : (system.threads thread).pendedOn = some waitQ)
    : unpendThreadNoTimeout system thread
      = { system.modify thread
            (fun thread => { zMarkThreadAsNotPending thread with pendedOn := none }) with
          waitq := Function.update system.waitq waitQ ((system.waitq waitQ).erase thread)
          fault := system.fault || !(system.waitq waitQ).contains thread } := by
  simp only [unpendThreadNoTimeout, waits]

theorem System.Queues.unpendThreadNoTimeout (queues : system.Queues loose)
    : (unpendThreadNoTimeout system thread).Queues
        (fun other => loose other ∨ other = thread) := by
  have fits := queues.fits thread
  cases waits : (system.threads thread).pendedOn with
  | none =>
      simpa only [Sched.unpendThreadNoTimeout, waits] using queues.loosen thread
  | some waitQ =>
      have member := (fits.waiting waitQ).mpr waits
      have pending := fits.pended (by simp [waits])
      have unqueued := fits.not_queued (by simp [zIsThreadPreventedFromRunning, pending])
      have notIdle : thread ≠ idleThread := fun idle => by simp [(fits.idle idle).2] at waits
      rw [unpendThreadNoTimeout_eq waits]
      refine queues.change (fun _ ne => Function.update_of_ne ne ..) (fun _ _ => .inl) ?_ rfl rfl rfl
        (fun _ => by rw [System.modify_self]; rfl) ?_ ?_ ?_
      · intro found self found'
        by_cases here : found' = waitQ
        · subst here
          simp [List.mem_erase_of_ne self]
        · simp [here]
      · refine ⟨?_, ?_, ?_, ?_, fun _ _ => .inr (.inr rfl), fun idle => absurd idle notIdle⟩
        all_goals simp only [System.modify_self]
        · exact fits.linked
        · exact fun queued => by simp [zMarkThreadAsNotPending, unqueued] at queued
        · intro found'
          by_cases here : found' = waitQ
          · subst here
            simp [(queues.waitOnce found').not_mem_erase]
          · simp [here, fits.waiting, waits, Ne.symm here]
        · exact fun none => absurd rfl none
      · intro found
        by_cases here : found = waitQ
        · subst here
          simpa using (queues.waitOnce found).erase thread
        · simpa [here] using queues.waitOnce found
      · simp [queues.intact, member]

theorem System.Queues.joinWaitq {waitQ : WaitQ} (queues : system.Queues loose)
    (notIdle : thread ≠ idleThread) (free : (system.threads thread).pendedOn = none)
    (pending : (system.threads thread).state.pending = true)
    : System.Queues
        { system.modify thread (fun thread => { thread with pendedOn := some waitQ }) with
          waitq := Function.update system.waitq waitQ
            (zPriqDumbAdd
              (fun other =>
                ((system.modify thread (fun thread =>
                  { thread with pendedOn := some waitQ })).threads other).prio)
              thread (system.waitq waitQ))
          fault := system.fault || (system.waitq waitQ).contains thread }
        loose := by
  have fits := queues.fits thread
  have absent (found : WaitQ) : thread ∉ system.waitq found := by simp [fits.waiting, free]
  refine queues.change (fun _ ne => Function.update_of_ne ne ..) (fun _ _ => id) ?_ rfl rfl rfl
    (fun _ => by rw [System.modify_self]) ?_ ?_ ?_
  · intro found self found'
    by_cases here : found' = waitQ
    · subst here
      simp [zPriqDumbAdd_eq_stableInsert, self]
    · simp [here]
  · refine ⟨?_, ?_, ?_, ?_, ?_, fun idle => absurd idle notIdle⟩
    all_goals simp only [System.modify_self]
    · exact fits.linked
    · exact fits.runnable
    · intro found'
      by_cases here : found' = waitQ
      · subst here
        simp [zPriqDumbAdd_eq_stableInsert]
      · simp [here, absent, Ne.symm here]
    · exact fun _ => pending
    · exact fits.settled
  · intro found
    by_cases here : found = waitQ
    · subst here
      simp only [Function.update_self, zPriqDumbAdd_eq_stableInsert]
      rw [(perm_stableInsert _ _ _).nodup_iff]
      exact List.nodup_cons.mpr ⟨absent found, queues.waitOnce found⟩
    · simpa [here] using queues.waitOnce found
  · simp [queues.intact, absent]

end Zephyr.Kernel.Sched
