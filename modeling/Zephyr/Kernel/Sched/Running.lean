import Zephyr.Kernel.Sched.Queues

/-! The thread that runs and the thread chosen to run next are in the run queue. -/

namespace Zephyr.Kernel.Sched

open Zephyr.Library

/-- The chosen thread is queued, or nothing is and the idle thread is chosen. -/
def System.CacheFits (system : System) : Prop :=
  system.cache = idleThread ∨ (system.threads system.cache).state.queued = true

def System.Running (system : System) : Prop :=
  system.current = idleThread ∨ (system.threads system.current).state.queued = true

/-- The current thread is queued unless it may be preempted by any other. -/
def System.CurrentFits (system : System) : Prop :=
  system.Running
  ∨ zIsThreadPreventedFromRunning (system.threads system.current) = true
  ∨ threadIsPreemptible (system.threads system.current) = true

/-- Only one thread has changed, and not its place in the run queue. -/
structure System.Touches (system later : System) (thread : Nat) : Prop where
  others : ∀ other ≠ thread, later.threads other = system.threads other
  queued
    : (later.threads thread).state.queued = (system.threads thread).state.queued
  current : later.current = system.current
  cache : later.cache = system.cache

variable {system middle later : System} {loose : Nat → Prop} {thread other : Nat}

namespace System.Touches

theorem refl (system : System) (thread : Nat) : system.Touches system thread :=
  ⟨fun _ _ => rfl, rfl, rfl, rfl⟩

theorem trans (first : system.Touches middle thread) (second : middle.Touches later thread)
    : system.Touches later thread :=
  ⟨fun other ne => (second.others other ne).trans (first.others other ne),
    second.queued.trans first.queued, second.current.trans first.current,
    second.cache.trans first.cache⟩

theorem modify {change : Thread → Thread}
    (queued
      : (change (system.threads thread)).state.queued = (system.threads thread).state.queued)
    : system.Touches (system.modify thread change) thread :=
  ⟨fun _ => System.modify_other change, by simpa using queued, rfl, rfl⟩

theorem queued_eq (touches : system.Touches later thread) (other : Nat)
    : (later.threads other).state.queued = (system.threads other).state.queued := by
  by_cases self : other = thread
  · exact self ▸ touches.queued
  · rw [touches.others other self]

theorem cacheFits (touches : system.Touches later thread) (fits : system.CacheFits)
    : later.CacheFits := by
  simpa only [CacheFits, touches.cache, touches.queued_eq] using fits

theorem running (touches : system.Touches later thread) (running : system.Running)
    : later.Running := by
  simpa only [Running, touches.current, touches.queued_eq] using running

theorem currentFits (touches : system.Touches later thread)
    (fits : system.CurrentFits ∨ thread = system.current)
    : later.CurrentFits ∨ thread = later.current := by
  by_cases self : thread = system.current
  · exact .inr (self.trans touches.current.symm)
  · left
    have same := touches.others system.current (Ne.symm self)
    have fits := fits.resolve_right self
    simpa only [CurrentFits, Running, touches.current, same] using fits

theorem unpendThreadNoTimeout
    : system.Touches (unpendThreadNoTimeout system thread) thread := by
  cases waits : (system.threads thread).pendedOn with
  | none =>
      simpa only [Sched.unpendThreadNoTimeout, waits] using refl system thread
  | some waitQ =>
      rw [unpendThreadNoTimeout_eq waits]
      exact ⟨fun _ ne => Function.update_of_ne ne .., by rw [System.modify_self]; rfl, rfl, rfl⟩

theorem zAbortThreadTimeout
    : system.Touches (zAbortThreadTimeout system thread).1 thread := by
  unfold Sched.zAbortThreadTimeout
  split
  · dsimp only
    exact modify rfl
  · exact refl system thread

theorem zUnpendThread : system.Touches (zUnpendThread system thread) thread :=
  unpendThreadNoTimeout.trans zAbortThreadTimeout

end System.Touches

/-! ### The cache -/

theorem nextUp_fits (queues : system.Queues loose)
    : nextUp system = idleThread ∨ (system.threads (nextUp system)).state.queued = true := by
  unfold nextUp
  cases first : system.runq.head? with
  | none => exact .inl rfl
  | some found => exact .inr ((queues.fits found).linked.mp (List.mem_of_mem_head? first))

theorem updateCache_fits {preemptOk : Bool} (queues : system.Queues loose)
    (fits : preemptOk = true ∨ system.CurrentFits)
    : (updateCache system preemptOk).CacheFits := by
  simp only [System.CacheFits, updateCache]
  split
  · exact nextUp_fits queues
  · rename_i kept
    simp only [shouldPreempt, Bool.or_eq_true, not_or] at kept
    rcases fits with allowed | running | prevented | preemptible
    · exact absurd allowed kept.1.1.1
    · exact running
    · exact absurd prevented kept.1.1.2
    · exact absurd preemptible kept.2

theorem queueThread_queued (queued : (system.threads other).state.queued = true)
    : ((queueThread system thread).threads other).state.queued = true := by
  by_cases self : other = thread
  · subst self
    rw [queueThread_self]
    rfl
  · rwa [queueThread_other self]

theorem System.Running.queueThread (running : system.Running)
    : (queueThread system thread).Running :=
  running.imp_right queueThread_queued

theorem queueThread_currentFits (fits : system.CurrentFits ∨ thread = system.current)
    : (queueThread system thread).CurrentFits := by
  have current : (queueThread system thread).current = system.current := rfl
  by_cases self : thread = system.current
  · refine .inl (.inr ?_)
    rw [current, ← self, queueThread_self]
    rfl
  · have same : (queueThread system thread).threads system.current
        = system.threads system.current :=
      queueThread_other (Ne.symm self)
    simpa only [System.CurrentFits, System.Running, current, same]
      using fits.resolve_right self

theorem readyThread_fits
    (queues : system.Queues (fun other => loose other ∨ other = thread))
    (notIdle : thread ≠ idleThread) (cache : system.CacheFits)
    (fits : system.CurrentFits ∨ thread = system.current)
    : (readyThread system thread).CacheFits := by
  unfold readyThread
  split
  · rename_i joins
    simp only [Bool.and_eq_true, Bool.not_eq_true'] at joins
    exact updateCache_fits (queues.queueThread notIdle joins.1 joins.2)
      (.inr (queueThread_currentFits fits))
  · exact cache

theorem System.Running.readyThread (running : system.Running)
    : (readyThread system thread).Running := by
  unfold Sched.readyThread
  split
  · exact running.queueThread
  · exact running

theorem readyThread_currentFits
    (fits : system.CurrentFits ∨ thread = system.current)
    (awake : (system.threads thread).timeoutActive = false)
    : (readyThread system thread).CurrentFits := by
  unfold readyThread
  split
  · exact queueThread_currentFits fits
  · rename_i stays
    by_cases self : thread = system.current
    · by_cases prevented : zIsThreadPreventedFromRunning (system.threads system.current) = true
      · exact .inr (.inl prevented)
      · refine .inl (.inr ?_)
        rw [self] at awake stays
        simpa [zIsThreadReady, prevented, awake] using stays
    · exact fits.resolve_right self

end Zephyr.Kernel.Sched
