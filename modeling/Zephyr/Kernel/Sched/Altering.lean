import Zephyr.Kernel.Sched.Consistency

/-! What an operation on a thread leaves alone: the other threads, and what no operation but an
abort changes of the thread itself.
-/

namespace Zephyr.Kernel.Sched

/-- A thread that waits in a queue has started. -/
def Thread.Started (thread : Thread) : Prop :=
  thread.pendedOn ≠ none → thread.state.prestart = false

structure Thread.Keeps (before after : Thread) : Prop where
  dummy : after.state.dummy = before.state.dummy
  dead : after.state.dead = before.state.dead
  prestart : after.state.prestart = true → before.state.prestart = true
  started : before.Started → after.Started

theorem Thread.Keeps.refl (thread : Thread) : thread.Keeps thread :=
  ⟨rfl, rfl, id, id⟩

theorem Thread.Keeps.trans {before between after : Thread} (first : before.Keeps between)
    (second : between.Keeps after)
    : before.Keeps after :=
  ⟨second.dummy.trans first.dummy, second.dead.trans first.dead,
    fun prestart => first.prestart (second.prestart prestart),
    fun started => second.started (first.started started)⟩

/-- No thread changes but the named ones. -/
structure System.Alters (system later : System) (names : List Nat) : Prop where
  current : later.current = system.current
  others : ∀ other ∉ names, later.threads other = system.threads other
  keeps : ∀ other, (system.threads other).Keeps (later.threads other)

variable {context : Context} {system middle later : System} {loose : Nat → Prop}
  {thread other : Nat} {names names' : List Nat}

namespace System.Alters

theorem refl (system : System) (names : List Nat) : system.Alters system names :=
  ⟨rfl, fun _ _ => rfl, fun _ => .refl _⟩

theorem trans (first : system.Alters middle names) (second : middle.Alters later names)
    : system.Alters later names :=
  ⟨second.current.trans first.current,
    fun other absent => (second.others other absent).trans (first.others other absent),
    fun other => (first.keeps other).trans (second.keeps other)⟩

theorem congr (alters : system.Alters middle names) (threads : later.threads = middle.threads)
    (current : later.current = middle.current)
    : system.Alters later names := by
  refine ⟨current.trans alters.current, ?_, ?_⟩
  all_goals rw [threads]
  · exact alters.others
  · exact alters.keeps

theorem of_modify {change : Thread → Thread}
    (threads : later.threads = (system.modify thread change).threads)
    (current : later.current = system.current)
    (keeps : (system.threads thread).Keeps (change (system.threads thread)))
    : system.Alters later [thread] := by
  refine ⟨current, ?_, ?_⟩
  all_goals
    rw [threads]
    intro other
  · intro absent
    exact System.modify_other change (List.ne_of_not_mem_cons absent)
  · by_cases self : other = thread
    · rw [self, System.modify_self]
      exact keeps
    · rw [System.modify_other change self]
      exact .refl _

theorem modify (change : Thread → Thread)
    (keeps : (system.threads thread).Keeps (change (system.threads thread)))
    : system.Alters (system.modify thread change) [thread] :=
  of_modify rfl rfl keeps

/-! ### The parts of the scheduler -/

theorem queueThread : system.Alters (queueThread system thread) [thread] :=
  of_modify rfl rfl ⟨rfl, rfl, id, id⟩

theorem readyThread : system.Alters (readyThread system thread) [thread] := by
  unfold Sched.readyThread
  split
  · exact queueThread.congr rfl rfl
  · exact refl system _

theorem zSwap : system.Alters (zSwap system) [system.current] :=
  (modify (fun thread => { thread with swapRetval := -eagain }) ⟨rfl, rfl, id, id⟩).congr rfl rfl

theorem zReschedule : system.Alters (zReschedule context system) [system.current] := by
  unfold Sched.zReschedule
  split
  · exact zSwap
  · exact refl system _

theorem zAbortThreadTimeout : system.Alters (zAbortThreadTimeout system thread).1 [thread] := by
  unfold Sched.zAbortThreadTimeout
  split
  · exact of_modify rfl rfl ⟨rfl, rfl, id, id⟩
  · exact refl system _

theorem unpendThreadNoTimeout
    : system.Alters (unpendThreadNoTimeout system thread) [thread] := by
  unfold Sched.unpendThreadNoTimeout
  split
  · exact refl system _
  · exact (modify (fun thread => { zMarkThreadAsNotPending thread with pendedOn := none })
      ⟨rfl, rfl, id, fun _ waits => absurd rfl waits⟩).congr rfl rfl

theorem markStarted : system.Alters (system.modify thread zMarkThreadAsStarted) [thread] :=
  of_modify rfl rfl ⟨rfl, rfl, nofun, fun _ _ => rfl⟩

theorem zThreadTimeout : system.Alters (zThreadTimeout system thread) [thread] := by
  unfold Sched.zThreadTimeout zSchedWakeThread
  split
  · exact zAbortThreadTimeout
  · refine zAbortThreadTimeout.trans (unpendThreadNoTimeout.trans (markStarted.trans ?_))
    exact trans (of_modify rfl rfl ⟨rfl, rfl, id, id⟩) readyThread

end System.Alters

theorem zReschedule_other (ne : other ≠ system.current)
    : (zReschedule context system).threads other = system.threads other :=
  System.Alters.zReschedule.others other (by simpa using ne)

/-! ### The current thread -/

theorem haltThread_self (runs : (system.threads thread).state.suspended = false)
    : (haltThread system thread false).threads thread
      = zMarkThreadAsSuspended ((system.threads thread).setQueued false) := by
  simp only [haltThread, Bool.false_eq_true, if_false, runs]
  change (dequeueIfQueued (system.modify thread zMarkThreadAsSuspended) thread).threads thread
    = _
  rw [dequeueIfQueued_self, System.modify_self]
  rfl

end Zephyr.Kernel.Sched
