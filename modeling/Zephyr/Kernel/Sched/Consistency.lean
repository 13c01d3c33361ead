import Zephyr.Kernel.Sched.ThreadOperations

/-! A thread is in the run queue exactly if it is ready, unless it has been unpended and its
caller has not made it ready yet.
-/

namespace Zephyr.Kernel.Sched

open Zephyr.Library

/-- The thread that an operation unpends and leaves to its caller. -/
def Operation.unpended (system : System) : Operation → Option Nat
  | .unpend thread | .unpendNoTimeout thread => some thread
  | .unpendFirst waitQ | .unpend1NoTimeout waitQ => (system.waitq waitQ).head?
  | _ => none

/-- The threads that are unpended and not yet made ready by their caller. -/
def Operation.record (system : System) (operation : Operation) (unpended : List Nat)
    : List Nat :=
  match operation with
  | .ready thread => unpended.filter (· ≠ thread)
  | _ => (operation.unpended system).toList ++ unpended

def recordedStep (state : System × List Nat) (call : Call) : Option (System × List Nat) :=
  (step state.1 call).map
    (fun next =>
      match call with
      | .interrupt operation | .thread _ operation => (next, operation.record state.1 state.2)
      | .timeout _ | .self .. | .contextSwitch => (next, state.2))

def recordedStart (prio : Nat → Int) (dummy essential : Nat → Bool) : System × List Nat :=
  (start prio dummy essential, [])

/-- The operation may make a thread other than `current` ready. -/
def Operation.Wakes (current : Nat) : Operation → Prop
  | .start thread | .scheduleNew thread _ | .resume thread | .wakeup thread | .ready thread =>
      thread ≠ current
  | .unpendAll _ | .wake .. => True
  | _ => False

/-- An interrupt wakes another thread only when the current one is queued, prevented from
running or preemptible, and no thread gets a new priority between being unpended and made ready.
-/
def Careful (state : System × List Nat) : Call → Prop
  | .interrupt operation => operation.Wakes state.1.current → state.1.CurrentFits
  | .timeout thread => thread ≠ state.1.current → state.1.CurrentFits
  | .self _ (.prioSet thread _) | .self _ (.inherit thread _) =>
      zIsThreadReady (state.1.threads thread) = true
      → (state.1.threads thread).state.queued = true
  | _ => True

instance (system : System) : Decidable system.CurrentFits :=
  inferInstanceAs (Decidable ((_ ∨ _) ∨ _ ∨ _))

instance (current : Nat) : (operation : Operation) → Decidable (operation.Wakes current)
  | .start _ | .scheduleNew .. | .resume _ | .wakeup _ | .ready _ =>
      inferInstanceAs (Decidable (_ ≠ _))
  | .unpendAll _ | .wake .. => .isTrue trivial
  | .suspend _ | .abort _ | .unpend _ | .unpendNoTimeout _ | .unpendFirst _
  | .unpend1NoTimeout _ => .isFalse id

instance (state : System × List Nat) : (call : Call) → Decidable (Careful state call)
  | .interrupt operation =>
      inferInstanceAs (Decidable (operation.Wakes state.1.current → state.1.CurrentFits))
  | .timeout _ => inferInstanceAs (Decidable (_ ≠ _ → state.1.CurrentFits))
  | .self _ (.prioSet ..) | .self _ (.inherit ..) =>
      inferInstanceAs (Decidable (_ = _ → _ = _))
  | .thread .. | .contextSwitch | .self _ (.pend ..) | .self _ (.pendDummy ..)
  | .self _ .yield | .self _ (.sleep _) | .self _ (.join ..) | .self _ .schedLock
  | .self _ .schedUnlock => .isTrue trivial

/-! ### What each step keeps -/

variable {context : Context} {system later : System} {unpended : List Nat} {thread : Nat}

theorem System.Queues.recorded
    (queues : system.Queues (fun other => other ∈ unpended ∨ other = thread))
    : system.Queues (· ∈ thread :: unpended) :=
  queues.mono (fun _ either => either.elim (List.mem_cons_of_mem _) (· ▸ List.mem_cons_self))

theorem Result.scheduleNew {loose : Nat → Prop} {delay : KTimeout}
    (queues : system.Queues loose) (cache : system.CacheFits) (notIdle : thread ≠ idleThread)
    (fits : system.CurrentFits ∨ thread = system.current)
    (prestart : (system.threads thread).state.prestart = true)
    (inactive : (system.threads thread).timeoutActive = false)
    : Result context system (threadScheduleNew context system thread delay) loose := by
  have prevented : zIsThreadPreventedFromRunning (system.threads thread) = true := by
    simp [zIsThreadPreventedFromRunning, prestart]
  have unqueued := (queues.fits thread).not_queued prevented
  unfold threadScheduleNew
  split
  · exact .start queues cache notIdle fits
  · exact .touched .zAddThreadTimeout (queues.zAddThreadTimeout unqueued inactive) cache

theorem Operation.result {operation : Operation}
    (queues : system.Queues (· ∈ unpended)) (cache : system.CacheFits)
    (notIdle : operation.target ≠ some idleThread)
    (fits : operation.Wakes system.current → system.CurrentFits)
    (performed : perform context system operation = some later)
    : Result context system later (· ∈ operation.record system unpended) := by
  have woken {thread : Nat} (wakes : thread ≠ system.current → system.CurrentFits)
      : system.CurrentFits ∨ thread = system.current := by
    by_cases self : thread = system.current
    · exact .inr self
    · exact .inl (wakes self)
  cases operation with
  | start thread =>
      cases performed
      exact .start queues cache (fun idle => notIdle (congrArg some idle)) (woken fits)
  | scheduleNew thread delay =>
      simp only [perform] at performed
      split at performed
      · rename_i new
        cases performed
        exact .scheduleNew queues cache (fun idle => notIdle (congrArg some idle)) (woken fits)
          new.1 new.2
      · cases performed
  | suspend thread =>
      cases performed
      exact .suspend queues cache
  | resume thread =>
      cases performed
      exact .resume queues cache (fun idle => notIdle (congrArg some idle)) (woken fits)
  | wakeup thread =>
      cases performed
      exact .wakeup queues cache (fun idle => notIdle (congrArg some idle)) (woken fits)
  | abort thread => exact .abort queues cache performed
  | unpend thread =>
      cases performed
      exact .touched .zUnpendThread queues.zUnpendThread.recorded cache
  | unpendNoTimeout thread =>
      cases performed
      exact .touched .unpendThreadNoTimeout queues.unpendThreadNoTimeout.recorded cache
  | unpendFirst waitQ =>
      cases performed
      simp only [record, Operation.unpended, zUnpendFirstThread]
      cases system.waitq waitQ with
      | nil => exact .same queues cache
      | cons first rest =>
          exact .touched .zUnpendThread queues.zUnpendThread.recorded cache
  | unpend1NoTimeout waitQ =>
      cases performed
      simp only [record, Operation.unpended, zUnpend1NoTimeout]
      cases system.waitq waitQ with
      | nil => exact .same queues cache
      | cons first rest =>
          exact .touched .unpendThreadNoTimeout queues.unpendThreadNoTimeout.recorded cache
  | unpendAll waitQ =>
      cases performed
      exact .unpendAll queues cache (fits trivial)
  | ready thread =>
      cases performed
      refine .wake (.refl system thread) (queues.mono ?_)
        (fun idle => notIdle (congrArg some idle)) cache (woken fits)
      intro other member
      by_cases self : other = thread
      · exact .inr self
      · exact .inl (by simp [record, member, self])
  | wake waitQ swapRetval swapData =>
      cases performed
      exact .wakeFirst swapRetval swapData queues cache (fits trivial)

theorem ThreadOperation.result {operation : ThreadOperation} {loose : Nat → Prop}
    (queues : system.Queues loose) (cache : system.CacheFits)
    (queued : (system.threads system.current).state.queued = true)
    (careful
      : ∀ thread prio,
          operation = .prioSet thread prio ∨ operation = .inherit thread prio
          → zIsThreadReady (system.threads thread) = true
          → (system.threads thread).state.queued = true)
    (performed : performSelf context system operation = some later)
    : Result context system later loose := by
  have may := (queues.fits system.current).mayWait queued
  have running : system.Running := .inr queued
  cases operation with
  | pend waitQ timeout =>
      cases performed
      exact .pend waitQ timeout queues may
  | pendDummy thread waitQ timeout =>
      simp only [performSelf] at performed
      split at performed
      · rename_i dummy
        obtain ⟨notIdle, isDummy, free, inactive⟩ := dummy
        cases performed
        refine .pendDummy waitQ timeout queues ⟨notIdle, free, inactive⟩ running ?_
        rintro rfl
        have ready := (queues.fits system.current).runnable queued
        simp [zIsThreadReady, zIsThreadPreventedFromRunning, isDummy] at ready
      · cases performed
  | prioSet thread prio =>
      simp only [performSelf] at performed
      split at performed
      · cases performed
      · rename_i notIdle
        cases performed
        exact .prioritySet prio queues cache notIdle (careful thread prio (.inl rfl))
  | inherit thread prio =>
      simp only [performSelf] at performed
      split at performed
      · cases performed
      · rename_i notIdle
        cases performed
        exact .prioSet prio queues cache notIdle (careful thread prio (.inr rfl))
  | yield =>
      cases performed
      exact .yield queues queued
  | sleep timeout =>
      cases performed
      unfold kSleep
      split
      · exact .suspend queues cache
      · exact .sleep timeout.ticks queues queued
  | join thread timeout =>
      cases performed
      unfold kThreadJoin
      split
      · exact .same queues cache
      · split
        · exact .same queues cache
        · split
          · exact .same queues cache
          · exact .pend (some (.join thread)) timeout queues may
  | schedLock =>
      cases performed
      exact .schedLock queues cache
  | schedUnlock =>
      cases performed
      exact .schedUnlock queues running

/-- The invariant of every run. -/
structure Sound (state : System × List Nat) : Prop where
  queues : state.1.Queues (· ∈ state.2)
  cache : state.1.CacheFits
  running : state.1.swapPending = false → state.1.Running

theorem System.Queues.interruptExit {loose : Nat → Prop} (queues : system.Queues loose)
    : (interruptExit system).Queues loose :=
  ⟨fun found => (queues.fits found).congr rfl Iff.rfl (fun _ => Iff.rfl) id,
    queues.once, queues.sorted, queues.stamped, queues.waitOnce, queues.intact⟩

theorem System.Queues.contextSwitch {loose : Nat → Prop} (queues : system.Queues loose)
    : (contextSwitch system).Queues loose :=
  ⟨fun found => (queues.fits found).congr rfl Iff.rfl (fun _ => Iff.rfl) id,
    queues.once, queues.sorted, queues.stamped, queues.waitOnce, queues.intact⟩

theorem System.CacheFits.interruptExit (cache : system.CacheFits)
    (none : (interruptExit system).swapPending = false)
    : (interruptExit system).Running := by
  simp only [Sched.interruptExit, Bool.or_eq_false_iff, decide_eq_false_iff_not, not_not] at none
  have same : system.cache = system.current := none.2
  rw [System.CacheFits, same] at cache
  exact cache

theorem Result.interruptExit (result : Result .isr system later (· ∈ unpended))
    : Sound (interruptExit later, unpended) :=
  ⟨result.queues.interruptExit, result.cache, result.cache.interruptExit⟩

theorem Sound.step {state next : System × List Nat} {call : Call} (sound : Sound state)
    (careful : Careful state call) (stepped : recordedStep state call = some next)
    : Sound next := by
  obtain ⟨system, unpended⟩ := state
  obtain ⟨later, moved, rfl⟩ := Option.map_eq_some_iff.mp stepped
  have queues := sound.queues
  have cache := sound.cache
  have runs (may : system.threadRuns = true)
      : (system.threads system.current).state.queued = true := by
    simp only [System.threadRuns, Bool.and_eq_true, Bool.not_eq_true', decide_eq_true_eq] at may
    exact (sound.running may.1).resolve_left may.2
  cases call with
  | interrupt operation =>
      simp only [Sched.step] at moved
      split at moved
      · cases moved
      · rename_i notIdle
        obtain ⟨performed, result, rfl⟩ := Option.map_eq_some_iff.mp moved
        exact (operation.result queues cache notIdle careful result).interruptExit
  | timeout thread =>
      simp only [Sched.step] at moved
      split at moved
      · rename_i active
        cases moved
        have fits : system.CurrentFits ∨ thread = system.current := by
          by_cases self : thread = system.current
          · exact .inr self
          · exact .inl (careful self)
        exact (Result.timeout queues cache active.1 fits).interruptExit
      · cases moved
  | thread irqUnlocked operation =>
      simp only [Sched.step] at moved
      split at moved
      · rename_i may
        have running : system.Running := .inr (runs may.1)
        have result := operation.result queues cache may.2 (fun _ => .inl running) moved
        exact ⟨result.queues, result.cache, result.running (by simp) running⟩
      · cases moved
  | self irqUnlocked operation =>
      simp only [Sched.step] at moved
      split at moved
      · rename_i may
        have queued := runs may
        have result := operation.result queues cache queued ?_ moved
        · exact ⟨result.queues, result.cache, result.running (by simp) (.inr queued)⟩
        · rintro thread prio (rfl | rfl)
          · exact careful
          · exact careful
      · cases moved
  | contextSwitch =>
      simp only [Sched.step] at moved
      split at moved
      · cases moved
        exact ⟨queues.contextSwitch, cache, fun _ => cache⟩
      · cases moved

theorem Sound.initial (prio : Nat → Int) (dummy essential : Nat → Bool)
    : Sound (recordedStart prio dummy essential) := by
  refine ⟨⟨?_, List.nodup_nil, .nil, ?_, fun _ => List.nodup_nil, rfl⟩, .inl rfl,
    fun _ => .inl rfl⟩
  · intro thread
    by_cases idle : thread = idleThread
    · refine ⟨?_, ?_, ?_, ?_, fun ne => absurd idle ne, ?_⟩
      all_goals simp [recordedStart, start, idle]
    · refine ⟨?_, ?_, ?_, ?_, ?_, fun same => absurd same idle⟩
      all_goals simp [recordedStart, start, idle]
      cases dummy thread <;> simp [zIsThreadReady, zIsThreadPreventedFromRunning]
  · simp [recordedStart, start]

/-! ### Whole runs -/

/-- After every careful run each thread is linked in the run queue once if it is marked as
queued and not at all otherwise. A queued thread is ready, and a ready thread is queued unless
it was unpended and its caller has not made it ready yet. The run queue is ordered by priority
and then by insertion, and no list operation was undefined.
-/
theorem run_queue_consistent {prio : Nat → Int} {dummy essential : Nat → Bool}
    {calls : List Call} {state : System × List Nat}
    (careful : RunMeets recordedStep Careful (recordedStart prio dummy essential) calls)
    (ran : run recordedStep (recordedStart prio dummy essential) calls = some state)
    : (∀ thread ≠ idleThread,
        state.1.runq.count thread
            = (if (state.1.threads thread).state.queued then 1 else 0)
          ∧ ((state.1.threads thread).state.queued = true
            → zIsThreadReady (state.1.threads thread) = true)
          ∧ (zIsThreadReady (state.1.threads thread) = true
            → (state.1.threads thread).state.queued = true ∨ thread ∈ state.2))
      ∧ state.1.runq.Pairwise
          (Precedes (fun thread => (state.1.threads thread).prio) state.1.queuedAt)
      ∧ state.1.fault = false := by
  have sound := run_invariant_of_meets Sound
    (fun before condition stepped => before.step condition stepped)
    (Sound.initial prio dummy essential) careful ran
  refine ⟨?_, sound.queues.sorted, sound.queues.intact⟩
  intro thread notIdle
  have fits := sound.queues.fits thread
  refine ⟨?_, fits.runnable, fits.settled notIdle⟩
  split
  · exact List.count_eq_one_of_mem sound.queues.once (fits.linked.mpr ‹_›)
  · exact List.count_eq_zero.mpr (fun member => absurd (fits.linked.mp member) ‹_›)

/-- Thread 1 is cooperative, the others are not. -/
def oneCooperative (thread : Nat) : Int :=
  if thread = 1 then -1 else thread

/-- Thread 1 starts threads 2 and 3 and sleeps; 2 yields and waits with a timeout, 3 joins 1,
the waits of 2 and 1 time out and 1 aborts itself, which wakes 3.
-/
def schedulingCalls : List Call :=
  [.interrupt (.start 1), .contextSwitch, .thread true (.start 2), .thread true (.start 3),
    .self true (.sleep ⟨5⟩), .contextSwitch, .self true .yield, .contextSwitch,
    .self true (.pend (some (.object 7)) ⟨3⟩), .contextSwitch, .self true (.join 1 kForever),
    .contextSwitch, .timeout 2, .timeout 1, .contextSwitch, .self true (.prioSet 2 9),
    .thread true (.abort 1), .contextSwitch]

theorem schedulingCalls_consistent
    : RunMeets recordedStep Careful
        (recordedStart oneCooperative (fun _ => false) (fun _ => false)) schedulingCalls
      ∧ ∃ state,
          run recordedStep (recordedStart oneCooperative (fun _ => false) (fun _ => false))
            schedulingCalls = some state
          ∧ state.1.runq = [3, 2]
          ∧ state.1.fault = false := by
  have careful : RunMeets recordedStep Careful
      (recordedStart oneCooperative (fun _ => false) (fun _ => false)) schedulingCalls := by
    decide
  obtain ⟨state, ran⟩
      : ∃ state,
          run recordedStep (recordedStart oneCooperative (fun _ => false) (fun _ => false))
            schedulingCalls = some state :=
    Option.isSome_iff_exists.mp (by decide)
  have runq : (run recordedStep
      (recordedStart oneCooperative (fun _ => false) (fun _ => false)) schedulingCalls).map
        (fun state => state.1.runq) = some [3, 2] := by
    decide
  exact ⟨careful, state, ran, by simpa [ran] using runq, (run_queue_consistent careful ran).2.2⟩

/-- A thread that has just been unpended is ready and in no queue. -/
theorem unpended_thread_not_queued
    : ∃ state,
        run recordedStep (recordedStart oneCooperative (fun _ => false) (fun _ => false))
          [.interrupt (.start 1), .contextSwitch, .self true (.pend (some (.object 7)) kForever),
            .contextSwitch, .interrupt (.unpend 1)]
          = some state
        ∧ zIsThreadReady (state.1.threads 1) = true
        ∧ (state.1.threads 1).state.queued = false
        ∧ state.1.runq = [] :=
  ⟨_, rfl, by decide, by decide, by decide⟩

-- A new priority for such a thread removes it from a list it is not in.
example
    : (run recordedStep (recordedStart oneCooperative (fun _ => false) (fun _ => false))
        [.interrupt (.start 1), .contextSwitch, .self true (.pend (some (.object 7)) kForever),
          .contextSwitch, .interrupt (.start 2), .contextSwitch, .thread true (.unpend 1),
          .self true (.prioSet 1 4)]).map (fun state => state.1.fault)
      = some true := by decide

-- An interrupt resumes the sleeping cooperative thread before the switch and starts another
-- one: the sleeper goes on running, in no queue and with its timeout active.
example
    : (run recordedStep (recordedStart oneCooperative (fun _ => false) (fun _ => false))
        [.interrupt (.start 1), .contextSwitch, .self true (.sleep ⟨5⟩), .interrupt (.resume 1),
          .interrupt (.start 2), .contextSwitch]).map
            (fun state => (state.1.current, state.1.runq, (state.1.threads 1).timeoutActive))
      = some (1, [2], true) := by decide

end Zephyr.Kernel.Sched
