import Zephyr.Kernel.Condvar.Releasing

/-! Every wait ends with the mutex, and no signal is missed. -/

namespace Zephyr.Kernel.Condvar

open Zephyr.Library Zephyr.Kernel.Mutex

/-! ### Waiters -/

/-- The queue holds the threads that have pended, in the order of their priorities; a thread that
has released the mutex and not yet pended has interrupts locked.
-/
structure Invariant (system : System) : Prop where
  mutex : Sound system.base system.phase
  sorted
    : system.waitQ.Pairwise fun first second =>
        system.base.prio first.thread ≤ system.base.prio second.thread
  once : (system.waitQ.map Waiter.thread).Nodup
  pended : ∀ thread, system.phase thread = .pended ↔ thread ∈ system.waitQ.map Waiter.thread
  releasing
    : ∀ thread timeout,
        system.phase thread = .releasing timeout → system.irqLock = some thread

theorem start_invariant (prio : Nat → Int) : Invariant (start prio) := by
  refine ⟨⟨?_, ?_, ?_, ?_, ?_⟩, ?_, ?_, ?_, ?_⟩
  all_goals simp [start, Mutex.start]

section

variable {system : System} {self : Nat} {new : Phase}

theorem Sound.setPhase {base : Mutex.System} {phase : Nat → Phase} (sound : Sound base phase)
    (apart : (phase self).mayHold = false) (notLocking : ∀ ret, new ≠ .locking ret)
    : Sound base (Function.update phase self new) := by
  have other {thread : Nat} (holds : (phase thread).mayHold = true) : thread ≠ self := by
    rintro rfl
    rw [apart] at holds
    cases holds
  refine ⟨sound.locked, ?_, ?_, sound.once, ?_⟩
  · intro thread owns
    rw [Function.update_of_ne (other (sound.owner thread owns))]
    exact sound.owner thread owns
  · intro waiter member
    rw [Function.update_of_ne (other (sound.queued waiter member).2.1)]
    exact sound.queued waiter member
  · intro thread ret isLocking notPended
    obtain ⟨-, before⟩ := locking_of_update notLocking isLocking
    exact sound.handed thread ret before notPended

theorem Invariant.act (invariant : Invariant system) {later : Mutex.System}
    {phases : Nat → Phase} {irq : Option Nat}
    (pended : ∀ thread, phases thread = .pended ↔ system.phase thread = .pended)
    (releasing : ∀ thread timeout, phases thread = .releasing timeout → irq = some thread)
    (acted : Sound later phases ∧ OthersKeepPrio system.base later)
    : Invariant { system with base := later, phase := phases, irqLock := irq } := by
  obtain ⟨mutex, prio⟩ := acted
  have kept {waiter : Waiter} (member : waiter ∈ system.waitQ)
      : later.prio waiter.thread = system.base.prio waiter.thread := by
    refine prio waiter.thread fun owns => ?_
    have holds := invariant.mutex.owner waiter.thread owns
    rw [(invariant.pended waiter.thread).mpr (List.mem_map_of_mem member)] at holds
    cases holds
  refine ⟨mutex, ?_, invariant.once, fun thread => (pended thread).trans (invariant.pended thread),
    releasing⟩
  refine invariant.sorted.imp_of_mem fun {first second} early late ordered => ?_
  change later.prio _ ≤ later.prio _
  rwa [kept early, kept late]

theorem Invariant.none_releasing (invariant : Invariant system) (unlocked : system.irqLock = none)
    (thread : Nat) (timeout : KTimeout)
    : system.phase thread ≠ .releasing timeout := by
  intro releasing
  have locked := invariant.releasing thread timeout releasing
  rw [unlocked] at locked
  cases locked

theorem update_pended_iff {phase : Nat → Phase} (notPended : phase self ≠ .pended)
    (stays : new ≠ .pended) (thread : Nat)
    : Function.update phase self new thread = .pended ↔ phase thread = .pended := by
  by_cases isSelf : thread = self
  · rw [isSelf, Function.update_self]
    exact iff_of_false stays notPended
  · rw [Function.update_of_ne isSelf]

theorem Invariant.act_open (invariant : Invariant system) {later : Mutex.System}
    (unlocked : system.irqLock = none) (notPended : system.phase self ≠ .pended)
    (stays : new ≠ .pended) (pends : ∀ timeout, new ≠ .releasing timeout)
    (acted
      : Sound later (Function.update system.phase self new) ∧ OthersKeepPrio system.base later)
    : Invariant ({ system with base := later }.setPhase self new) := by
  refine invariant.act (update_pended_iff notPended stays)
    (fun thread timeout releasing => ?_) acted
  by_cases isSelf : thread = self
  · rw [isSelf, Function.update_self] at releasing
    exact absurd releasing (pends timeout)
  · rw [Function.update_of_ne isSelf] at releasing
    exact absurd releasing (invariant.none_releasing unlocked thread timeout)

theorem Invariant.act_same (invariant : Invariant system) {later : Mutex.System}
    (acted : Sound later system.phase ∧ OthersKeepPrio system.base later)
    : Invariant { system with base := later } :=
  invariant.act (fun _ => Iff.rfl) invariant.releasing acted

theorem update_outside (outside : system.phase self = .outside)
    : Function.update system.phase self .outside = system.phase := by
  rw [← outside, Function.update_eq_self]

theorem Sound.returned {base : Mutex.System} {phase : Nat → Phase} (sound : Sound base phase)
    (running : (base.threads self).pendedOn = none)
    : Sound base (Function.update phase self .outside) := by
  refine ⟨sound.locked, ?_, ?_, sound.once, ?_⟩
  · intro thread owns
    by_cases isSelf : thread = self
    · rw [isSelf, Function.update_self]
      rfl
    · rw [Function.update_of_ne isSelf]
      exact sound.owner thread owns
  · intro waiter member
    rw [Function.update_of_ne (sound.absent running waiter member)]
    exact sound.queued waiter member
  · intro thread ret isLocking notPended
    obtain ⟨-, before⟩ := locking_of_update (by simp) isLocking
    exact sound.handed thread ret before notPended

theorem Invariant.relock (invariant : Invariant system) {ret : Int} {next : System}
    (unlocked : system.irqLock = none) (woken : system.phase self = .woken ret)
    (running : (system.base.threads self).pendedOn = none)
    (stepped : relock system self ret = some next)
    : Invariant next ∧ (next.phase self = .outside → next.mutex.owner = some self) := by
  have notOwner : (system.base.mutexes 0).owner ≠ some self := by
    intro owns
    have holds := invariant.mutex.owner self owns
    rw [woken] at holds
    cases holds
  unfold Condvar.relock at stepped
  split at stepped
  · cases stepped
  · rename_i base result locked
    cases stepped
    refine ⟨invariant.act_open unlocked (by simp [woken]) (by simp) (by simp)
      (invariant.mutex.lock running (fun owns => absurd owns notOwner) locked rfl (by simp)), ?_⟩
    intro
    rcases lock_cases locked with ⟨-, -, noWait⟩ | ⟨-, -, -, owner, -⟩ | ⟨none, -⟩
    · exact absurd noWait (by decide)
    · exact owner
    · cases none
  · rename_i base locked
    cases stepped
    refine ⟨invariant.act_open unlocked (by simp [woken]) (by simp) (by simp)
      (invariant.mutex.lock running (fun owns => absurd owns notOwner) locked rfl
        fun _ _ => ⟨rfl, rfl⟩), ?_⟩
    simp [System.setPhase]

theorem mutexUnlock_of_open (unlocked : system.irqLock = none) (self : Nat)
    : mutexUnlock system self
      = { system with base := (kMutexUnlock system.base self 0).1 } := by
  simp [mutexUnlock, kSpinLock, zReschedule, unlocked]

theorem kCondvarWait_eq (self : Nat) (timeout : KTimeout)
    : kCondvarWait system self timeout
      = { system with
          base := (kMutexUnlock system.base self 0).1
          phase := Function.update system.phase self (.releasing timeout)
          irqLock := some self } := by
  simp [kCondvarWait, mutexUnlock, kSpinLock, zReschedule, System.setPhase]

theorem Invariant.wait (invariant : Invariant system) (may : system.mayCall self)
    (count : system.mutex.lockCount = 1) (timeout : KTimeout)
    : Invariant (kCondvarWait system self timeout) := by
  obtain ⟨unlocked, outside, running, -⟩ := may
  have once : ¬(system.base.mutexes 0).lockCount > 1 := by
    rw [show (system.base.mutexes 0).lockCount = 1 from count]
    decide
  rw [kCondvarWait_eq]
  refine invariant.act (update_pended_iff (by simp [outside]) (by simp))
    (fun thread time releasing => ?_)
    (invariant.mutex.unlock running (by simp) fun _ more => absurd more once)
  by_cases isSelf : thread = self
  · rw [isSelf]
  · rw [Function.update_of_ne isSelf] at releasing
    exact absurd releasing (invariant.none_releasing unlocked thread time)

theorem Invariant.pend (invariant : Invariant system) {timeout : KTimeout}
    (releasing : system.phase self = .releasing timeout)
    : Invariant (zPendCurr system self timeout) := by
  have absent : self ∉ system.waitQ.map Waiter.thread := by
    rw [← invariant.pended, releasing]
    simp
  refine ⟨?_, ?_, ?_, ?_, ?_⟩
  · exact invariant.mutex.setPhase (by rw [releasing]; rfl) (by simp)
  · simp only [zPendCurr, zPriqDumbAdd_eq_stableInsert]
    exact increasing_stableInsert invariant.sorted
  · simp only [zPendCurr, zPriqDumbAdd_eq_stableInsert]
    refine (((perm_stableInsert _ _ _).map Waiter.thread).nodup_iff).mpr ?_
    exact List.nodup_cons.mpr ⟨absent, invariant.once⟩
  · intro thread
    simp only [zPendCurr, System.setPhase, zPriqDumbAdd_eq_stableInsert]
    rw [((perm_stableInsert _ _ _).map Waiter.thread).mem_iff, List.map_cons, List.mem_cons]
    by_cases isSelf : thread = self
    · simp [isSelf]
    · rw [Function.update_of_ne isSelf, invariant.pended thread]
      simp [isSelf]
  · intro thread time stillReleasing
    simp only [zPendCurr, System.setPhase] at stillReleasing
    by_cases isSelf : thread = self
    · rw [isSelf, Function.update_self] at stillReleasing
      cases stillReleasing
    · rw [Function.update_of_ne isSelf] at stillReleasing
      have both := (invariant.releasing thread time stillReleasing).symm.trans
        (invariant.releasing self timeout releasing)
      exact absurd (Option.some.inj both) isSelf

theorem Invariant.wake (invariant : Invariant system) {waiter : Waiter}
    (member : waiter ∈ system.waitQ) (ret : Int)
    : Invariant
        { system.setPhase waiter.thread (.woken ret) with
          waitQ := system.waitQ.erase waiter } := by
  have wasPended := (invariant.pended waiter.thread).mpr (List.mem_map_of_mem member)
  have shorter := (List.erase_sublist (a := waiter) (l := system.waitQ))
  refine ⟨?_, invariant.sorted.sublist shorter, invariant.once.sublist (shorter.map _), ?_, ?_⟩
  · exact invariant.mutex.setPhase (by rw [wasPended]; rfl) (by simp)
  · intro thread
    change Function.update system.phase waiter.thread (.woken ret) thread = _ ↔ _
    rw [mem_erase_thread invariant.once member, ← invariant.pended thread]
    by_cases isSelf : thread = waiter.thread
    · simp [isSelf]
    · rw [Function.update_of_ne isSelf]
      simp [isSelf]
  · intro thread timeout releasing
    change Function.update system.phase waiter.thread (.woken ret) thread = _ at releasing
    by_cases isSelf : thread = waiter.thread
    · rw [isSelf, Function.update_self] at releasing
      cases releasing
    · rw [Function.update_of_ne isSelf] at releasing
      exact invariant.releasing thread timeout releasing

theorem Invariant.signal (invariant : Invariant system) : Invariant (kCondvarSignal system) := by
  unfold kCondvarSignal
  split
  · exact invariant
  · rename_i waiter rest queue
    have woken := invariant.wake (by simp [queue] : waiter ∈ system.waitQ) 0
    rwa [queue, List.erase_cons_head] at woken

theorem wakeAll_eq (queue : List Waiter) (phase : Nat → Phase) (woken : Nat)
    : (wakeAll phase queue woken).2 = woken + queue.length
      ∧ ∀ thread,
          (wakeAll phase queue woken).1 thread
          = if thread ∈ queue.map Waiter.thread then .woken 0 else phase thread := by
  induction queue generalizing phase woken with
  | nil => simp [wakeAll]
  | cons waiter rest ih =>
      obtain ⟨count, phases⟩ := ih (Function.update phase waiter.thread (.woken 0)) (woken + 1)
      refine ⟨?_, fun thread => ?_⟩
      · rw [wakeAll, count, List.length_cons]
        omega
      · rw [wakeAll, phases]
        by_cases first : thread = waiter.thread
        · simp [first]
        · simp [first]

theorem Invariant.broadcast (invariant : Invariant system)
    : Invariant (kCondvarBroadcast system).1 := by
  have every (queue : List Waiter) : ∀ {system : System} (woken : Nat), system.waitQ = queue →
      Invariant system →
      Invariant { system with phase := (wakeAll system.phase queue woken).1, waitQ := [] } := by
    induction queue with
    | nil =>
        intro system woken empty invariant
        rwa [wakeAll, ← empty]
    | cons waiter rest ih =>
        intro system woken queue invariant
        have first := invariant.wake (by simp [queue] : waiter ∈ system.waitQ) 0
        rw [queue, List.erase_cons_head] at first
        exact ih (woken + 1) rfl first
  exact every system.waitQ 0 rfl invariant

theorem Invariant.step (invariant : Invariant system) {call : Call} {next : System}
    (stepped : step system call = some next)
    : Invariant next := by
  cases call with
  | lock thread timeout =>
      simp only [Condvar.step] at stepped
      split at stepped
      · rename_i guard
        obtain ⟨⟨base, result⟩, locked, rfl⟩ := Option.map_eq_some_iff.mp stepped
        have acted : Sound _ (Function.update system.phase thread .outside) ∧ _ :=
          invariant.mutex.lock guard.1.2.2.1 guard.2 locked rfl (by simp)
        rw [update_outside guard.1.2.1] at acted
        exact invariant.act_same acted
      · cases stepped
  | unlock thread =>
      simp only [Condvar.step] at stepped
      split at stepped
      · rename_i may
        cases stepped
        rw [mutexUnlock_of_open may.1]
        have acted : Sound _ (Function.update system.phase thread .outside) ∧ _ :=
          invariant.mutex.unlock may.2.2.1 (by simp) fun _ _ => rfl
        rw [update_outside may.2.1] at acted
        exact invariant.act_same acted
      · cases stepped
  | lockTimeout thread =>
      simp only [Condvar.step] at stepped
      split at stepped
      · rename_i waiter found
        split at stepped
        · cases stepped
          have timed := List.find?_some found
          simp only [decide_eq_true_eq] at timed
          exact invariant.act_same
            (invariant.mutex.lockTimeout (List.mem_of_find?_eq_some found) timed.2)
        · cases stepped
      · cases stepped
  | lockTimedOut thread =>
      simp only [Condvar.step] at stepped
      split at stepped
      · cases stepped
        obtain ⟨mutexes, pendedOn, prio⟩ := lockTimedOut_fields system.base thread
        exact invariant.act_same ⟨invariant.mutex.congr mutexes pendedOn, prio⟩
      · cases stepped
  | wait thread timeout =>
      simp only [Condvar.step] at stepped
      split at stepped
      · rename_i guard
        cases stepped
        exact invariant.wait guard.1 guard.2.2 timeout
      · cases stepped
  | pend thread =>
      simp only [Condvar.step] at stepped
      split at stepped
      · rename_i timeout releasing
        cases stepped
        exact invariant.pend releasing
      · cases stepped
  | waitTimeout thread =>
      simp only [Condvar.step] at stepped
      split at stepped
      · rename_i waiter found
        split at stepped
        · cases stepped
          have timed := List.find?_some found
          simp only [decide_eq_true_eq] at timed
          rw [← timed.1]
          exact invariant.wake (List.mem_of_find?_eq_some found) _
        · cases stepped
      · cases stepped
  | relock thread =>
      simp only [Condvar.step] at stepped
      split at stepped
      · rename_i ret woken
        split at stepped
        · rename_i guard
          exact (invariant.relock guard.1 woken guard.2 stepped).1
        · cases stepped
      · cases stepped
  | waitReturn thread =>
      simp only [Condvar.step] at stepped
      split at stepped
      · rename_i ret locking
        split at stepped
        · rename_i guard
          cases stepped
          refine invariant.act_open guard.1 (by simp [locking]) (by simp) (by simp)
            ⟨?_, fun _ _ => rfl⟩
          exact invariant.mutex.returned guard.2
        · cases stepped
      · cases stepped
  | signal thread =>
      simp only [Condvar.step] at stepped
      split at stepped
      · cases stepped
        exact invariant.signal
      · cases stepped
  | broadcast thread =>
      simp only [Condvar.step] at stepped
      split at stepped
      · cases stepped
        exact invariant.broadcast
      · cases stepped

end

/-! ### Waits and wake-ups -/

/-- A signal makes ready the first of the threads that wait, which has the highest priority. -/
def Signals (system after : System) : Prop :=
  (system.waitQ = [] ∧ after = system)
  ∨ ∃ first rest,
      system.waitQ = first :: rest
      ∧ after = { system.setPhase first.thread (.woken 0) with waitQ := rest }
      ∧ system.phase first.thread = .pended
      ∧ ∀ waiter ∈ system.waitQ, system.base.prio first.thread ≤ system.base.prio waiter.thread

/-- A broadcast makes ready every thread that waits, and no other. -/
def Broadcasts (system after : System) : Prop :=
  after.waitQ = []
  ∧ ∀ thread,
      after.phase thread
      = if system.phase thread = .pended then .woken 0 else system.phase thread

/-- In every state of every run: a wait returns with the mutex owned by its caller; whenever another
thread can run, a thread that has released the mutex in a wait and is not yet ready again is in the
queue; a signal and a broadcast make ready whom they should.
-/
theorem waits_end_as_owner {prio : Nat → Int} {calls : List Call} {system : System}
    (ran : run step (start prio) calls = some system)
    : (∀ thread after,
        step system (.relock thread) = some after ∨ step system (.waitReturn thread) = some after
        → after.phase thread = .outside
        → after.mutex.owner = some thread)
      ∧ (system.irqLock = none
        → ∀ thread timeout,
            system.phase thread ≠ .releasing timeout
            ∧ (system.phase thread = .pended → thread ∈ system.waitQ.map Waiter.thread))
      ∧ (∀ caller after, step system (.signal caller) = some after → Signals system after)
      ∧ (∀ caller after,
          step system (.broadcast caller) = some after
          → Broadcasts system after ∧ (kCondvarBroadcast system).2 = system.waitQ.length) := by
  have invariant : Invariant system :=
    run_invariant Invariant (fun invariant stepped => invariant.step stepped)
      (start_invariant prio) ran
  refine ⟨?_, ?_, ?_, ?_⟩
  · rintro thread after (stepped | stepped) outside
    · simp only [step] at stepped
      split at stepped
      · rename_i ret woken
        split at stepped
        · rename_i guard
          exact (invariant.relock guard.1 woken guard.2 stepped).2 outside
        · cases stepped
      · cases stepped
    · simp only [step] at stepped
      split at stepped
      · rename_i ret locking
        split at stepped
        · rename_i guard
          cases stepped
          exact invariant.mutex.handed thread ret locking guard.2
        · cases stepped
      · cases stepped
  · exact fun unlocked thread timeout =>
      ⟨invariant.none_releasing unlocked thread timeout, (invariant.pended thread).mp⟩
  · intro caller after stepped
    simp only [step] at stepped
    split at stepped
    · cases stepped
      unfold kCondvarSignal
      split
      · rename_i empty
        exact .inl ⟨empty, rfl⟩
      · rename_i first rest queue
        refine .inr ⟨first, rest, queue, rfl, (invariant.pended _).mpr (by simp [queue]), ?_⟩
        have sorted := invariant.sorted
        rw [queue] at sorted ⊢
        intro waiter member
        rcases List.mem_cons.mp member with rfl | later
        · exact Int.le_refl _
        · exact (List.pairwise_cons.mp sorted).1 waiter later
    · cases stepped
  · intro caller after stepped
    simp only [step] at stepped
    split at stepped
    · cases stepped
      obtain ⟨count, phases⟩ := wakeAll_eq system.waitQ system.phase 0
      refine ⟨⟨rfl, fun thread => ?_⟩, count.trans (Nat.zero_add _)⟩
      simp only [invariant.pended]
      exact phases thread
    · cases stepped

/-- One thread waits, another takes the mutex, signals and releases it. -/
def oneSignal : List Call :=
  [.lock 1 kForever, .wait 1 kForever, .pend 1, .lock 2 kForever, .signal 2, .unlock 2]

theorem signalled_wait_ends_as_owner
    : ∃ system after,
        run step (start fun _ => 5) oneSignal = some system
        ∧ step system (.relock 1) = some after
        ∧ after.phase 1 = .outside
        ∧ after.mutex.owner = some 1 := by
  have ends : ∃ system after,
      run step (start fun _ => 5) oneSignal = some system
      ∧ step system (.relock 1) = some after
      ∧ after.phase 1 = .outside := ⟨_, _, rfl, rfl, rfl⟩
  obtain ⟨system, after, ran, stepped, outside⟩ := ends
  exact ⟨system, after, ran, stepped, outside,
    (waits_end_as_owner ran).1 1 after (.inl stepped) outside⟩

end Zephyr.Kernel.Condvar
