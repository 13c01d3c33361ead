import Zephyr.Library.MachineInt
import Zephyr.Kernel.Sched.Altering

/-! How a sleep ends: by `k_wakeup`, by a suspension that is taken back, and with which remaining
time. Sleeping, suspension and a delayed start share one state bit and one timeout.
-/

namespace Zephyr.Kernel.Sched

open Zephyr.Library

variable {context : Context} {system : System} {thread : Nat}

/-! ### A thread that is no longer suspended -/

/-- The end of `k_wakeup` and `k_thread_resume`. -/
def unsuspend (context : Context) (system : System) (thread : Nat) : System :=
  zReschedule context (readyThread (system.modify thread zMarkThreadAsNotSuspended) thread)

theorem readyThread_self (system : System) (thread : Nat)
    : ∃ queued, (readyThread system thread).threads thread
        = (system.threads thread).setQueued queued := by
  unfold readyThread
  split
  · exact ⟨true, by simp [updateCache, queueThread]⟩
  · exact ⟨(system.threads thread).state.queued, rfl⟩

theorem zReschedule_self (context : Context) (system : System) (thread : Nat)
    : ∃ retval, (zReschedule context system).threads thread
        = { system.threads thread with swapRetval := retval } := by
  by_cases same : thread = system.current
  · subst same
    unfold zReschedule
    split
    · exact ⟨-eagain, by simp [zSwap]⟩
    · exact ⟨(system.threads system.current).swapRetval, rfl⟩
  · exact ⟨(system.threads thread).swapRetval, by rw [zReschedule_other same]⟩

theorem unsuspend_self (context : Context) (system : System) (thread : Nat)
    : ∃ queued retval, (unsuspend context system thread).threads thread
        = { (zMarkThreadAsNotSuspended (system.threads thread)).setQueued queued with
            swapRetval := retval } := by
  obtain ⟨queued, readied⟩ :=
    readyThread_self (system.modify thread zMarkThreadAsNotSuspended) thread
  obtain ⟨retval, rescheduled⟩ := zReschedule_self context
    (readyThread (system.modify thread zMarkThreadAsNotSuspended) thread) thread
  refine ⟨queued, retval, ?_⟩
  rw [unsuspend, rescheduled, readied, System.modify_self]

/-! ### Waking up -/

/-- What decides when a thread runs again. -/
def Thread.schedule (thread : Thread) : ThreadState × Bool :=
  (thread.state, thread.timeoutActive)

/-- The thread waits for an object, or it has no timeout and is not only suspended. -/
def Thread.IgnoresWakeup (thread : Thread) : Prop :=
  thread.state.pending = true
  ∨ thread.timeoutActive = false ∧ thread.state ≠ { suspended := true }

instance (thread : Thread) : Decidable thread.IgnoresWakeup :=
  inferInstanceAs (Decidable (_ ∨ _))

theorem kWakeup_of_ignores (ignores : (system.threads thread).IgnoresWakeup)
    : kWakeup context system thread = system := by
  unfold kWakeup
  split
  · rfl
  · rename_i free
    obtain ⟨inactive, other⟩ := ignores.resolve_left free
    simp [zAbortThreadTimeout, inactive, other, einval]

theorem kWakeup_of_not_ignores (heeds : ¬ (system.threads thread).IgnoresWakeup)
    : kWakeup context system thread
      = unsuspend context (zAbortThreadTimeout system thread).1 thread := by
  have free : ¬ (system.threads thread).state.pending = true := fun pending => heeds (.inl pending)
  unfold kWakeup
  rw [if_neg free]
  by_cases active : (system.threads thread).timeoutActive = true
  · simp [zAbortThreadTimeout, active, unsuspend]
  · have alone : (system.threads thread).state = { suspended := true } := by
      by_contra other
      exact heeds (.inr ⟨Bool.eq_false_iff.mpr active, other⟩)
    simp [zAbortThreadTimeout, active, alone, unsuspend]

/-- A thread keeps its state and its timeout when it is woken up exactly if it waits for an
object, or it has no timeout and is not only suspended; then nothing changes at all.
-/
theorem kWakeup_without_effect_iff (context : Context) (system : System) (thread : Nat)
    : (((kWakeup context system thread).threads thread).schedule
          = (system.threads thread).schedule
        ↔ (system.threads thread).IgnoresWakeup)
      ∧ ((system.threads thread).IgnoresWakeup → kWakeup context system thread = system) := by
  refine ⟨⟨?_, fun ignores => by rw [kWakeup_of_ignores ignores]⟩, kWakeup_of_ignores⟩
  intro same
  by_contra heeds
  obtain ⟨queued, retval, woken⟩ :=
    unsuspend_self context (zAbortThreadTimeout system thread).1 thread
  rw [kWakeup_of_not_ignores heeds, woken, zAbortThreadTimeout_self] at same
  obtain ⟨state, inactive⟩ := Prod.mk.inj same
  -- the timeout was not active, so the thread was only suspended, and it no longer is
  have alone : (system.threads thread).state = { suspended := true } := by
    by_contra other
    exact heeds (.inr ⟨inactive.symm, other⟩)
  have still := congrArg ThreadState.suspended state
  simp [alone, zMarkThreadAsNotSuspended, Thread.setQueued] at still

/-- Thread 2 is to start in 100 ticks: woken up by thread 1, it has no timeout and never starts.
Started and suspended, it is woken up into the run queue.
-/
theorem kWakeup_of_nonsleeping
    : (run step (start oneCooperative (fun _ => false) (fun _ => false))
          [.interrupt (.start 1), .contextSwitch, .thread true (.scheduleNew 2 ⟨100⟩),
            .thread true (.wakeup 2)]).map
            (fun system => ((system.threads 2).schedule, (step system (.timeout 2)).isSome))
        = some (({ prestart := true }, false), false)
      ∧ (run step (start oneCooperative (fun _ => false) (fun _ => false))
          [.interrupt (.start 1), .contextSwitch, .thread true (.start 2),
            .thread true (.suspend 2), .thread true (.wakeup 2)]).map
            (fun system => ((system.threads 2).schedule, system.runq))
        = some (({ queued := true }, false), [1, 2]) := by
  decide

/-! ### Suspending and resuming -/

/-- The thread is blocked and has a timeout. -/
structure Thread.BlockedFor (thread : Thread) : Prop where
  active : thread.timeoutActive = true
  blocked : thread.state.pending || thread.state.prestart || thread.state.suspended
  alive : thread.state.dead = false
  real : thread.state.dummy = false

/-- What happens without a call of any thread or interrupt handler. -/
def Call.unasked : Call → Bool
  | .timeout _ | .contextSwitch => true
  | .interrupt _ | .thread .. | .self .. => false

/-- The thread becomes ready though nobody acts. -/
def System.ReadiesAlone (system : System) (thread : Nat) : Prop :=
  ∃ calls later,
    (∀ call ∈ calls, call.unasked = true)
    ∧ run step system calls = some later
    ∧ zIsThreadReady (later.threads thread) = true

theorem unasked_step_other {later : System} {call : Call} (unasked : call.unasked = true)
    (inactive : (system.threads thread).timeoutActive = false)
    (stepped : step system call = some later)
    : later.threads thread = system.threads thread := by
  cases call with
  | timeout other =>
      obtain ⟨⟨-, active⟩, stepped⟩ := Option.ite_none_right_eq_some.mp stepped
      have ne : thread ≠ other := by
        rintro rfl
        exact absurd active (by simp [inactive])
      obtain ⟨⟩ := stepped
      exact System.Alters.zThreadTimeout.others thread (by simpa using ne)
  | contextSwitch =>
      obtain ⟨-, stepped⟩ := Option.ite_none_right_eq_some.mp stepped
      obtain ⟨⟩ := stepped
      rfl
  | interrupt => exact nomatch unasked
  | thread => exact nomatch unasked
  | self => exact nomatch unasked

theorem unasked_run_other {calls : List Call} {later : System}
    (unasked : ∀ call ∈ calls, call.unasked = true)
    (inactive : (system.threads thread).timeoutActive = false)
    (ran : run step system calls = some later)
    : later.threads thread = system.threads thread :=
  run_invariant_of_meets (fun reached => reached.threads thread = system.threads thread)
    (fun same unasked stepped =>
      (unasked_step_other unasked (by rwa [same]) stepped).trans same)
    rfl (RunMeets.of_mem (fun call member _ => unasked call member) system) ran

theorem kThreadSuspend_found (context : Context) (ne : thread ≠ system.current)
    : ∃ queued, (kThreadSuspend context system thread).threads thread
        = { (zMarkThreadAsSuspended (system.threads thread)).setQueued queued with
            timeoutActive := false } := by
  have current : (zAbortThreadTimeout system thread).1.current = system.current :=
    System.Alters.zAbortThreadTimeout.current
  unfold kThreadSuspend zThreadHalt
  dsimp only
  split
  · rename_i suspended
    refine ⟨(system.threads thread).state.queued, ?_⟩
    rw [zAbortThreadTimeout_self] at suspended ⊢
    rw [zMarkThreadAsSuspended, ← suspended]
    rfl
  · rename_i runs
    refine ⟨false, ?_⟩
    rw [current, if_neg (fun both => ne both.1), haltThread_self (Bool.eq_false_iff.mpr runs),
      zAbortThreadTimeout_self]
    rfl

/-- A thread with a timeout is suspended by another one and resumed later, with nothing done to
it in between: it becomes ready by itself exactly if it neither waited for an object nor for its
start.
-/
theorem resumed_readies_iff (system : System) {irqUnlocked irqUnlocked' : Bool}
    {suspended between resumed : System}
    (blocked : (system.threads thread).BlockedFor) (ne : thread ≠ system.current)
    (suspending : step system (.thread irqUnlocked (.suspend thread)) = some suspended)
    (kept : between.threads thread = suspended.threads thread)
    (resuming : step between (.thread irqUnlocked' (.resume thread)) = some resumed)
    : resumed.ReadiesAlone thread
      ↔ (system.threads thread).state.pending = false
        ∧ (system.threads thread).state.prestart = false := by
  obtain ⟨-, halted⟩ := Option.ite_none_right_eq_some.mp suspending
  obtain ⟨-, unhalted⟩ := Option.ite_none_right_eq_some.mp resuming
  obtain ⟨⟩ := halted
  obtain ⟨⟩ := unhalted
  obtain ⟨queued, found⟩ := kThreadSuspend_found (.thread irqUnlocked) ne
  rw [found] at kept
  obtain ⟨queued', retval, woken⟩ := unsuspend_self (.thread irqUnlocked') between thread
  have resumes : kThreadResume (.thread irqUnlocked') between thread
      = unsuspend (.thread irqUnlocked') between thread := by
    rw [kThreadResume, if_pos (by rw [kept]; rfl), unsuspend]
  rw [kept] at woken
  rw [resumes]
  constructor
  · rintro ⟨calls, later, unasked, ran, ready⟩
    have same := unasked_run_other unasked (by rw [woken]; rfl) ran
    rw [same, woken] at ready
    constructor
    all_goals
      by_contra waits
      simp [zIsThreadReady, zIsThreadPreventedFromRunning, zMarkThreadAsNotSuspended,
        zMarkThreadAsSuspended, Thread.setQueued, waits] at ready
  · rintro ⟨free, started⟩
    refine ⟨[], _, by simp, rfl, ?_⟩
    rw [woken]
    simp [zIsThreadReady, zIsThreadPreventedFromRunning, zMarkThreadAsNotSuspended,
      zMarkThreadAsSuspended, Thread.setQueued, free, started, blocked.alive, blocked.real]

/-- Thread 2 sleeps and thread 1 runs. -/
def sleeper : Option System :=
  run step (start oneCooperative (fun _ => false) (fun _ => false))
    [.interrupt (.start 2), .contextSwitch, .self true (.sleep ⟨5⟩), .interrupt (.start 1),
      .contextSwitch]

theorem sleeper_readies
    : ∃ system suspended resumed,
        sleeper = some system
        ∧ step system (.thread true (.suspend 2)) = some suspended
        ∧ step suspended (.thread true (.resume 2)) = some resumed
        ∧ resumed.ReadiesAlone 2 := by
  refine ⟨sleeper.get (by decide), _, _, rfl, rfl, rfl, ?_⟩
  refine (resumed_readies_iff (sleeper.get (by decide)) ?_ ?_ rfl rfl rfl).mpr ?_
  · exact ⟨by decide, by decide, by decide, by decide⟩
  · decide
  · decide

/-- Thread 2 waits 5 ticks for an object, or is to start in 5 ticks, when thread 1 suspends and
resumes it: it stays where it is and has no timeout.
-/
theorem waiter_stays
    : (run step (start oneCooperative (fun _ => false) (fun _ => false))
          [.interrupt (.start 2), .contextSwitch, .self true (.pend (some (.object 7)) ⟨5⟩),
            .interrupt (.start 1), .contextSwitch, .thread true (.suspend 2),
            .thread true (.resume 2)]).map
            (fun system => ((system.threads 2).schedule, (step system (.timeout 2)).isSome))
        = some (({ pending := true }, false), false)
      ∧ (run step (start oneCooperative (fun _ => false) (fun _ => false))
          [.interrupt (.start 1), .contextSwitch, .thread true (.scheduleNew 2 ⟨5⟩),
            .thread true (.suspend 2), .thread true (.resume 2)]).map
            (fun system => ((system.threads 2).schedule, (step system (.timeout 2)).isSome))
        = some (({ prestart := true }, false), false) := by
  decide

/-! ### The remaining time -/

/-- `sys_clock_tick_get_32` when so many ticks have passed. -/
def sysClockTickGet32 (now : Nat) : UInt32 :=
  .ofNat now

/-- `expected_wakeup_ticks` in `z_tick_sleep`. -/
def expectedWakeupTicks (ticks : Int64) (now : Nat) : UInt32 :=
  if zTickAbs ticks ≤ 0 then (ticks + (sysClockTickGet32 now).toUInt64.toInt64).toUInt64.toUInt32
  else (zTickAbs ticks).toUInt64.toUInt32

/-- What `z_tick_sleep` returns: it was called at `start` and the thread runs again at `wake`. -/
def zTickSleepReturn (ticks : Int64) (start wake : Nat) : Int32 :=
  if ticks = 0 then 0
  else
    let ticks := (expectedWakeupTicks ticks start).toUInt64.toInt64
      - (sysClockTickGet32 wake).toUInt64.toInt64
    if ticks > 0 then ticks.toInt32 else 0

/-- `k_ticks_to_ms_ceil64` at 10000 ticks in a second. -/
def kTicksToMsCeil64 (ticks : UInt64) : UInt64 :=
  (ticks + (10 - 1)) / 10

/-- What `k_sleep` returns. -/
def kSleepReturn (timeout : KTimeout) (start wake : Nat) : Int32 :=
  if timeout = kForever then kTicksForever.toInt32
  else
    let ticks := (zTickSleepReturn timeout.ticks start wake).toInt64
    (kTicksToMsCeil64 ticks.toUInt64).toUInt32.toInt32

theorem toInt_toInt64_word (word : UInt32) : word.toUInt64.toInt64.toInt = word.toNat := by
  have small := word.toNat_lt
  change word.toUInt64.toBitVec.toInt = _
  rw [BitVec.toInt_eq_toNat_bmod]
  change Int.bmod (word.toUInt64.toNat : Int) (2 ^ 64) = _
  rw [UInt32.toNat_toUInt64]
  exact Int.bmod_eq_of_le (by omega) (by omega)

theorem toNat_toUInt64_of_nonneg {ticks : Int64} (nonneg : 0 ≤ ticks.toInt)
    : (ticks.toUInt64.toNat : Int) = ticks.toInt := by
  change (ticks.toBitVec.toNat : Int) = ticks.toBitVec.toInt
  change 0 ≤ ticks.toBitVec.toInt at nonneg
  rw [BitVec.toInt_eq_toNat_cond] at nonneg ⊢
  split
  · rfl
  · have := ticks.toBitVec.isLt
    split at nonneg <;> omega

theorem expectedWakeupTicks_toNat {ticks : Int64} (now : Nat) (positive : 0 < ticks.toInt)
    (small : ticks.toInt < 2 ^ 31)
    : ((expectedWakeupTicks ticks now).toNat : Int) = (now + ticks.toInt) % 2 ^ 32 := by
  have word : (sysClockTickGet32 now).toNat = now % 2 ^ 32 := UInt32.toNat_ofNat'
  have low := toInt_toInt64_word (sysClockTickGet32 now)
  have relative : zTickAbs ticks ≤ 0 := by
    have forever : (kTicksForever - 1).toInt = -2 := rfl
    have zero : (0 : Int64).toInt = 0 := rfl
    rw [Int64.le_iff_toInt_le, zTickAbs, toInt_sub_of_range] <;> omega
  have sum : (ticks + (sysClockTickGet32 now).toUInt64.toInt64).toInt
      = ticks.toInt + (now % 2 ^ 32 : Nat) := by
    rw [toInt_add_of_range, low, word]
    all_goals
      rw [low, word]
      omega
  have nonneg : 0 ≤ (ticks + (sysClockTickGet32 now).toUInt64.toInt64).toInt := by omega
  have nat := toNat_toUInt64_of_nonneg nonneg
  rw [expectedWakeupTicks, if_pos relative, UInt64.toNat_toUInt32]
  omega

/-- The sleep ends in the same period of the low word as was expected, or in a later one and there
not before the same place.
-/
def SameWord (expected wake : Nat) : Prop :=
  expected / 2 ^ 32 = wake / 2 ^ 32
  ∨ expected ≤ wake ∧ expected % 2 ^ 32 ≤ wake % 2 ^ 32

instance (expected wake : Nat) : Decidable (SameWord expected wake) :=
  inferInstanceAs (Decidable (_ ∨ _))

/-- The difference of the low words, cut off to 32 bits, is the remaining time. -/
theorem low_words_iff {start ticks wake : Nat} (positive : 0 < ticks) (small : ticks < 2 ^ 31)
    (later : start ≤ wake)
    : (if ((start + ticks) % 2 ^ 32 : Int) - (wake % 2 ^ 32 : Int) > 0 then
          (((start + ticks) % 2 ^ 32 : Int) - (wake % 2 ^ 32 : Int)).bmod (2 ^ 32)
        else 0)
        = max 0 ((start : Int) + ticks - wake)
      ↔ SameWord (start + ticks) wake := by
  unfold SameWord
  rw [Int.bmod_def]
  split <;> [split; skip] <;> omega

theorem zTickSleepReturn_toInt {ticks : Int64} {start wake : Nat} (positive : 0 < ticks.toInt)
    (small : ticks.toInt < 2 ^ 31)
    : (zTickSleepReturn ticks start wake).toInt
      = if ((start + ticks.toInt) % 2 ^ 32 : Int) - (wake % 2 ^ 32 : Int) > 0 then
          (((start + ticks.toInt) % 2 ^ 32 : Int) - (wake % 2 ^ 32 : Int)).bmod (2 ^ 32)
        else 0 := by
  have nonzero : ticks ≠ 0 := by
    rintro rfl
    exact absurd positive (by decide)
  have word : (sysClockTickGet32 wake).toNat = wake % 2 ^ 32 := UInt32.toNat_ofNat'
  have expected := expectedWakeupTicks_toNat start positive small
  have left : ((expectedWakeupTicks ticks start).toUInt64.toInt64
      - (sysClockTickGet32 wake).toUInt64.toInt64).toInt
      = ((start + ticks.toInt) % 2 ^ 32 : Int) - (wake % 2 ^ 32 : Int) := by
    have first := toInt_toInt64_word (expectedWakeupTicks ticks start)
    have second := toInt_toInt64_word (sysClockTickGet32 wake)
    rw [toInt_sub_of_range] <;> omega
  simp only [zTickSleepReturn, if_neg nonzero, gt_iff_lt, Int64.lt_iff_toInt_lt, left,
    show (0 : Int64).toInt = 0 from rfl]
  split
  · rw [Int64.toInt_toInt32, left]
  · rfl

theorem kTicksToMsCeil64_of_small {ticks : Int32} (nonneg : 0 ≤ ticks.toInt)
    : (kTicksToMsCeil64 ticks.toInt64.toUInt64).toUInt32.toInt32.toInt
      = (ticks.toInt + 9) / 10 := by
  have bound := ticks.toInt_lt
  have wide : ticks.toInt64.toInt = ticks.toInt := Int32.toInt_toInt64 ticks
  have word := toNat_toUInt64_of_nonneg (wide ▸ nonneg)
  have quotient : (kTicksToMsCeil64 ticks.toInt64.toUInt64).toNat
      = (ticks.toInt64.toUInt64.toNat + 9) / 10 := by
    have nine : (10 - 1 : UInt64).toNat = 9 := rfl
    have ten : (10 : UInt64).toNat = 10 := rfl
    rw [kTicksToMsCeil64, UInt64.toNat_div, UInt64.toNat_add, nine, ten]
    omega
  change (kTicksToMsCeil64 ticks.toInt64.toUInt64).toUInt32.toBitVec.toInt = _
  rw [BitVec.toInt_eq_toNat_bmod]
  change Int.bmod ((kTicksToMsCeil64 ticks.toInt64.toUInt64).toUInt32.toNat : Int) (2 ^ 32) = _
  rw [UInt64.toNat_toUInt32, quotient, Int.bmod_eq_of_le] <;> omega

/-- A relative sleep returns the remaining ticks exactly if it ends as `SameWord` says, and then
`k_sleep` returns them in milliseconds.
-/
theorem remaining_time_iff {ticks : Int64} {start wake : Nat} (positive : 0 < ticks.toInt)
    (small : ticks.toInt < 2 ^ 31) (later : start ≤ wake)
    : ((zTickSleepReturn ticks start wake).toInt = max 0 (start + ticks.toInt - wake)
        ↔ SameWord (start + ticks.toInt.toNat) wake)
      ∧ (SameWord (start + ticks.toInt.toNat) wake
        → (kSleepReturn ⟨ticks⟩ start wake).toInt
          = (max 0 (start + ticks.toInt - wake) + 9) / 10) := by
  have nat : (ticks.toInt.toNat : Int) = ticks.toInt := Int.toNat_of_nonneg positive.le
  have exact_iff : (zTickSleepReturn ticks start wake).toInt
      = max 0 (start + ticks.toInt - wake) ↔ SameWord (start + ticks.toInt.toNat) wake := by
    have words := low_words_iff (show 0 < ticks.toInt.toNat by omega) (by omega) later
    rw [nat] at words
    rwa [zTickSleepReturn_toInt positive small]
  refine ⟨exact_iff, fun same => ?_⟩
  have remaining := exact_iff.mpr same
  have finite : (⟨ticks⟩ : KTimeout) ≠ kForever := by
    intro forever
    rw [KTimeout.mk.inj forever] at positive
    exact absurd positive (by decide)
  have nonneg : 0 ≤ (zTickSleepReturn ticks start wake).toInt := by omega
  rw [kSleepReturn, if_neg finite, kTicksToMsCeil64_of_small nonneg, remaining]

/-- A sleep of 1000 ticks at tick 100, woken up at tick 600: 500 ticks or 50 ms are left. -/
theorem remaining_half
    : (zTickSleepReturn 1000 100 600).toInt = 500 ∧ (kSleepReturn ⟨1000⟩ 100 600).toInt = 50 := by
  have positive : 0 < (1000 : Int64).toInt := by decide
  have remains := remaining_time_iff positive (by decide) (show 100 ≤ 600 by decide)
  exact ⟨remains.1.mpr (by decide), remains.2 (by decide)⟩

/-- A sleep from ten ticks before the wrap around of the low word that should end five ticks
before it and ends ten after it returns almost 2 ^ 32 ticks as a negative number, and one of 20
ticks that is woken up after one tick returns 0.
-/
theorem remaining_wrong
    : (zTickSleepReturn 5 (2 ^ 32 - 10) (2 ^ 32 + 10)).toInt = -15
      ∧ (kSleepReturn ⟨5⟩ (2 ^ 32 - 10) (2 ^ 32 + 10)).toInt = -1717986919
      ∧ (zTickSleepReturn 20 (2 ^ 32 - 10) (2 ^ 32 - 9)).toInt = 0 := by
  decide +kernel

end Zephyr.Kernel.Sched
