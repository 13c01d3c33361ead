import Zephyr.Kernel.Work.Deadlines

/-! The timer of a delayable item submits it at or after the deadline of the last schedule or
reschedule, once, and not after a cancel, as long as no timer is set between the dequeuing of an
expired timeout of the item and its callback.
-/

namespace Zephyr.Kernel.Work

open Zephyr.Library
open Timeout (Clock History Tracks CallInRange Arming)

variable {delayables : Delayables} {ledger : Ledger} {item : Nat}

/-! ### Expiry -/

namespace Timed

theorem announceLoop_callback {clock : Clock Timer Unit} {hw : UInt32}
    {running : Timeout.Callback Timer Unit}
    (started : (clock.announceLoop hw).callback = some running)
    : clock.isLinked running.node = true := by
  cases list : clock.timeoutList with
  | nil =>
      simp only [Clock.announceLoop, list] at started
      cases started
  | cons t rest =>
      simp only [Clock.announceLoop, list] at started
      split at started
      · rw [← Option.some.inj started]
        simp [Clock.isLinked, list]
      · cases started

theorem progress (timed : Timed delayables ledger) {clock : Clock Timer Unit}
    {history : History Timer} (pending : history.pending = ledger.history.pending)
    (tracks : Tracks clock (history.progress delayables.clock clock))
    (started : ∀ running ∈ clock.callback, delayables.clock.isLinked running.node = true)
    : Timed (delayables.announced clock)
        { ledger with history := history.progress delayables.clock clock } := by
  refine ⟨tracks, ?_, ?_⟩
  · intro arming member
    refine timed.linked arming ?_
    simp only [History.progress] at member
    rw [← pending]
    split at member
    · exact List.mem_of_mem_filter member
    · exact member
  · intro item expired
    obtain ⟨running, isRunning, isItem⟩
        : ∃ running, clock.callback = some running ∧ running.node = .dwork item := by
      simp only [Delayables.announced] at expired
      split at expired
      · rename_i number fn dt isRunning
        exact ⟨_, isRunning, congrArg Timer.dwork (Option.some.inj expired)⟩
      · cases expired
    have fired : history.progress delayables.clock clock
        = history.fire (.dwork item)
            (history.now + (clock.currTick - delayables.clock.currTick).toInt64.toInt)
            clock.currTick := by
      simp only [History.progress, isRunning, isItem]
    rw [fired] at tracks ⊢
    refine ⟨?_, ?_⟩
    · intro arming member
      exact of_decide_eq_true (List.mem_filter.mp member).2
    · intro _
      have wasLinked := started running isRunning
      rw [Timeout.isLinked_iff, timed.tracks.nodes, List.mem_map, isItem] at wasLinked
      obtain ⟨arming, member, node⟩ := wasLinked
      refine ⟨arming.expiry, (timed.linked arming member item node).2, ?_⟩
      rw [← pending] at member
      have onTime := (tracks.firedOnTime
        ⟨arming, history.now + (clock.currTick - delayables.clock.currTick).toInt64.toInt,
          clock.currTick, history.armed⟩
        (List.mem_append_right _ (List.mem_map_of_mem
          (List.mem_filter.mpr ⟨member, decide_eq_true node⟩)))).1
      exact onTime.ge

theorem announce (timed : Timed delayables ledger) {ticks : Int32} {hw : UInt32}
    {clock : Clock Timer Unit} (inRange : CallInRange delayables.clock (.announce ticks hw))
    (stepped : Timeout.step delayables.clock (.announce ticks hw) = some clock)
    : Timed (delayables.announced clock)
        { ledger with
          history := ledger.history.record delayables.clock clock (.announce ticks hw) } := by
  refine timed.progress rfl (timed.tracks.announce inRange stepped) ?_
  intro running started
  obtain ⟨-, isClock⟩ := Option.ite_none_left_eq_some.mp stepped
  rw [← Option.some.inj isClock] at started
  have linked := announceLoop_callback started
  exact linked

theorem callbackReturns (timed : Timed delayables ledger) {hw : UInt32} {clock : Clock Timer Unit}
    (stepped : Timeout.step delayables.clock (.callbackReturns hw) = some clock)
    : Timed (delayables.announced clock)
        { ledger with
          history := ledger.history.record delayables.clock clock (.callbackReturns hw) } := by
  refine timed.progress rfl (timed.tracks.callbackReturns stepped) ?_
  intro running started
  obtain ⟨ended, -, isClock⟩ := Option.map_eq_some_iff.mp stepped
  rw [← isClock] at started
  have linked := announceLoop_callback started
  exact linked

theorem workTimeout (timed : Timed delayables ledger) (expired : delayables.expired = some item)
    : Timed { Work.workTimeout delayables item with expired := none }
        (if delayables.isDelayed item then
          { ledger with due := Function.update ledger.due item none }
        else ledger) := by
  unfold Work.workTimeout
  split
  · have delayed (other : Nat)
        : ((submitToQueueLocked (delayables.setDelayed item false).system none (.item item)
            ((delayables.setDelayed item false).target item)).1.work (.item other)).flags.delayed
          = if other = item then false else delayables.isDelayed other :=
      ((submitToQueueLocked_same ..).delayed other).trans (isDelayed_setDelayed ..)
    refine ⟨timed.tracks, ?_, fun none => by cases none⟩
    intro arming member other isOther
    have different : other ≠ item := by
      rintro rfl
      exact (timed.expired expired).1 arming member isOther
    unfold Delayables.isDelayed
    dsimp only
    rw [delayed, if_neg different, Function.update_of_ne different]
    exact timed.linked arming member other isOther
  · exact ⟨timed.tracks, timed.linked, fun none => by cases none⟩

theorem step {state next : Delayables × Ledger} {call : DelayableCall}
    (timed : Timed state.1 state.2) (punctual : Punctual state call)
    (stepped : recordedDelayableStep state call = some next)
    : Timed next.1 next.2 := by
  obtain ⟨delayables, ledger⟩ := state
  obtain ⟨after, made, rfl⟩ := Option.map_eq_some_iff.mp stepped
  cases call with
  | work call =>
      obtain ⟨system, workStep, rfl⟩ := Option.map_eq_some_iff.mp made
      exact timed.frame rfl rfl (step_delayed workStep)
  | schedule caller queue item delay hw =>
      rw [← Option.some.inj made]
      simp only [Ledger.note, kWorkScheduleForQueue]
      split
      · rename_i idle
        have notDelayed : delayables.isDelayed item = false := by
          rw [idleOrRunning, Bool.not_eq_true'] at idle
          simp only [Bool.or_eq_false_iff] at idle
          exact idle.1.1.1
        exact timed.schedule caller queue notDelayed (punctual idle)
      · exact timed
  | reschedule caller queue item delay hw =>
      rw [← Option.some.inj made]
      obtain ⟨unscheduled, idle⟩ := timed.unschedule item
      exact unscheduled.schedule caller queue idle (unscheduleLocked_timerFree punctual)
  | cancelDelayable item =>
      rw [← Option.some.inj made]
      exact timed.cancel item
  | cancelDelayableSync item sync =>
      obtain ⟨-, isNext⟩ := Option.ite_none_right_eq_some.mp made
      rw [← Option.some.inj isNext]
      exact timed.cancelSync item sync
  | flushDelayable caller item sync =>
      obtain ⟨-, isNext⟩ := Option.ite_none_right_eq_some.mp made
      rw [← Option.some.inj isNext]
      exact timed.flush caller item sync
  | addTimeout number timeout hw =>
      obtain ⟨clock, clockStep, rfl⟩ := Option.map_eq_some_iff.mp made
      exact timed.addTimeout punctual clockStep
  | abortTimeout number =>
      rw [← Option.some.inj made]
      exact timed.abortTimeout rfl
  | announce ticks hw =>
      obtain ⟨clock, clockStep, rfl⟩ := Option.map_eq_some_iff.mp made
      exact timed.announce punctual clockStep
  | workTimeout =>
      obtain ⟨item, expired, rfl⟩ := Option.map_eq_some_iff.mp made
      have kept := timed.workTimeout expired
      dsimp only at expired
      simpa only [Ledger.note, expired] using kept
  | callbackReturns hw =>
      obtain ⟨-, resumed⟩ := Option.ite_none_right_eq_some.mp made
      obtain ⟨clock, clockStep, rfl⟩ := Option.map_eq_some_iff.mp resumed
      exact timed.callbackReturns clockStep

theorem initial : Timed {} {} where
  tracks := .initial
  linked arming member := by cases member
  expired none := by cases none

end Timed

/-! ### Every interleaving -/

/-- Whenever `work_timeout` is about to submit an item, in a run that sets no timer of an item
between the expiry of a timeout of the item and its callback, the item has been scheduled or
rescheduled, has not been submitted by its timer or cancelled since, and the deadline has come.
-/
theorem timer_submits_once_due (calls : List DelayableCall) (delayables : Delayables)
    (ledger : Ledger)
    (punctual : RunMeets recordedDelayableStep Punctual ({}, {}) calls)
    (reached : run recordedDelayableStep ({}, {}) calls = some (delayables, ledger))
    (item : Nat) (expired : delayables.expired = some item)
    (submits : delayables.isDelayed item = true)
    : ∃ deadline, ledger.due item = some deadline ∧ deadline ≤ ledger.history.now := by
  have timed := run_invariant_of_meets (fun state => Timed state.1 state.2) Timed.step
    Timed.initial punctual reached
  exact (timed.expired expired).2 submits

/-- An item is scheduled, rescheduled to an earlier time and cancelled; then it is scheduled again,
and its timer expires.
-/
def punctualCalls : List DelayableCall :=
  [.schedule none (some 0) 1 ⟨20⟩ 0, .reschedule none (some 0) 1 ⟨4⟩ 0, .addTimeout 5 ⟨2⟩ 0,
    .announce 3 0, .callbackReturns 0, .cancelDelayable 1, .schedule none (some 0) 1 ⟨9⟩ 0,
    .announce 10 0]

theorem punctualCalls_submit_due
    : ∃ delayables ledger deadline,
        run recordedDelayableStep ({}, {}) punctualCalls = some (delayables, ledger)
        ∧ delayables.expired = some 1
        ∧ ledger.due 1 = some deadline
        ∧ deadline ≤ ledger.history.now := by
  have facts : ∀ state ∈ run recordedDelayableStep ({}, {}) punctualCalls,
      state.1.expired = some 1 ∧ state.1.isDelayed 1 = true := by
    decide +kernel
  obtain ⟨⟨delayables, ledger⟩, reached⟩ : ∃ state,
      run recordedDelayableStep ({}, {}) punctualCalls = some state :=
    Option.isSome_iff_exists.mp (by decide +kernel)
  obtain ⟨expired, submits⟩ := facts _ reached
  obtain ⟨deadline, due, past⟩ :=
    timer_submits_once_due punctualCalls delayables ledger (by decide +kernel) reached 1 expired
      submits
  exact ⟨delayables, ledger, deadline, reached, expired, due, past⟩

/-- The timer of an item expires at tick 10, and before its callback runs the item is rescheduled
with a delay of 99 ticks.
-/
def lateRescheduleCalls : List DelayableCall :=
  [.work (.start 0 false), .schedule none (some 0) 1 ⟨9⟩ 0, .announce 10 0,
    .reschedule none (some 0) 1 ⟨99⟩ 0]

/-- The callback submits the item at tick 10, and the deadline is at tick 110. -/
theorem rescheduled_item_submitted_early
    : ∃ delayables ledger next,
        run recordedDelayableStep ({}, {}) lateRescheduleCalls = some (delayables, ledger)
        ∧ ledger.due 1 = some 110
        ∧ ledger.history.now = 10
        ∧ delayableStep delayables .workTimeout = some next
        ∧ (delayables.system.queue 0).pending = []
        ∧ (next.system.queue 0).pending = [.item 1] := by
  have facts : ∀ state ∈ run recordedDelayableStep ({}, {}) lateRescheduleCalls,
      state.2.due 1 = some 110
      ∧ state.2.history.now = 10
      ∧ (delayableStep state.1 .workTimeout).isSome = true
      ∧ (state.1.system.queue 0).pending = []
      ∧ ∀ next ∈ delayableStep state.1 .workTimeout,
          (next.system.queue 0).pending = [.item 1] := by
    decide +kernel
  obtain ⟨⟨delayables, ledger⟩, reached⟩ : ∃ state,
      run recordedDelayableStep ({}, {}) lateRescheduleCalls = some state :=
    Option.isSome_iff_exists.mp (by decide +kernel)
  obtain ⟨due, now, enabled, before, after⟩ := facts _ reached
  obtain ⟨next, stepped⟩ := Option.isSome_iff_exists.mp enabled
  exact ⟨delayables, ledger, next, reached, due, now, stepped, before, after next stepped⟩

end Zephyr.Kernel.Work
