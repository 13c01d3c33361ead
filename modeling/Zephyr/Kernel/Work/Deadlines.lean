import Zephyr.Kernel.Work.Delayable

/-! What a timer of a delayable item stands for, and what setting and cancelling timers keep of it.
-/

namespace Zephyr.Kernel.Work

open Zephyr.Library
open Timeout (Clock History Tracks CallInRange Arming)

/-- The history of the timeout queue, and the deadline of the last schedule or reschedule of an
item until its timer has submitted it or it has been unscheduled.
-/
structure Ledger where
  history : History Timer := {}
  due : Nat → Option Int := fun _ => none

namespace Ledger

def unschedule (ledger : Ledger) (before : Delayables) (item : Nat) : Ledger :=
  if before.isDelayed item then
    { history := ledger.history.abort (.dwork item)
      due := Function.update ledger.due item none }
  else ledger

def schedule (ledger : Ledger) (before : Delayables) (item : Nat) (delay : KTimeout) (hw : UInt32)
    : Ledger :=
  if delay = kNoWait then { ledger with due := Function.update ledger.due item none }
  else
    { history :=
        ledger.history.record before.clock before.clock (.addTimeout (.dwork item) () delay hw)
      due :=
        Function.update ledger.due item
          (if delay = kForever then none
            else some (ledger.history.now + (before.clock.requestedTicks delay hw).toInt)) }

def cancel (ledger : Ledger) (before : Delayables) (item : Nat) : Ledger :=
  { ledger.unschedule before item with due := Function.update ledger.due item none }

def note (ledger : Ledger) (before after : Delayables) : DelayableCall → Ledger
  | .work _ => ledger
  | .schedule _ _ item delay hw =>
      if idleOrRunning (before.system.work (.item item)) then ledger.schedule before item delay hw
      else ledger
  | .reschedule _ _ item delay hw =>
      (ledger.unschedule before item).schedule (unscheduleLocked before item).1 item delay hw
  | .cancelDelayable item => ledger.cancel before item
  | .cancelDelayableSync item _ => ledger.cancel before item
  | .flushDelayable _ item _ => ledger.unschedule before item
  | .addTimeout number timeout hw =>
      { ledger with
        history :=
          ledger.history.record before.clock after.clock
            (.addTimeout (.other number) () timeout hw) }
  | .abortTimeout number =>
      { ledger with
        history := ledger.history.record before.clock after.clock (.abortTimeout (.other number)) }
  | .announce ticks hw =>
      { ledger with
        history := ledger.history.record before.clock after.clock (.announce ticks hw) }
  | .workTimeout =>
      match before.expired with
      | some item =>
          if before.isDelayed item then
            { ledger with due := Function.update ledger.due item none }
          else ledger
      | none => ledger
  | .callbackReturns hw =>
      { ledger with
        history := ledger.history.record before.clock after.clock (.callbackReturns hw) }

end Ledger

def recordedDelayableStep (state : Delayables × Ledger) (call : DelayableCall)
    : Option (Delayables × Ledger) :=
  (delayableStep state.1 call).map (fun next => (next, state.2.note state.1 next call))

/-- The timer of the item is set while no expired timeout of the item waits for its callback, to a
value in the range of the timeout queue.
-/
def TimerFree (delayables : Delayables) (item : Nat) (delay : KTimeout) (hw : UInt32) : Prop :=
  delay ≠ kNoWait
  → delayables.expired ≠ some item
    ∧ CallInRange delayables.clock (.addTimeout (.dwork item) () delay hw)

instance TimerFree.decidable (delayables : Delayables) (item : Nat) (delay : KTimeout) (hw : UInt32)
    : Decidable (TimerFree delayables item delay hw) :=
  inferInstanceAs (Decidable (_ → _ ∧ CallInRange delayables.clock _))

def Punctual (state : Delayables × Ledger) : DelayableCall → Prop
  | .schedule _ _ item delay hw =>
      idleOrRunning (state.1.system.work (.item item)) = true → TimerFree state.1 item delay hw
  | .reschedule _ _ item delay hw => TimerFree state.1 item delay hw
  | .addTimeout number timeout hw =>
      CallInRange state.1.clock (.addTimeout (.other number) () timeout hw)
  | .announce ticks hw => CallInRange state.1.clock (.announce ticks hw)
  | _ => True

instance Punctual.decidable (state : Delayables × Ledger)
    : (call : DelayableCall) → Decidable (Punctual state call)
  | .schedule _ _ item delay hw =>
      inferInstanceAs (Decidable (_ → TimerFree state.1 item delay hw))
  | .reschedule _ _ item delay hw => inferInstanceAs (Decidable (TimerFree state.1 item delay hw))
  | .addTimeout number timeout hw =>
      CallInRange.decidable state.1.clock (.addTimeout (.other number) () timeout hw)
  | .announce ticks hw => CallInRange.decidable state.1.clock (.announce ticks hw)
  | .work _ | .cancelDelayable _ | .cancelDelayableSync _ _ | .flushDelayable _ _ _ =>
      .isTrue trivial
  | .abortTimeout _ | .workTimeout | .callbackReturns _ => .isTrue trivial

/-- A linked timeout of an item is the timer of its last schedule. So is an expired one, as long
as the item is flagged.
-/
structure Timed (delayables : Delayables) (ledger : Ledger) : Prop where
  tracks : Tracks delayables.clock ledger.history
  linked
  : ∀ arming ∈ ledger.history.pending,
      ∀ item,
        arming.node = .dwork item
        → delayables.isDelayed item = true ∧ ledger.due item = some arming.expiry
  expired
  : ∀ {item},
      delayables.expired = some item
      → (∀ arming ∈ ledger.history.pending, arming.node ≠ .dwork item)
        ∧ (delayables.isDelayed item = true
            → ∃ deadline, ledger.due item = some deadline ∧ deadline ≤ ledger.history.now)

variable {delayables next : Delayables} {ledger : Ledger} {item : Nat}

/-! ### Work under the flag for delayed items -/

theorem isDelayed_setDelayed (delayables : Delayables) (item : Nat) (delayed : Bool) (other : Nat)
    : (delayables.setDelayed item delayed).isDelayed other
      = if other = item then delayed else delayables.isDelayed other := by
  by_cases same : other = item <;>
    simp [Delayables.isDelayed, Delayables.setDelayed, System.setFlags, same]

theorem cancelAsyncLocked_delayed (system : System) (item other : Nat)
    : ((cancelAsyncLocked system (.item item)).1.work (.item other)).flags.delayed
      = (system.work (.item other)).flags.delayed := by
  unfold cancelAsyncLocked
  dsimp only
  generalize removed : (if (system.work (.item item)).flags.canceling then system
    else queueRemoveLocked system (system.work (.item item)).queue (.item item)) = later
  have same : SameRunning system later := by
    rw [← removed]
    split
    · exact .refl system
    · exact queueRemoveLocked_same ..
  rw [← same.delayed]
  split
  · by_cases here : other = item <;> simp [System.setFlags, here]
  · rfl

theorem cancelSyncLocked_work (system : System) (work : WorkId) (canceller : Nat)
    : (cancelSyncLocked system work canceller).1.work = system.work := by
  unfold cancelSyncLocked
  split <;> rfl

theorem workQueueTake_delayed (system : System) (queue item : Nat)
    : ((workQueueTake system queue).work (.item item)).flags.delayed
      = (system.work (.item item)).flags.delayed := by
  unfold workQueueTake
  split
  · rename_i work _ _
    by_cases here : .item item = work <;> simp [System.setFlags, System.setQueue, here]
  · rfl

theorem step_delayed {system later : System} {call : Call}
    (stepped : step system call = some later) (item : Nat)
    : (later.work (.item item)).flags.delayed = (system.work (.item item)).flags.delayed := by
  cases call with
  | submit caller queue other =>
      rw [← Option.some.inj stepped]
      exact (submitToQueueLocked_same ..).delayed item
  | cancel other =>
      rw [← Option.some.inj stepped]
      exact cancelAsyncLocked_delayed ..
  | cancelSync other sync =>
      obtain ⟨-, ⟨⟩⟩ := Option.ite_none_right_eq_some.mp stepped
      unfold kWorkCancelSync
      dsimp only
      split
      · rw [cancelSyncLocked_work, cancelAsyncLocked_delayed]
      · rfl
  | flush other sync =>
      obtain ⟨-, ⟨⟩⟩ := Option.ite_none_right_eq_some.mp stepped
      exact (workFlushLocked_same ..).delayed item
  | take queue =>
      obtain ⟨-, ⟨⟩⟩ := Option.ite_none_right_eq_some.mp stepped
      exact workQueueTake_delayed ..
  | complete queue =>
      simp only [Work.step] at stepped
      split at stepped
      · rename_i work _
        rw [← Option.some.inj stepped, workQueueComplete_work]
        by_cases here : .item item = work
        · simp [here]
        · rw [Function.update_of_ne here]
      · cases stepped
  | start queue noYield =>
      obtain ⟨-, ⟨⟩⟩ := Option.ite_none_left_eq_some.mp stepped
      rfl
  | drain queue plug =>
      rw [← Option.some.inj stepped]
      unfold kWorkQueueDrain
      dsimp only
      split <;> rfl
  | unplug queue =>
      rw [← Option.some.inj stepped]
      rfl

/-! ### Setting and cancelling timers -/

namespace Timed

theorem frame (timed : Timed delayables ledger) (clock : next.clock = delayables.clock)
    (expired : next.expired = delayables.expired)
    (delayed : ∀ item, next.isDelayed item = delayables.isDelayed item)
    : Timed next ledger := by
  refine ⟨clock ▸ timed.tracks, ?_, ?_⟩
  · intro arming member item
    rw [delayed]
    exact timed.linked arming member item
  · intro item
    rw [expired, delayed]
    exact timed.expired

theorem not_linked (timed : Timed delayables ledger) (idle : delayables.isDelayed item = false)
    : ∀ arming ∈ ledger.history.pending, arming.node ≠ .dwork item := by
  intro arming member isItem
  have delayed := (timed.linked arming member item isItem).1
  rw [idle] at delayed
  cases delayed

theorem clear (timed : Timed delayables ledger) (idle : delayables.isDelayed item = false)
    : Timed delayables { ledger with due := Function.update ledger.due item none } := by
  refine ⟨timed.tracks, ?_, ?_⟩
  · intro arming member other isOther
    have different : other ≠ item := by
      rintro rfl
      exact timed.not_linked idle arming member isOther
    dsimp only
    rw [Function.update_of_ne different]
    exact timed.linked arming member other isOther
  · intro other expired
    refine ⟨(timed.expired expired).1, ?_⟩
    intro delayed
    have different : other ≠ item := by
      rintro rfl
      rw [idle] at delayed
      cases delayed
    dsimp only
    rw [Function.update_of_ne different]
    exact (timed.expired expired).2 delayed

theorem unschedule (timed : Timed delayables ledger) (item : Nat)
    : Timed (unscheduleLocked delayables item).1 (ledger.unschedule delayables item)
      ∧ (unscheduleLocked delayables item).1.isDelayed item = false := by
  unfold unscheduleLocked Ledger.unschedule
  split
  · have idle : (delayables.setDelayed item false).isDelayed item = false := by
      rw [isDelayed_setDelayed, if_pos rfl]
    refine ⟨⟨?_, ?_, ?_⟩, idle⟩
    · exact timed.tracks.abortTimeout rfl
    · intro arming member other isOther
      obtain ⟨pending, notItem⟩ := List.mem_filter.mp member
      have different : other ≠ item := by
        rintro rfl
        exact of_decide_eq_true notItem isOther
      change (delayables.setDelayed item false).isDelayed other = true ∧ _
      rw [isDelayed_setDelayed, if_neg different]
      dsimp only
      rw [Function.update_of_ne different]
      exact timed.linked arming pending other isOther
    · intro other expired
      refine ⟨?_, ?_⟩
      · intro arming member
        exact (timed.expired expired).1 arming (List.mem_of_mem_filter member)
      · intro delayed
        change (delayables.setDelayed item false).isDelayed other = true at delayed
        rw [isDelayed_setDelayed] at delayed
        split at delayed
        · cases delayed
        · rename_i different
          dsimp only
          rw [Function.update_of_ne different]
          exact (timed.expired expired).2 delayed
  · rename_i idle
    exact ⟨timed, Bool.eq_false_iff.mpr idle⟩

/-- An aborted timeout does not make the ticks since the last announcement others. -/
theorem unscheduleLocked_timerFree {delay : KTimeout} {hw : UInt32}
    (free : TimerFree delayables item delay hw)
    : TimerFree (unscheduleLocked delayables item).1 item delay hw := by
  unfold unscheduleLocked
  split
  · intro wait
    obtain ⟨notExpired, inRange⟩ := free wait
    refine ⟨notExpired, ?_⟩
    have elapsed
        : ((delayables.setDelayed item false).clock.zAbortTimeout (.dwork item)).1.elapsed hw
          = delayables.clock.elapsed hw := by
      unfold Clock.zAbortTimeout
      split <;> rfl
    simpa only [CallInRange, elapsed] using inRange
  · exact free

theorem mem_record_addTimeout {history : History Timer} (before after : Clock Timer Unit)
    {node : Timer} {delay : KTimeout} {hw : UInt32} {arming : Arming Timer}
    (member
      : arming ∈ (history.record before after (.addTimeout node () delay hw)).pending)
    : arming ∈ history.pending
      ∨ arming.node = node
        ∧ delay ≠ kForever
        ∧ arming.expiry = history.now + (before.requestedTicks delay hw).toInt := by
  simp only [History.record] at member
  split at member
  · exact .inl member
  · rename_i finite
    rcases mem_stableInsert.mp member with isNew | earlier
    · rw [isNew]
      exact .inr ⟨rfl, finite, rfl⟩
    · exact .inl earlier

theorem record_addTimeout_now (history : History Timer) (before after : Clock Timer Unit)
    (node : Timer) (delay : KTimeout) (hw : UInt32)
    : (history.record before after (.addTimeout node () delay hw)).now = history.now := by
  simp only [History.record]
  split <;> rfl

theorem schedule (timed : Timed delayables ledger) (caller queue : Option Nat) {delay : KTimeout}
    {hw : UInt32} (idle : delayables.isDelayed item = false)
    (free : TimerFree delayables item delay hw)
    : Timed (scheduleForQueueLocked delayables caller queue item delay hw).1
        (ledger.schedule delayables item delay hw) := by
  unfold scheduleForQueueLocked Ledger.schedule
  split
  · exact (timed.clear idle).frame rfl rfl (submitToQueueLocked_same ..).delayed
  · rename_i wait
    obtain ⟨notExpired, inRange⟩ := free wait
    have unlinked := timed.not_linked idle
    have notLinked : delayables.clock.isLinked (.dwork item) = false := by
      rw [Bool.eq_false_iff, ne_eq, Timeout.isLinked_iff, timed.tracks.nodes, List.mem_map]
      rintro ⟨arming, member, isItem⟩
      exact unlinked arming member isItem
    have stepped : Timeout.step delayables.clock (.addTimeout (.dwork item) () delay hw)
        = some (delayables.clock.zAddTimeout (.dwork item) () delay hw) := by
      simp [Timeout.step, notLinked]
    have delayed (other : Nat)
        : (delayables.setDelayed item true).isDelayed other
          = if other = item then true else delayables.isDelayed other :=
      isDelayed_setDelayed ..
    refine ⟨timed.tracks.addTimeout inRange stepped, ?_, ?_⟩
    · intro arming member other isOther
      change (delayables.setDelayed item true).isDelayed other = true ∧ _
      rw [delayed]
      rcases mem_record_addTimeout _ delayables.clock member with earlier | ⟨isItem, finite, expiry⟩
      · have different : other ≠ item := by
          rintro rfl
          exact unlinked arming earlier isOther
        rw [if_neg different]
        dsimp only
        rw [Function.update_of_ne different]
        exact timed.linked arming earlier other isOther
      · obtain rfl : other = item := Timer.dwork.inj (isOther.symm.trans isItem)
        dsimp only
        rw [if_pos rfl, Function.update_self, if_neg finite, expiry]
        exact ⟨rfl, rfl⟩
    · intro other expired
      have different : other ≠ item := by
        rintro rfl
        exact notExpired expired
      change _ ∧ ((delayables.setDelayed item true).isDelayed other = true → _)
      rw [delayed, if_neg different]
      dsimp only
      rw [Function.update_of_ne different, record_addTimeout_now]
      refine ⟨?_, (timed.expired expired).2⟩
      intro arming member isOther
      rcases mem_record_addTimeout _ delayables.clock member with earlier | ⟨isItem, -, -⟩
      · exact (timed.expired expired).1 arming earlier isOther
      · exact different (Timer.dwork.inj (isOther.symm.trans isItem))

theorem cancel (timed : Timed delayables ledger) (item : Nat)
    : Timed (cancelDelayableAsyncLocked delayables item).1 (ledger.cancel delayables item) := by
  obtain ⟨unscheduled, idle⟩ := timed.unschedule item
  have cleared := unscheduled.clear idle
  have same : ({ ledger.unschedule delayables item with
      due := Function.update (ledger.unschedule delayables item).due item none } : Ledger)
      = ledger.cancel delayables item := by
    simp only [Ledger.cancel, Ledger.unschedule]
    split <;> simp
  rw [same] at cleared
  exact cleared.frame rfl rfl (cancelAsyncLocked_delayed _ item)

theorem cancelSync (timed : Timed delayables ledger) (item sync : Nat)
    : Timed (kWorkCancelDelayableSync delayables item sync).1 (ledger.cancel delayables item) := by
  unfold kWorkCancelDelayableSync
  dsimp only
  split
  · refine (timed.cancel item).frame rfl rfl ?_
    intro other
    unfold Delayables.isDelayed
    rw [cancelSyncLocked_work]
  · rename_i idle
    have notDelayed : delayables.isDelayed item = false := by
      rw [workBusyGetLocked, Bool.not_eq_true] at idle
      simp only [Bool.or_eq_false_iff] at idle
      exact idle.1.1.1.1
    have cleared := timed.clear notDelayed
    simpa [Ledger.cancel, Ledger.unschedule, notDelayed] using cleared

theorem flush (timed : Timed delayables ledger) (caller : Option Nat) (item sync : Nat)
    : Timed (kWorkFlushDelayable delayables caller item sync).1
        (ledger.unschedule delayables item) := by
  unfold kWorkFlushDelayable
  split
  · refine (timed.unschedule item).1.frame rfl rfl ?_
    intro other
    unfold Delayables.isDelayed
    dsimp only
    rw [(workFlushLocked_same _ item sync).delayed]
    split
    · exact (submitToQueueLocked_same ..).delayed other
    · rfl
  · rename_i idle
    have notDelayed : delayables.isDelayed item = false := by
      rw [workBusyGetLocked, Bool.not_eq_true] at idle
      simp only [Bool.or_eq_false_iff] at idle
      exact idle.1.1.1.1
    simpa [Ledger.unschedule, notDelayed] using timed

theorem addTimeout (timed : Timed delayables ledger) {number : Nat} {timeout : KTimeout}
    {hw : UInt32} {clock : Clock Timer Unit}
    (inRange : CallInRange delayables.clock (.addTimeout (.other number) () timeout hw))
    (stepped
      : Timeout.step delayables.clock (.addTimeout (.other number) () timeout hw) = some clock)
    : Timed { delayables with clock := clock }
        { ledger with
          history :=
            ledger.history.record delayables.clock clock
              (.addTimeout (.other number) () timeout hw) } := by
  refine ⟨timed.tracks.addTimeout inRange stepped, ?_, ?_⟩
  · intro arming member item isItem
    rcases mem_record_addTimeout _ clock member with earlier | ⟨isOther, -, -⟩
    · exact timed.linked arming earlier item isItem
    · cases isOther.symm.trans isItem
  · intro item expired
    dsimp only
    rw [record_addTimeout_now]
    refine ⟨?_, (timed.expired expired).2⟩
    intro arming member isItem
    rcases mem_record_addTimeout _ clock member with earlier | ⟨isOther, -, -⟩
    · exact (timed.expired expired).1 arming earlier isItem
    · cases isOther.symm.trans isItem

theorem abortTimeout (timed : Timed delayables ledger) {number : Nat} {clock : Clock Timer Unit}
    (stepped : Timeout.step delayables.clock (.abortTimeout (.other number)) = some clock)
    : Timed { delayables with clock := clock }
        { ledger with history := ledger.history.abort (.other number) } := by
  refine ⟨timed.tracks.abortTimeout stepped, ?_, ?_⟩
  · intro arming member
    exact timed.linked arming (List.mem_of_mem_filter member)
  · intro item expired
    refine ⟨?_, (timed.expired expired).2⟩
    intro arming member
    exact (timed.expired expired).1 arming (List.mem_of_mem_filter member)

end Timed

end Zephyr.Kernel.Work
