import Zephyr.Kernel.Work.Exclusion

/-! The threads that wait in `k_work_cancel_sync`. An item that is being cancelled runs, so its
handler ends, and the end of the handler releases the first of the threads that wait for it.
-/

namespace Zephyr.Kernel.Work

open Zephyr.Library

variable {system next : System} {item sync queue : Nat}

/-- The record is one of a thread that cancels `work`. -/
def cancels (work : WorkId) (record : Nat × WorkId) : Bool :=
  record.2 = work

/-- A record belongs to an item that is being cancelled, such an item runs on some queue, and no
two records belong to one item.
-/
structure Cancelling (system : System) : Prop where
  plain
  : ∀ item,
      (system.work (.item item)).flags.delayed = false
      ∧ (system.work (.item item)).flags.flushing = false
  runs
  : ∀ {item},
      (system.work (.item item)).flags.canceling = true
      → (system.work (.item item)).flags.running = true
  handled
  : ∀ {item},
      (system.work (.item item)).flags.running = true
      → ∃ queue, (system.queue queue).handling = some (.item item)
  canceled
  : ∀ {record},
      record ∈ system.pendingCancels
      → ∃ item, record.2 = .item item ∧ (system.work (.item item)).flags.canceling = true
  single : (system.pendingCancels.map Prod.snd).Nodup

/-- Two systems in which the same items run and are cancelled by the same threads. -/
structure SameRunning (system next : System) : Prop where
  delayed
  : ∀ item, (next.work (.item item)).flags.delayed = (system.work (.item item)).flags.delayed
  flushing
  : ∀ item, (next.work (.item item)).flags.flushing = (system.work (.item item)).flags.flushing
  running
  : ∀ item, (next.work (.item item)).flags.running = (system.work (.item item)).flags.running
  canceling
  : ∀ item, (next.work (.item item)).flags.canceling = (system.work (.item item)).flags.canceling
  handling : ∀ queue, (next.queue queue).handling = (system.queue queue).handling
  pendingCancels : next.pendingCancels = system.pendingCancels

theorem SameRunning.refl (system : System) : SameRunning system system :=
  ⟨fun _ => rfl, fun _ => rfl, fun _ => rfl, fun _ => rfl, fun _ => rfl, rfl⟩

theorem SameRunning.trans {last : System} (first : SameRunning system next)
    (second : SameRunning next last)
    : SameRunning system last where
  delayed item := (second.delayed item).trans (first.delayed item)
  flushing item := (second.flushing item).trans (first.flushing item)
  running item := (second.running item).trans (first.running item)
  canceling item := (second.canceling item).trans (first.canceling item)
  handling queue := (second.handling queue).trans (first.handling queue)
  pendingCancels := second.pendingCancels.trans first.pendingCancels

theorem SameRunning.setQueue (system : System) (queue : Nat) (change : KWorkQ → KWorkQ)
    (handling : (change (system.queue queue)).handling = (system.queue queue).handling)
    : SameRunning system (system.setQueue queue change) := by
  refine ⟨fun _ => rfl, fun _ => rfl, fun _ => rfl, fun _ => rfl, ?_, rfl⟩
  intro other
  by_cases same : other = queue
  · subst same
    simpa [System.setQueue] using handling
  · simp [System.setQueue, same]

theorem SameRunning.setFlags (system : System) (work : WorkId) (queued : Bool)
    : SameRunning system (system.setFlags work (fun flags => { flags with queued := queued })) := by
  refine ⟨?_, ?_, ?_, ?_, fun _ => rfl, rfl⟩ <;> intro item <;>
    by_cases same : .item item = work <;> simp [System.setFlags, same]

theorem Cancelling.same (cancelling : Cancelling system) (same : SameRunning system next)
    : Cancelling next := by
  obtain ⟨delayed, flushing, running, canceling, handling, records⟩ := same
  refine ⟨?_, ?_, ?_, ?_, ?_⟩
  · intro item
    rw [delayed, flushing]
    exact cancelling.plain item
  · intro item
    rw [canceling, running]
    exact cancelling.runs
  · intro item
    simp only [running, handling]
    exact cancelling.handled
  · intro record
    simp only [records, canceling]
    exact cancelling.canceled
  · rw [records]
    exact cancelling.single

/-! ### Cancelling an item -/

theorem queueRemoveLocked_same (system : System) (queue : Option Nat) (work : WorkId)
    : SameRunning system (queueRemoveLocked system queue work) := by
  unfold queueRemoveLocked
  split
  · have unflagged := SameRunning.setFlags system work false
    dsimp only
    split
    · exact unflagged.trans (SameRunning.setQueue _ _ _ rfl)
    · exact unflagged
  · exact .refl system

theorem queueRemoveLocked_queued (system : System) (queue : Option Nat) (work : WorkId)
    : ((queueRemoveLocked system queue work).work work).flags.queued = false := by
  unfold queueRemoveLocked
  split
  · cases queue <;> simp [System.setFlags, System.setQueue]
  · exact Bool.eq_false_iff.mpr ‹_›

theorem Cancelling.flag (cancelling : Cancelling system)
    (running : (system.work (.item item)).flags.running = true)
    : Cancelling
        (system.setFlags (.item item) (fun flags => { flags with canceling := true })) := by
  have flags (other : Nat)
      : ((system.setFlags (.item item) (fun flags => { flags with canceling := true })).work
          (.item other)).flags
        = { (system.work (.item other)).flags with
            canceling :=
              (system.work (.item other)).flags.canceling || decide (other = item) } := by
    by_cases same : other = item <;> simp [System.setFlags, same]
  refine ⟨?_, ?_, ?_, ?_, cancelling.single⟩
  · intro other
    rw [flags]
    exact cancelling.plain other
  · intro other
    rw [flags]
    intro canceling
    rcases Bool.or_eq_true_iff.mp canceling with canceling | same
    · exact cancelling.runs canceling
    · rw [of_decide_eq_true same]
      exact running
  · intro other
    rw [flags]
    exact cancelling.handled
  · intro record member
    obtain ⟨other, isOther, canceling⟩ := cancelling.canceled member
    refine ⟨other, isOther, ?_⟩
    rw [flags, canceling]
    rfl

theorem Cancelling.cancelAsync (cancelling : Cancelling system) (item : Nat)
    : Cancelling (cancelAsyncLocked system (.item item)).1
      ∧ (cancelAsyncLocked system (.item item)).1.pendingCancels = system.pendingCancels := by
  unfold cancelAsyncLocked
  dsimp only
  generalize removed : (if (system.work (.item item)).flags.canceling then system
    else queueRemoveLocked system (system.work (.item item)).queue (.item item)) = later
  have same : SameRunning system later := by
    rw [← removed]
    split
    · exact .refl system
    · exact queueRemoveLocked_same ..
  have kept := cancelling.same same
  split
  · rename_i busy
    refine ⟨kept.flag ?_, same.pendingCancels⟩
    obtain ⟨delayed, flushing⟩ := kept.plain item
    rw [workBusyGetLocked, delayed, flushing, Bool.false_or, Bool.or_false] at busy
    by_cases canceling : (later.work (.item item)).flags.canceling = true
    · exact kept.runs canceling
    · have queued : (later.work (.item item)).flags.queued = false := by
        rw [same.canceling] at canceling
        rw [← removed, if_neg canceling]
        exact queueRemoveLocked_queued ..
      simpa [queued, canceling] using busy
  · exact ⟨kept, same.pendingCancels⟩

/-- No other thread waits for the item that a thread starts to wait for. -/
def canceledOnce (system : System) : Call → Prop
  | .cancelSync item _ => ∀ record ∈ system.pendingCancels, record.2 ≠ .item item
  | _ => True

instance canceledOnce.decidable (system : System)
    : (call : Call) → Decidable (canceledOnce system call)
  | .cancelSync _ _ => inferInstanceAs (Decidable (∀ _ ∈ _, _))
  | .submit .. | .cancel _ | .flush .. | .take _ | .complete _ => .isTrue trivial
  | .start .. | .drain .. | .unplug _ => .isTrue trivial

theorem Cancelling.cancelSync (cancelling : Cancelling system) (sync : Nat)
    (alone : ∀ record ∈ system.pendingCancels, record.2 ≠ .item item)
    : Cancelling (kWorkCancelSync system (.item item) sync).1 := by
  obtain ⟨kept, records⟩ := cancelling.cancelAsync item
  unfold kWorkCancelSync cancelSyncLocked
  dsimp only
  split
  · split
    · rename_i canceling
      refine ⟨kept.plain, kept.runs, kept.handled, ?_, ?_⟩
      · intro record member
        rcases List.mem_append.mp member with member | member
        · exact kept.canceled member
        · rw [List.mem_singleton.mp member]
          exact ⟨item, rfl, canceling⟩
      · change ((_ ++ [(sync, WorkId.item item)]).map Prod.snd).Nodup
        rw [List.map_append, List.map_singleton, ← List.concat_eq_append, List.nodup_concat]
        refine ⟨?_, kept.single⟩
        rw [records, List.mem_map]
        rintro ⟨record, member, isItem⟩
        exact alone record member isItem
    · exact kept
  · exact cancelling

/-! ### The work queue threads -/

theorem Cancelling.take (cancelling : Cancelling system)
    (resting : (system.queue queue).handling = none)
    : Cancelling (workQueueTake system queue) := by
  unfold workQueueTake
  split
  · rename_i work rest _
    dsimp only
    generalize taken : System.setFlags _ work _ = later
    have flags (item : Nat)
        : (later.work (.item item)).flags
          = { (system.work (.item item)).flags with
              running := (system.work (.item item)).flags.running || decide (.item item = work)
              queued :=
                (system.work (.item item)).flags.queued && decide (.item item ≠ work) } := by
      rw [← taken]
      by_cases same : .item item = work <;> simp [System.setFlags, System.setQueue, same]
    have handling (other : Nat)
        : (later.queue other).handling
          = if other = queue then some work else (system.queue other).handling := by
      rw [← taken]
      by_cases same : other = queue <;> simp [System.setFlags, System.setQueue, same]
    have records : later.pendingCancels = system.pendingCancels := by
      rw [← taken]
      rfl
    refine ⟨?_, ?_, ?_, ?_, ?_⟩
    · intro item
      rw [flags]
      exact cancelling.plain item
    · intro item
      rw [flags]
      intro canceling
      exact Bool.or_eq_true_iff.mpr (.inl (cancelling.runs canceling))
    · intro item
      rw [flags]
      intro running
      rcases Bool.or_eq_true_iff.mp running with running | isWork
      · obtain ⟨other, runs⟩ := cancelling.handled running
        refine ⟨other, ?_⟩
        rw [handling, if_neg, runs]
        rintro rfl
        rw [resting] at runs
        cases runs
      · refine ⟨queue, ?_⟩
        rw [handling, if_pos rfl, of_decide_eq_true isWork]
    · intro record
      simp only [records, flags]
      exact cancelling.canceled
    · rw [records]
      exact cancelling.single
  · exact cancelling.same (SameRunning.setQueue _ _ _ rfl)

theorem erase_of_find?_eq_some {work : WorkId} {records : List (Nat × WorkId)}
    {record : Nat × WorkId} (found : records.find? (cancels work) = some record)
    : records.erase record = records.eraseP (cancels work) := by
  induction records with
  | nil => cases found
  | cons first rest ih =>
      by_cases matched : cancels work first = true
      · rw [List.find?_cons_of_pos matched] at found
        rw [← Option.some.inj found, List.erase_cons_head, List.eraseP_cons_of_pos matched]
      · rw [List.find?_cons_of_neg matched] at found
        have other : first ≠ record := by
          rintro rfl
          exact matched (List.find?_some found)
        rw [List.erase_cons_tail (by simpa using other), List.eraseP_cons_of_neg matched, ih found]

theorem finalizeFlushLocked_pendingCancels (system : System) (work : WorkId)
    : (finalizeFlushLocked system work).pendingCancels = system.pendingCancels := by
  cases work <;> rfl

/-- `work_queue_main` clears the flag for running and completes a flush before it looks at the
flag for cancelling.
-/
theorem workQueueComplete_eq (system : System) (queue : Nat) (work : WorkId)
    : ∃ ready : System,
        ready.pendingCancels = system.pendingCancels
        ∧ (ready.work work).flags.canceling = (system.work work).flags.canceling
        ∧ workQueueComplete system queue work
          = (if (ready.work work).flags.canceling then finalizeCancelLocked ready work
              else ready).setQueue queue (fun q => { q with busy := false, handling := none }) := by
  unfold workQueueComplete
  dsimp only
  refine ⟨_, ?_, ?_, rfl⟩
  · split
    · rw [finalizeFlushLocked_pendingCancels]
      rfl
    · rfl
  · split
    · rw [finalizeFlushLocked_work]
      simp [System.setFlags]
    · simp [System.setFlags]

theorem workQueueComplete_cancels (system : System) (queue : Nat) (work : WorkId)
    : (workQueueComplete system queue work).pendingCancels
        = (if (system.work work).flags.canceling then
            system.pendingCancels.eraseP (cancels work)
          else system.pendingCancels)
      ∧ ((system.work work).flags.canceling = true
          → ∀ record ∈ system.pendingCancels.find? (cancels work),
              (workQueueComplete system queue work).given record.1 = true) := by
  obtain ⟨ready, records, canceling, completed⟩ := workQueueComplete_eq system queue work
  rw [completed, ← canceling, ← records]
  by_cases flagged : (ready.work work).flags.canceling = true
  · rw [if_pos flagged, if_pos flagged]
    have searched : (ready.setFlags work (fun flags => { flags with canceling := false })
        ).pendingCancels.find? (fun record => record.2 = work)
        = ready.pendingCancels.find? (cancels work) := rfl
    unfold finalizeCancelLocked
    dsimp only
    rw [searched]
    cases found : ready.pendingCancels.find? (cancels work) with
    | none =>
        refine ⟨?_, fun _ record none => by cases none⟩
        rw [List.eraseP_of_forall_not]
        · rfl
        · exact fun record member => List.find?_eq_none.mp found record member
    | some record =>
        refine ⟨erase_of_find?_eq_some found, ?_⟩
        rintro - _ ⟨⟩
        simp [System.setQueue]
  · rw [if_neg flagged, if_neg flagged]
    exact ⟨rfl, fun flag => absurd flag flagged⟩

/-- Erasing the first record of an item leaves none exactly when there was at most one. -/
theorem eraseP_cancels_iff {work : WorkId} {records : List (Nat × WorkId)}
    : (∀ record ∈ records.eraseP (cancels work), record.2 ≠ work)
      ↔ records.countP (cancels work) ≤ 1 := by
  induction records with
  | nil => simp
  | cons first rest ih =>
      by_cases matched : cancels work first = true
      · rw [List.eraseP_cons_of_pos matched, List.countP_cons_of_pos matched, Nat.succ_le_succ_iff,
          Nat.le_zero, List.countP_eq_zero]
        simp only [cancels, decide_eq_true_eq, ne_eq]
      · rw [List.eraseP_cons_of_neg matched, List.countP_cons_of_neg matched, ← ih,
          List.forall_mem_cons]
        exact and_iff_right (by simpa [cancels] using matched)

theorem Cancelling.countP_le_one (cancelling : Cancelling system) (work : WorkId)
    : system.pendingCancels.countP (cancels work) ≤ 1 := by
  have counted := List.nodup_iff_count_le_one.mp cancelling.single work
  rwa [List.count_eq_countP, List.countP_map] at counted

theorem Cancelling.find?_eq_some (cancelling : Cancelling system) {record : Nat × WorkId}
    (member : record ∈ system.pendingCancels)
    : system.pendingCancels.find? (cancels record.2) = some record := by
  obtain ⟨found, isFound⟩
      : ∃ found, system.pendingCancels.find? (cancels record.2) = some found :=
    Option.isSome_iff_exists.mp (List.find?_isSome.mpr ⟨record, member, decide_eq_true rfl⟩)
  have matched : cancels record.2 found = true := List.find?_some isFound
  have sameWork : found.2 = record.2 := of_decide_eq_true matched
  have same := List.inj_on_of_nodup_map cancelling.single (List.mem_of_find?_eq_some isFound)
    member sameWork
  rw [isFound, same]

theorem Cancelling.no_record {work : WorkId} (cancelling : Cancelling system)
    {record : Nat × WorkId}
    (remains : record ∈ (workQueueComplete system queue work).pendingCancels)
    : record ∈ system.pendingCancels ∧ record.2 ≠ work := by
  rw [(workQueueComplete_cancels system queue work).1] at remains
  split at remains
  · exact ⟨List.mem_of_mem_eraseP remains,
      eraseP_cancels_iff.mpr (cancelling.countP_le_one work) record remains⟩
  · rename_i idle
    refine ⟨remains, ?_⟩
    rintro rfl
    obtain ⟨item, isItem, canceling⟩ := cancelling.canceled remains
    rw [isItem] at idle
    exact idle canceling

theorem Cancelling.complete {work : WorkId} (cancelling : Cancelling system)
    (handling : (system.queue queue).handling = some work)
    : Cancelling (workQueueComplete system queue work) := by
  have flags := workQueueComplete_work system queue work
  have queues := workQueueComplete_queue system queue work
  refine ⟨?_, ?_, ?_, ?_, ?_⟩
  · intro item
    by_cases same : .item item = work
    · subst same
      simpa [flags] using (cancelling.plain item).1
    · simpa [flags, same] using cancelling.plain item
  · intro item canceling
    by_cases same : .item item = work
    · simp [flags, same] at canceling
    · simp only [flags, Function.update_of_ne same] at canceling ⊢
      exact cancelling.runs canceling
  · intro item running
    by_cases same : .item item = work
    · simp [flags, same] at running
    · simp only [flags, Function.update_of_ne same] at running
      obtain ⟨other, runs⟩ := cancelling.handled running
      refine ⟨other, ?_⟩
      rw [queues, Function.update_of_ne, runs]
      rintro rfl
      rw [handling] at runs
      exact same (Option.some.inj runs).symm
  · intro record remains
    obtain ⟨member, other⟩ := cancelling.no_record remains
    obtain ⟨item, isItem, canceling⟩ := cancelling.canceled member
    refine ⟨item, isItem, ?_⟩
    rw [flags, Function.update_of_ne (isItem ▸ other)]
    exact canceling
  · rw [(workQueueComplete_cancels system queue work).1]
    split
    · exact cancelling.single.sublist (List.eraseP_sublist.map _)
    · exact cancelling.single

/-! ### Every interleaving -/

theorem submitToQueueLocked_same (system : System) (caller queue : Option Nat) (work : WorkId)
    : SameRunning system (submitToQueueLocked system caller work queue).1 := by
  unfold submitToQueueLocked
  split
  · exact .refl system
  split
  · dsimp only
    generalize (if (system.work work).flags.running = true then (system.work work).queue
      else queue.orElse (fun _ => (system.work work).queue)) = chosen
    rcases queueSubmitLocked_cases system caller chosen work with
      ⟨same, failed⟩ | ⟨taker, rfl, -, taken⟩
    · rw [if_pos failed, same]
      exact .refl system
    · rw [taken, if_neg (by decide : ¬(1 : Int) < 0)]
      have linked := SameRunning.setQueue system taker
        (fun q => { q with pending := q.pending ++ [work] }) rfl
      refine (linked.trans (SameRunning.setFlags _ work true)).trans ?_
      refine ⟨?_, ?_, ?_, ?_, fun _ => rfl, rfl⟩ <;> intro item <;>
        by_cases same : .item item = work <;> simp [same]
  · exact .refl system

theorem workFlushLocked_same (system : System) (item sync : Nat)
    : SameRunning system (workFlushLocked system (.item item) sync).1 := by
  unfold workFlushLocked
  dsimp only
  split
  · unfold queueFlusherLocked
    have flusher : SameRunning system (initFlusher system sync) :=
      ⟨fun _ => rfl, fun _ => rfl, fun _ => rfl, fun _ => rfl, fun _ => rfl, rfl⟩
    dsimp only
    exact flusher.trans (SameRunning.setQueue _ _ _ rfl)
  · exact .refl system

theorem Cancelling.step {call : Call} (cancelling : Cancelling system)
    (once : canceledOnce system call) (stepped : Work.step system call = some next)
    : Cancelling next := by
  cases call with
  | submit caller queue item =>
      rw [← Option.some.inj stepped]
      exact cancelling.same (submitToQueueLocked_same ..)
  | cancel item =>
      rw [← Option.some.inj stepped]
      exact (cancelling.cancelAsync item).1
  | cancelSync item sync =>
      obtain ⟨-, ⟨⟩⟩ := Option.ite_none_right_eq_some.mp stepped
      exact cancelling.cancelSync sync once
  | flush item sync =>
      obtain ⟨-, ⟨⟩⟩ := Option.ite_none_right_eq_some.mp stepped
      exact cancelling.same (workFlushLocked_same ..)
  | take queue =>
      obtain ⟨resting, ⟨⟩⟩ := Option.ite_none_right_eq_some.mp stepped
      exact cancelling.take resting.2
  | complete queue =>
      simp only [Work.step] at stepped
      split at stepped
      · rename_i work handling
        rw [← Option.some.inj stepped]
        exact cancelling.complete handling
      · cases stepped
  | start queue noYield =>
      obtain ⟨-, ⟨⟩⟩ := Option.ite_none_left_eq_some.mp stepped
      exact cancelling.same (SameRunning.setQueue _ _ _ rfl)
  | drain queue plug =>
      rw [← Option.some.inj stepped]
      refine cancelling.same ?_
      unfold kWorkQueueDrain
      dsimp only
      split
      · exact SameRunning.setQueue _ _ _ rfl
      · exact .refl system
  | unplug queue =>
      rw [← Option.some.inj stepped]
      have unplugged := SameRunning.setQueue system queue (fun q => { q with plugged := false }) rfl
      exact cancelling.same unplugged

theorem Cancelling.initial : Cancelling {} where
  plain _ := ⟨rfl, rfl⟩
  runs canceling := by cases canceling
  handled running := by cases running
  canceled member := by cases member
  single := List.nodup_nil

/-- When the handler of an item that is being cancelled ends, all threads that wait for it are
released exactly when there is at most one. As long as no thread starts to wait for an item that
another one waits for, each thread that waits has an item whose handler runs, and the end of the
handler releases it.
-/
theorem canceller_released (calls : List Call) (system : System)
    (reached : run step {} calls = some system)
    : (∀ queue work,
        (system.queue queue).handling = some work
        → (system.work work).flags.canceling = true
        → ∃ next,
            step system (.complete queue) = some next
            ∧ ((∀ record ∈ next.pendingCancels, record.2 ≠ work)
                ↔ system.pendingCancels.countP (cancels work) ≤ 1))
      ∧ (RunMeets step canceledOnce {} calls
          → (∀ record ∈ system.pendingCancels,
              ∃ queue, (system.queue queue).handling = some record.2)
            ∧ ∀ queue work,
                (system.queue queue).handling = some work
                → ∃ next,
                    step system (.complete queue) = some next
                    ∧ (∀ record ∈ next.pendingCancels, record.2 ≠ work)
                    ∧ ∀ record ∈ system.pendingCancels,
                        record.2 = work → next.given record.1 = true) := by
  have completes {queue work} (handling : (system.queue queue).handling = some work)
      : step system (.complete queue) = some (workQueueComplete system queue work) := by
    simp only [step, handling]
  refine ⟨?_, ?_⟩
  · intro queue work handling canceling
    refine ⟨_, completes handling, ?_⟩
    rw [(workQueueComplete_cancels system queue work).1, if_pos canceling]
    exact eraseP_cancels_iff
  · intro conditions
    have cancelling := run_invariant_of_meets Cancelling Cancelling.step .initial conditions reached
    refine ⟨?_, ?_⟩
    · intro record member
      obtain ⟨item, isItem, canceling⟩ := cancelling.canceled member
      rw [isItem]
      exact cancelling.handled (cancelling.runs canceling)
    · intro queue work handling
      refine ⟨_, completes handling, fun record remains => (cancelling.no_record remains).2, ?_⟩
      rintro record member rfl
      obtain ⟨item, isItem, canceling⟩ := cancelling.canceled member
      rw [← isItem] at canceling
      refine (workQueueComplete_cancels system queue record.2).2 canceling record ?_
      exact cancelling.find?_eq_some member

/-- One thread cancels an item while its handler runs. -/
def oneCancellerCalls : List Call :=
  [.start 0 false, .submit none (some 0) 1, .take 0, .cancelSync 1 10]

theorem oneCancellerCalls_released
    : ∃ system next,
        run step {} oneCancellerCalls = some system
        ∧ step system (.complete 0) = some next
        ∧ (10, .item 1) ∈ system.pendingCancels
        ∧ next.given 10 = true := by
  have facts : ∀ system ∈ run step {} oneCancellerCalls,
      (system.queue 0).handling = some (.item 1) ∧ (10, .item 1) ∈ system.pendingCancels := by
    decide +kernel
  obtain ⟨system, reached⟩ : ∃ system, run step {} oneCancellerCalls = some system :=
    Option.isSome_iff_exists.mp (by decide +kernel)
  obtain ⟨handling, waits⟩ := facts system reached
  obtain ⟨next, completed, -, released⟩ :=
    ((canceller_released oneCancellerCalls system reached).2 (by decide +kernel)).2 0 _ handling
  exact ⟨system, next, reached, completed, waits, released _ waits rfl⟩

/-- Two threads cancel an item while its handler runs. -/
def twoCancellersCalls : List Call :=
  oneCancellerCalls ++ [.cancelSync 1 11, .complete 0]

/-- The second thread is not released, although the item is idle and no longer cancelled. -/
theorem second_canceller_left
    : ∃ system,
        run step {} twoCancellersCalls = some system
        ∧ (system.work (.item 1)).flags = {}
        ∧ (system.queue 0).handling = none
        ∧ system.pendingCancels = [(11, .item 1)]
        ∧ system.given 10 = true
        ∧ system.given 11 = false := by
  have facts : ∀ system ∈ run step {} twoCancellersCalls,
      (system.work (.item 1)).flags = {}
      ∧ (system.queue 0).handling = none
      ∧ system.pendingCancels = [(11, .item 1)]
      ∧ system.given 10 = true
      ∧ system.given 11 = false := by
    decide +kernel
  obtain ⟨system, reached⟩ : ∃ system, run step {} twoCancellersCalls = some system :=
    Option.isSome_iff_exists.mp (by decide +kernel)
  exact ⟨system, reached, facts system reached⟩

end Zephyr.Kernel.Work
