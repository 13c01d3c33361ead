import Mathlib
import Zephyr.Kernel.Work.Cancelling

/-! A flush waits for the executions of its item that are under way, and a drain for all the work of
its queue. A flush returns when the semaphore of its flusher is given.
-/

namespace Zephyr.Kernel.Work

open Zephyr.Library

variable {system next : System} {queue sync item : Nat}

/-- The executions of each item that have completed, and for the last flush with each `k_work_sync`
the item and the number of completed executions that it is to wait for.
-/
structure Watch where
  completed : Nat → Nat := fun _ => 0
  flushes : Nat → Option (Nat × Nat) := fun _ => none

/-- The executions of the item that are pending or running. -/
def underWay (system : System) (item : Nat) : Nat :=
  (system.work (.item item)).flags.running.toNat + (system.work (.item item)).flags.queued.toNat

def Watch.record (watch : Watch) (system : System) : Call → Watch
  | .flush item sync =>
      { watch with
        flushes :=
          Function.update watch.flushes sync
            (some (item, watch.completed item + underWay system item)) }
  | .complete queue =>
      match (system.queue queue).handling with
      | some (.item item) =>
          { watch with
            completed := Function.update watch.completed item (watch.completed item + 1) }
      | _ => watch
  | _ => watch

def watchedStep (state : System × Watch) (call : Call) : Option (System × Watch) :=
  (step state.1 call).map (·, state.2.record state.1 call)

def Call.Cancels : Call → Prop
  | .cancel _ => True
  | .cancelSync _ _ => True
  | _ => False

/-- How often the item is in front of the flusher. -/
def before (pending : List WorkId) (item sync : Nat) : Nat :=
  (pending.takeWhile (· ≠ .flusher sync)).count (.item item)

/-- Executions of the item that the queue completes before it comes to the flusher. -/
def ahead (q : KWorkQ) (item sync : Nat) : Nat :=
  (if q.handling = some (.item item) then 1 else 0) + before q.pending item sync

/-- The flush is not over before the executions that it waits for have completed. -/
structure Awaits (system : System) (completed sync item target : Nat) : Prop where
  released : system.given sync = true → target ≤ completed
  linked
    : ∀ queue,
        .flusher sync ∈ (system.queue queue).pending
        → target ≤ completed + ahead (system.queue queue) item sync
  handled
    : ∀ queue, (system.queue queue).handling = some (.flusher sync) → target ≤ completed

/-! ### Places in a list -/

theorem before_cons_of_ne {work : WorkId} (pending : List WorkId) (item : Nat)
    (other : work ≠ .flusher sync)
    : before (work :: pending) item sync
      = before pending item sync + if work = .item item then 1 else 0 := by
  unfold before
  rw [List.takeWhile_cons_of_pos (by simpa using other), List.count_cons]
  simp only [beq_iff_eq]

theorem before_cons_self (pending : List WorkId) (item : Nat)
    : before (.flusher sync :: pending) item sync = 0 := by
  unfold before
  rw [List.takeWhile_cons_of_neg (by simp), List.count_nil]

theorem before_append {pending : List WorkId} (linked : .flusher sync ∈ pending)
    (later : List WorkId) (item : Nat)
    : before (pending ++ later) item sync = before pending item sync := by
  induction pending with
  | nil => exact absurd linked List.not_mem_nil
  | cons work rest ih =>
      rw [List.cons_append]
      by_cases isFlusher : work = .flusher sync
      · rw [isFlusher, before_cons_self, before_cons_self]
      · have inRest := (List.mem_cons.mp linked).resolve_left (Ne.symm isFlusher)
        rw [before_cons_of_ne _ _ isFlusher, before_cons_of_ne _ _ isFlusher, ih inRest]

/-- Another flusher makes no difference. -/
theorem before_insertBehind {other : Nat} (different : other ≠ sync) (work : WorkId)
    (pending : List WorkId) (item : Nat)
    : before (insertBehind work (.flusher other) pending) item sync = before pending item sync := by
  have otherFlusher : WorkId.flusher other ≠ .flusher sync := by
    simpa using different
  induction pending with
  | nil => rfl
  | cons found rest ih =>
      unfold insertBehind
      split
      · by_cases isFlusher : found = .flusher sync
        · rw [isFlusher, before_cons_self, before_cons_self]
        · rw [before_cons_of_ne _ _ isFlusher, before_cons_of_ne _ _ otherFlusher,
            before_cons_of_ne _ _ isFlusher]
          simp
      · by_cases isFlusher : found = .flusher sync
        · rw [isFlusher, before_cons_self, before_cons_self]
        · rw [before_cons_of_ne _ _ isFlusher, before_cons_of_ne _ _ isFlusher, ih]

theorem one_le_before_insertBehind {pending : List WorkId}
    (linked : .item item ∈ pending) (unused : .flusher sync ∉ pending)
    : 1 ≤ before (insertBehind (.item item) (.flusher sync) pending) item sync := by
  induction pending with
  | nil => exact absurd linked List.not_mem_nil
  | cons found rest ih =>
      obtain ⟨notFirst, notLater⟩ := not_or.mp (mt List.mem_cons.mpr unused)
      unfold insertBehind
      split
      · rename_i isItem
        rw [before_cons_of_ne _ _ (Ne.symm notFirst), if_pos isItem]
        omega
      · rename_i notItem
        have inRest := (List.mem_cons.mp linked).resolve_left (Ne.symm notItem)
        have behind := ih inRest notLater
        rw [before_cons_of_ne _ _ (Ne.symm notFirst)]
        omega

/-- Where `queue_flusher_locked` puts the flusher. -/
def withFlusher (work : WorkId) (sync : Nat) (pending : List WorkId) : List WorkId :=
  if work ∈ pending then insertBehind work (.flusher sync) pending
  else .flusher sync :: pending

theorem mem_withFlusher {work flusher : WorkId} {other : Nat} {pending : List WorkId}
    (member : flusher ∈ withFlusher work other pending) (different : flusher ≠ .flusher other)
    : flusher ∈ pending := by
  unfold withFlusher at member
  split at member
  · rename_i inList
    have moved := (Sound.insertBehind_perm (.flusher other) inList).mem_iff.mp member
    exact (List.mem_cons.mp moved).resolve_left different
  · exact (List.mem_cons.mp member).resolve_left different

theorem before_withFlusher {other : Nat} (different : other ≠ sync) (work : WorkId)
    (pending : List WorkId) (item : Nat)
    : before (withFlusher work other pending) item sync = before pending item sync := by
  unfold withFlusher
  split
  · exact before_insertBehind different work pending item
  · rw [before_cons_of_ne _ _ (by simpa using different), if_neg (by simp), Nat.add_zero]

theorem queue_setQueue (system : System) (queue : Nat) (change : KWorkQ → KWorkQ) (place : Nat)
    : (system.setQueue queue change).queue place
      = if place = queue then change (system.queue queue) else system.queue place := by
  by_cases here : place = queue
  · subst here
    simp [System.setQueue]
  · simp [System.setQueue, here]

theorem queueFlusherLocked_pending (system : System) (queue : Nat) (work : WorkId) (sync place : Nat)
    : ((queueFlusherLocked system queue work sync).queue place).pending
      = if place = queue then withFlusher work sync (system.queue queue).pending
        else (system.queue place).pending := by
  by_cases here : place = queue
  · subst here
    simp [queueFlusherLocked, System.setQueue, initFlusher, withFlusher]
  · simp [queueFlusherLocked, System.setQueue, initFlusher, here]

theorem queueFlusherLocked_handling (system : System) (queue : Nat) (work : WorkId)
    (sync place : Nat)
    : ((queueFlusherLocked system queue work sync).queue place).handling
      = (system.queue place).handling := by
  by_cases here : place = queue
  · subst here
    simp [queueFlusherLocked, System.setQueue, initFlusher]
  · simp [queueFlusherLocked, System.setQueue, initFlusher, here]

/-! ### Calls -/

theorem Awaits.of_linked {completed target : Nat} (awaits : Awaits system completed sync item target)
    (given : next.given = system.given)
    (handling : ∀ queue, (next.queue queue).handling = (system.queue queue).handling)
    (linked
      : ∀ queue,
          (next.queue queue).pending = (system.queue queue).pending
          ∨ ∃ other,
              (next.queue queue).pending = (system.queue queue).pending ++ [.item other])
    : Awaits next completed sync item target where
  released := by
    rw [given]
    exact awaits.released
  linked := by
    intro queue member
    rcases linked queue with same | ⟨other, more⟩
    · rw [same] at member
      have bound := awaits.linked queue member
      unfold ahead at bound ⊢
      rwa [handling, same]
    · rw [more] at member
      have inQueue : .flusher sync ∈ (system.queue queue).pending := by
        simpa using member
      have bound := awaits.linked queue inQueue
      unfold ahead at bound ⊢
      rwa [handling, more, before_append inQueue]
  handled := by
    intro queue
    rw [handling]
    exact awaits.handled queue

theorem queueSubmitLocked_draining {caller : Option Nat}
    (draining : (system.queue queue).drain = true) (outside : caller ≠ some queue)
    (work : WorkId)
    : (queueSubmitLocked system caller (some queue) work).1 = system := by
  unfold queueSubmitLocked
  dsimp only
  split
  · rfl
  · rw [if_pos (by simp [draining, outside])]

theorem submit_linked (system : System) (caller target : Option Nat) (item queue : Nat)
    : ∃ pending,
        (submitToQueueLocked system caller (.item item) target).1.queue queue
          = { system.queue queue with pending := pending }
        ∧ (pending = (system.queue queue).pending
          ∨ pending = (system.queue queue).pending ++ [.item item]
            ∧ ((system.queue queue).drain = true → caller = some queue)) := by
  unfold submitToQueueLocked
  split
  · exact ⟨_, rfl, .inl rfl⟩
  split
  · dsimp only
    generalize (if (system.work (.item item)).flags.running = true then
      (system.work (.item item)).queue
      else target.orElse (fun _ => (system.work (.item item)).queue)) = chosen
    rcases queueSubmitLocked_cases system caller chosen (.item item) with
      ⟨same, failed⟩ | ⟨taker, rfl, -, taken⟩
    · rw [if_pos failed, same]
      exact ⟨_, rfl, .inl rfl⟩
    · rw [taken, if_neg (by decide : ¬(1 : Int) < 0)]
      by_cases isTaker : queue = taker
      · subst isTaker
        refine ⟨_, Function.update_self .., .inr ⟨rfl, fun draining => ?_⟩⟩
        by_contra outside
        have rejected := queueSubmitLocked_draining draining outside (.item item)
        rw [taken] at rejected
        have same := congrArg (fun system => (system.queue queue).pending) rejected
        simp [System.setQueue] at same
      · exact ⟨_, Function.update_of_ne isTaker _ _, .inl rfl⟩
  · exact ⟨_, rfl, .inl rfl⟩

theorem submit_given (system : System) (caller target : Option Nat) (work : WorkId)
    : (submitToQueueLocked system caller work target).1.given = system.given := by
  unfold submitToQueueLocked
  split
  · rfl
  split
  · dsimp only
    generalize (if (system.work work).flags.running = true then (system.work work).queue
      else target.orElse (fun _ => (system.work work).queue)) = chosen
    rcases queueSubmitLocked_cases system caller chosen work with
      ⟨same, failed⟩ | ⟨taker, rfl, -, taken⟩
    · rw [if_pos failed, same]
    · rw [taken, if_neg (by decide : ¬(1 : Int) < 0)]
      rfl
  · rfl

theorem Awaits.submit {completed target : Nat} (awaits : Awaits system completed sync item target)
    (caller goal : Option Nat) (other : Nat)
    : Awaits (submitToQueueLocked system caller (.item other) goal).1 completed sync item
        target := by
  refine awaits.of_linked (submit_given ..) (fun queue => ?_) fun queue => ?_
  · obtain ⟨pending, isQueue, _⟩ := submit_linked system caller goal other queue
    rw [isQueue]
  · obtain ⟨pending, isQueue, same | more⟩ := submit_linked system caller goal other queue
    · exact .inl (by rw [isQueue, same])
    · exact .inr ⟨other, by rw [isQueue, more.1]⟩

theorem Awaits.flush_other {completed target other : Nat}
    (awaits : Awaits system completed sync item target) (different : other ≠ sync) (work : Nat)
    : Awaits (workFlushLocked system (.item work) other).1 completed sync item target := by
  unfold workFlushLocked
  dsimp only
  split
  · rename_i queue needed bound
    refine ⟨?_, fun place member => ?_, fun place => ?_⟩
    · have given : (queueFlusherLocked system queue (.item work) other).given sync
          = system.given sync :=
        Function.update_of_ne (Ne.symm different) _ _
      rw [given]
      exact awaits.released
    · rw [queueFlusherLocked_pending] at member
      unfold ahead
      rw [queueFlusherLocked_handling, queueFlusherLocked_pending]
      by_cases here : place = queue
      · subst here
        rw [if_pos rfl] at member
        rw [if_pos rfl, before_withFlusher different]
        exact awaits.linked place (mem_withFlusher member (by simpa using Ne.symm different))
      · rw [if_neg here] at member
        rw [if_neg here]
        exact awaits.linked place member
    · rw [queueFlusherLocked_handling]
      exact awaits.handled place
  · exact awaits

theorem Awaits.flush (sound : Sound system) (cancelling : Cancelling system)
    (free : system.isFree sync = true) (completed : Nat)
    : Awaits (workFlushLocked system (.item item) sync).1 completed sync item
        (completed + underWay system item) := by
  rw [System.isFree, Bool.and_eq_true, Bool.not_eq_true'] at free
  have unused : ∀ queue, .flusher sync ∉ (system.queue queue).pending := by
    intro queue linked
    have inUse := sound.flushing linked
    rw [free.1] at inUse
    cases inUse
  have resting : ∀ queue, (system.queue queue).handling ≠ some (.flusher sync) := by
    intro queue handling
    have inUse := (sound.flushed handling).1
    rw [free.1] at inUse
    cases inUse
  unfold workFlushLocked
  dsimp only
  split
  · rename_i queue needed bound
    refine ⟨fun given => ?_, fun place member => ?_, fun place handling => ?_⟩
    · have reset : (queueFlusherLocked system queue (.item item) sync).given sync = false :=
        Function.update_self ..
      rw [reset] at given
      cases given
    · rw [queueFlusherLocked_pending] at member
      split at member
      · rename_i here
        subst here
        have running : (system.work (.item item)).flags.running.toNat
            ≤ if (system.queue place).handling = some (.item item) then 1 else 0 := by
          cases isRunning : (system.work (.item item)).flags.running with
          | false => exact Nat.zero_le _
          | true =>
              -- The queue that handles the item is the one that it is bound to.
              obtain ⟨handler, handling⟩ := cancelling.handled isRunning
              have same := (sound.handled handling).2
              rw [bound] at same
              rw [Option.some.inj same, if_pos handling]
              exact Nat.le_refl _
        have queued : (system.work (.item item)).flags.queued.toNat
            ≤ before (withFlusher (.item item) sync (system.queue place).pending) item sync := by
          cases isQueued : (system.work (.item item)).flags.queued with
          | false => exact Nat.zero_le _
          | true =>
              have inList := sound.queued.mpr ⟨isQueued, bound⟩
              rw [withFlusher, if_pos inList]
              exact one_le_before_insertBehind inList (unused place)
        unfold ahead underWay
        rw [queueFlusherLocked_handling, queueFlusherLocked_pending, if_pos rfl]
        omega
      · exact absurd member (unused place)
    · rw [queueFlusherLocked_handling] at handling
      exact absurd handling (resting place)
  · rename_i unneeded
    -- Nothing is under way, so the flush returns at once.
    have nothing : underWay system item = 0 := by
      unfold underWay
      cases isRunning : (system.work (.item item)).flags.running with
      | true =>
          obtain ⟨handler, handling⟩ := cancelling.handled isRunning
          exact absurd (sound.handled handling).2 (unneeded _ (by simp [isRunning]))
      | false =>
          cases isQueued : (system.work (.item item)).flags.queued with
          | true =>
              obtain ⟨bound, isBound⟩ := sound.bound isQueued
              exact absurd isBound (unneeded _ (by simp [isQueued]))
          | false => rfl
    rw [nothing, Nat.add_zero]
    exact ⟨fun _ => Nat.le_refl _, fun queue member => absurd member (unused queue),
      fun queue handling => absurd handling (resting queue)⟩

theorem Awaits.take {completed target : Nat} (awaits : Awaits system completed sync item target)
    (sound : Sound system) (resting : (system.queue queue).handling = none)
    : Awaits (workQueueTake system queue) completed sync item target := by
  unfold workQueueTake
  split
  · rename_i work rest pending
    have once := sound.once queue
    rw [pending] at once
    have others : ∀ place, place ≠ queue →
        ((System.setFlags (system.setQueue queue (fun q =>
            { q with pending := rest, busy := true, handling := some work }))
          work (fun flags => { flags with running := true, queued := false })).queue place)
        = system.queue place := by
      intro place elsewhere
      exact Function.update_of_ne elsewhere _ _
    have here : ((System.setFlags (system.setQueue queue (fun q =>
            { q with pending := rest, busy := true, handling := some work }))
          work (fun flags => { flags with running := true, queued := false })).queue queue)
        = { system.queue queue with pending := rest, busy := true, handling := some work } :=
      Function.update_self ..
    refine ⟨awaits.released, fun place member => ?_, fun place handling => ?_⟩
    · by_cases isHere : place = queue
      · subst isHere
        rw [here] at member ⊢
        have different : work ≠ .flusher sync := by
          rintro rfl
          exact (List.nodup_cons.mp once).1 member
        have bound := awaits.linked place (pending ▸ List.mem_cons_of_mem _ member)
        unfold ahead at bound ⊢
        rw [pending, resting, before_cons_of_ne _ _ different, if_neg nofun] at bound
        dsimp only
        simp only [Option.some.injEq]
        omega
      · rw [others place isHere] at member ⊢
        exact awaits.linked place member
    · by_cases isHere : place = queue
      · subst isHere
        rw [here] at handling
        have isFlusher : work = .flusher sync := Option.some.inj handling
        subst isFlusher
        have bound := awaits.linked place (pending ▸ List.mem_cons_self)
        unfold ahead at bound
        rw [pending, resting, before_cons_self, if_neg nofun] at bound
        exact bound
      · rw [others place isHere] at handling
        exact awaits.handled place handling
  · have same := queue_setQueue system queue fun q => { q with drain := false }
    refine awaits.of_linked rfl (fun place => ?_) fun place => .inl ?_
    · rw [same]
      split
      · rename_i here
        rw [here]
      · rfl
    · rw [same]
      split
      · rename_i here
        rw [here]
      · rfl

theorem finalizeCancelLocked_given {work : WorkId} (noCancels : system.pendingCancels = [])
    : (finalizeCancelLocked system work).given = system.given := by
  have none : (system.setFlags work (fun flags => { flags with canceling := false })
      ).pendingCancels.find? (fun record => record.2 = work) = none := by
    rw [System.setFlags, noCancels]
    rfl
  unfold finalizeCancelLocked
  dsimp only
  rw [none]
  rfl

theorem finalizeFlushLocked_given {work : WorkId} (other : work ≠ .flusher sync)
    : (finalizeFlushLocked system work).given sync = system.given sync := by
  cases work with
  | item number => rfl
  | flusher owner =>
      have different : sync ≠ owner := by
        rintro rfl
        exact other rfl
      exact Function.update_of_ne different _ _

theorem workQueueComplete_given {work : WorkId} (noCancels : system.pendingCancels = [])
    (given : (workQueueComplete system queue work).given sync = true)
    : system.given sync = true ∨ work = .flusher sync := by
  by_cases isFlusher : work = .flusher sync
  · exact .inr isFlusher
  · refine .inl ?_
    obtain ⟨ready, isReady, records⟩ : ∃ ready : System,
        ready.given sync = system.given sync
        ∧ ready.pendingCancels = []
        ∧ (workQueueComplete system queue work).given
          = (if (ready.work work).flags.canceling then finalizeCancelLocked ready work
              else ready).given := by
      unfold workQueueComplete
      dsimp only
      refine ⟨_, ?_, ?_, rfl⟩
      · split
        · rw [finalizeFlushLocked_given isFlusher]
          rfl
        · rfl
      · split
        · rw [finalizeFlushLocked_pendingCancels]
          exact noCancels
        · exact noCancels
    obtain ⟨records, completed⟩ := records
    rw [completed] at given
    rw [← isReady]
    split at given
    · rwa [finalizeCancelLocked_given records] at given
    · exact given

theorem Awaits.complete {completed target : Nat} {work : WorkId}
    (awaits : Awaits system completed sync item target) (noCancels : system.pendingCancels = [])
    (handling : (system.queue queue).handling = some work)
    : Awaits (workQueueComplete system queue work)
        (completed + if work = .item item then 1 else 0) sync item target := by
  refine ⟨fun given => ?_, fun place member => ?_, fun place handles => ?_⟩
  · rcases workQueueComplete_given noCancels given with old | rfl
    · exact Nat.le_add_right_of_le (awaits.released old)
    · exact Nat.le_add_right_of_le (awaits.handled queue handling)
  · rw [workQueueComplete_queue] at member ⊢
    by_cases here : place = queue
    · subst here
      rw [Function.update_self] at member ⊢
      have bound := awaits.linked place member
      unfold ahead at bound ⊢
      rw [handling] at bound
      simp only [Option.some.injEq] at bound
      simp only [reduceCtorEq, if_false]
      omega
    · rw [Function.update_of_ne here] at member ⊢
      have bound := awaits.linked place member
      omega
  · rw [workQueueComplete_queue] at handles
    by_cases here : place = queue
    · subst here
      rw [Function.update_self] at handles
      cases handles
    · rw [Function.update_of_ne here] at handles
      exact Nat.le_add_right_of_le (awaits.handled place handles)

end Zephyr.Kernel.Work
