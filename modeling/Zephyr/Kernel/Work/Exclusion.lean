import Zephyr.Library.Run
import Zephyr.Kernel.Work.Linking

/-! The queued flag of an item says where the item is linked, and no handler is entered while it
still runs.
-/

namespace Zephyr.Kernel.Work

open Zephyr.Library

variable {system next : System} {item sync queue : Nat}

/-! ### One step -/

/-- A queue that takes work links it at its end; otherwise nothing changes. -/
theorem queueSubmitLocked_cases (system : System) (caller queue : Option Nat) (work : WorkId)
    : ((queueSubmitLocked system caller queue work).1 = system
        ∧ (queueSubmitLocked system caller queue work).2 < 0)
      ∨ ∃ taker,
          queue = some taker
          ∧ (system.queue taker).started = true
          ∧ queueSubmitLocked system caller queue work
            = (system.setQueue taker (fun q => { q with pending := q.pending ++ [work] }), 1) := by
  unfold queueSubmitLocked
  cases queue with
  | none => exact .inl ⟨rfl, (by decide : -einval < 0)⟩
  | some taker =>
      dsimp only
      split
      · exact .inl ⟨rfl, (by decide : -enodev < 0)⟩
      · rename_i started
        split
        · exact .inl ⟨rfl, (by decide : -ebusy < 0)⟩
        · split
          · exact .inl ⟨rfl, (by decide : -ebusy < 0)⟩
          · exact .inr ⟨taker, rfl, by simpa using started, rfl⟩

@[simp] theorem finalizeFlushLocked_work (system : System) (work : WorkId)
    : (finalizeFlushLocked system work).work
      = (system.setFlags work (fun flags => { flags with flushing := false })).work := by
  cases work <;> rfl

@[simp] theorem finalizeFlushLocked_queue (system : System) (work : WorkId)
    : (finalizeFlushLocked system work).queue = system.queue := by
  cases work <;> rfl

@[simp] theorem finalizeCancelLocked_work (system : System) (work : WorkId)
    : (finalizeCancelLocked system work).work
      = (system.setFlags work (fun flags => { flags with canceling := false })).work := by
  unfold finalizeCancelLocked
  dsimp only
  split <;> rfl

@[simp] theorem finalizeCancelLocked_queue (system : System) (work : WorkId)
    : (finalizeCancelLocked system work).queue = system.queue := by
  unfold finalizeCancelLocked
  dsimp only
  split <;> rfl

theorem workQueueComplete_work (system : System) (queue : Nat) (work : WorkId)
    : (workQueueComplete system queue work).work
      = Function.update system.work work
          { system.work work with
            flags :=
              { (system.work work).flags with
                running := false, flushing := false, canceling := false } } := by
  unfold workQueueComplete
  cases flushing : (system.work work).flags.flushing <;>
    cases canceling : (system.work work).flags.canceling <;>
      simp [System.setFlags, System.setQueue, flushing, canceling]

theorem workQueueComplete_queue (system : System) (queue : Nat) (work : WorkId)
    : (workQueueComplete system queue work).queue
      = Function.update system.queue queue
          { system.queue queue with busy := false, handling := none } := by
  unfold workQueueComplete
  dsimp only
  split <;> split <;> simp [System.setFlags, System.setQueue]

namespace Sound

theorem submit (sound : Sound system) (caller queue : Option Nat) (item : Nat)
    : Sound (submitToQueueLocked system caller (.item item) queue).1 := by
  unfold submitToQueueLocked
  split
  · exact sound
  · split
    · rename_i free
      rw [Bool.not_eq_true'] at free
      dsimp only
      -- the queue that the item goes to, which is the one that runs it if there is one
      generalize target : (if (system.work (.item item)).flags.running = true then
        (system.work (.item item)).queue
        else queue.orElse (fun _ => (system.work (.item item)).queue)) = chosen
      rcases queueSubmitLocked_cases system caller chosen (.item item) with
        ⟨same, failed⟩ | ⟨taker, rfl, started, taken⟩
      · rw [if_pos failed, same]
        exact sound
      · have bound : (system.work (.item item)).flags.running = true
            → (system.work (.item item)).queue = some taker := by
          intro running
          rw [← target, if_pos running]
        have linked := sound.link free started bound
        rw [taken, if_neg (by decide : ¬(1 : Int) < 0)]
        simpa [System.setFlags, System.setQueue] using linked
    · exact sound

theorem queueRemove (sound : Sound system) (item : Nat)
    : Sound (queueRemoveLocked system (system.work (.item item)).queue (.item item)) := by
  unfold queueRemoveLocked
  split
  · rename_i queued
    obtain ⟨queue, bound⟩ := sound.bound queued
    have unlinked := sound.unlink bound
    rw [bound]
    exact unlinked
  · exact sound

theorem cancelAsync (sound : Sound system) (item : Nat)
    : Sound (cancelAsyncLocked system (.item item)).1 := by
  have removed : Sound
      (if (system.work (.item item)).flags.canceling then system
        else queueRemoveLocked system (system.work (.item item)).queue (.item item)) := by
    split
    · exact sound
    · exact sound.queueRemove item
  unfold cancelAsyncLocked
  dsimp only
  generalize (if (system.work (.item item)).flags.canceling = true then system
    else queueRemoveLocked system (system.work (.item item)).queue (.item item))
    = later at removed ⊢
  split
  · exact removed.alike (Alike.setFlags _ _ _ rfl rfl rfl)
  · exact removed

theorem cancelSync (sound : Sound system) (item sync : Nat)
    : Sound (kWorkCancelSync system (.item item) sync).1 := by
  have cancelled := sound.cancelAsync item
  unfold kWorkCancelSync cancelSyncLocked
  dsimp only
  split
  · split
    · exact cancelled.alike
        ⟨fun _ => rfl, fun _ => rfl, fun _ => rfl, fun _ => rfl, fun _ => rfl, fun _ => rfl,
          fun _ => rfl⟩
    · exact cancelled
  · exact sound

theorem insertBehind_perm {work : WorkId} (flusher : WorkId) {pending : List WorkId}
    (member : work ∈ pending)
    : (insertBehind work flusher pending).Perm (flusher :: pending) := by
  induction pending with
  | nil => cases member
  | cons found rest ih =>
      unfold insertBehind
      split
      · exact .swap ..
      · rename_i other
        have later := (List.mem_cons.mp member).resolve_left (Ne.symm other)
        exact ((ih later).cons found).trans (.swap ..)

theorem flush (sound : Sound system) (free : system.isFree sync = true) (item : Nat)
    : Sound (workFlushLocked system (.item item) sync).1 := by
  rw [System.isFree, Bool.and_eq_true, Bool.not_eq_true'] at free
  unfold workFlushLocked
  dsimp only
  split
  · rename_i queue needed bound
    have put : (if .item item ∈ (system.queue queue).pending then
          insertBehind (.item item) (.flusher sync) (system.queue queue).pending
        else .flusher sync :: (system.queue queue).pending).Perm
        (.flusher sync :: (system.queue queue).pending) := by
      split
      · exact insertBehind_perm _ ‹_›
      · exact .refl _
    have linked := sound.linkFlusher { queue := none, flags := { flushing := true } } free.1 rfl
      (sound.live bound) put
    exact linked.alike
      ⟨fun _ => rfl, fun _ => rfl, fun _ => rfl, fun _ => rfl, fun _ => rfl, fun _ => rfl,
        fun _ => rfl⟩
  · exact sound

theorem workQueueTake (sound : Sound system)
    (resting : (system.queue queue).handling = none)
    : Sound (Work.workQueueTake system queue) := by
  unfold Work.workQueueTake
  split
  · rename_i work rest pending
    exact sound.take pending resting
  · exact sound.alike (Alike.setQueue _ _ _ rfl rfl rfl)

theorem workQueueComplete {work : WorkId} (sound : Sound system)
    (handling : (system.queue queue).handling = some work)
    : Sound (Work.workQueueComplete system queue work) := by
  have rested := sound.rest
    { (system.work work).flags with running := false, flushing := false, canceling := false }
    handling rfl
  refine rested.alike ?_
  have flags := workQueueComplete_work system queue work
  have queues := workQueueComplete_queue system queue work
  exact
    ⟨fun _ => by rw [queues], fun _ => by rw [queues], fun _ => by rw [queues],
      fun _ => by rw [flags], fun _ => by rw [flags], fun _ => by rw [flags],
      fun _ => by rw [flags]⟩

theorem kWorkQueueStart (sound : Sound system) (started : (system.queue queue).started = false)
    (noYield : Bool)
    : Sound (Work.kWorkQueueStart system queue noYield) := by
  have empty := sound.idle started
  obtain ⟨once, apart, queued, bound, flushing, handled, flushed, alone, idle, live⟩ := sound
  unfold Work.kWorkQueueStart System.setQueue
  constructor
  · intro q
    by_cases here : q = queue
    · subst here
      simp
    · simpa [here] using once q
  all_goals grind

theorem kWorkQueueDrain (sound : Sound system) (queue : Nat) (plug : Bool)
    : Sound (Work.kWorkQueueDrain system queue plug) := by
  unfold Work.kWorkQueueDrain
  dsimp only
  split
  · exact sound.alike (Alike.setQueue _ _ _ rfl rfl rfl)
  · exact sound

theorem step {call : Call} (sound : Sound system) (stepped : Work.step system call = some next)
    : Sound next := by
  cases call with
  | submit caller queue item =>
      rw [← Option.some.inj stepped]
      exact sound.submit caller queue item
  | cancel item =>
      rw [← Option.some.inj stepped]
      exact sound.cancelAsync item
  | cancelSync item sync =>
      obtain ⟨-, ⟨⟩⟩ := Option.ite_none_right_eq_some.mp stepped
      exact sound.cancelSync item sync
  | flush item sync =>
      obtain ⟨free, ⟨⟩⟩ := Option.ite_none_right_eq_some.mp stepped
      exact sound.flush free item
  | take queue =>
      obtain ⟨resting, ⟨⟩⟩ := Option.ite_none_right_eq_some.mp stepped
      exact sound.workQueueTake resting.2
  | complete queue =>
      simp only [Work.step] at stepped
      split at stepped
      · rename_i work handling
        rw [← Option.some.inj stepped]
        exact sound.workQueueComplete handling
      · cases stepped
  | start queue noYield =>
      obtain ⟨fresh, ⟨⟩⟩ := Option.ite_none_left_eq_some.mp stepped
      exact sound.kWorkQueueStart (by simpa using fresh) noYield
  | drain queue plug =>
      rw [← Option.some.inj stepped]
      exact sound.kWorkQueueDrain queue plug
  | unplug queue =>
      rw [← Option.some.inj stepped]
      have kept := sound.alike
        (Alike.setQueue system queue (fun q => { q with plugged := false }) rfl rfl rfl)
      exact kept

theorem initial : Sound {} where
  once _ := List.nodup_nil
  apart linked := absurd linked List.not_mem_nil
  queued := ⟨fun linked => absurd linked List.not_mem_nil, fun queued => by cases queued.1⟩
  bound queued := by cases queued
  flushing linked := absurd linked List.not_mem_nil
  handled handling := by cases handling
  flushed handling := by cases handling
  alone handling := by cases handling
  idle _ := rfl
  live bound := by cases bound

/-- Linked exactly once in its own queue and in no other one. -/
theorem queued_iff_linked (sound : Sound system) (item : Nat)
    : (system.work (.item item)).flags.queued = true
      ↔ ∃ queue,
          (system.work (.item item)).queue = some queue
          ∧ (system.queue queue).pending.count (.item item) = 1
          ∧ ∀ other, other ≠ queue → .item item ∉ (system.queue other).pending := by
  constructor
  · intro queued
    obtain ⟨queue, bound⟩ := sound.bound queued
    have linked := sound.queued.mpr ⟨queued, bound⟩
    refine ⟨queue, bound, List.count_eq_one_of_mem (sound.once queue) linked, ?_⟩
    intro other distinct elsewhere
    exact distinct (sound.apart elsewhere linked)
  · rintro ⟨queue, bound, counted, -⟩
    have linked : .item item ∈ (system.queue queue).pending :=
      List.count_pos_iff.mp (by omega)
    exact (sound.queued.mp linked).1

/-- The thread that enters a handler runs none, and no other thread runs this one: the item that
it takes was bound to its queue.
-/
theorem entered_alone (sound : Sound system)
    (taken : Work.step system (.take queue) = some next)
    (entered : (next.queue queue).handling = some (.item item)) (other : Nat)
    : (system.queue other).handling ≠ some (.item item) := by
  intro handling
  have later := sound.step taken
  obtain ⟨⟨-, resting⟩, isNext⟩ := Option.ite_none_right_eq_some.mp taken
  by_cases here : other = queue
  · rw [here, resting] at handling
    cases handling
  · have kept : (next.queue other).handling = (system.queue other).handling := by
      rw [← Option.some.inj isNext, Work.workQueueTake]
      split <;> simp [System.setQueue, System.setFlags, here]
    exact here (later.alone (kept.trans handling) entered)

end Sound

/-! ### Every interleaving -/

/-- After every interleaving an item has its flag set exactly while it is linked once in the queue
that it is bound to and in no other one. At most one queue runs its handler, and a thread that
enters it finds no queue running it.
-/
theorem queued_where_linked_and_handled_alone (calls : List Call) (system : System)
    (reached : run step {} calls = some system) (item : Nat)
    : ((system.work (.item item)).flags.queued = true
        ↔ ∃ queue,
            (system.work (.item item)).queue = some queue
            ∧ (system.queue queue).pending.count (.item item) = 1
            ∧ ∀ other, other ≠ queue → .item item ∉ (system.queue other).pending)
      ∧ (∀ queue,
          .item item ∈ (system.queue queue).pending
            → (system.work (.item item)).queue = some queue)
      ∧ (∀ queue other,
          (system.queue queue).handling = some (.item item)
            → (system.queue other).handling = some (.item item)
            → queue = other)
      ∧ (∀ queue next,
          step system (.take queue) = some next
            → (next.queue queue).handling = some (.item item)
            → ∀ other, (system.queue other).handling ≠ some (.item item)) := by
  have sound := run_invariant Sound (fun sound stepped => sound.step stepped) .initial reached
  refine ⟨sound.queued_iff_linked item, ?_, ?_, ?_⟩
  · intro queue linked
    exact (sound.queued.mp linked).2
  · intro queue other handling
    exact sound.alone handling
  · intro queue next taken entered
    exact sound.entered_alone taken entered

/-- An item is submitted to a second queue while the first one runs its handler, is cancelled
there and flushed, and goes to the second queue only when the handler is done.
-/
def movingCalls : List Call :=
  [.start 0 false, .start 1 false, .submit none (some 0) 7, .take 0, .submit none (some 1) 7,
    .take 1, .flush 7 3, .cancel 7, .submit none (some 1) 7, .complete 0, .take 0, .complete 0,
    .submit none (some 1) 7]

theorem movingCalls_handled_alone
    : ∃ system,
        run step {} movingCalls = some system
        ∧ (system.queue 0).pending = []
        ∧ (system.queue 1).pending = [.item 7]
        ∧ system.given 3 = true
        ∧ (system.work (.item 7)).queue = some 1
        ∧ ∀ other, other ≠ 1 → .item 7 ∉ (system.queue other).pending := by
  have facts : ∀ system ∈ run step {} movingCalls,
      (system.queue 0).pending = []
      ∧ (system.queue 1).pending = [.item 7]
      ∧ system.given 3 = true
      ∧ (system.work (.item 7)).queue = some 1
      ∧ (system.work (.item 7)).flags.queued = true := by
    decide +kernel
  obtain ⟨system, reached⟩ : ∃ system, run step {} movingCalls = some system :=
    Option.isSome_iff_exists.mp (by decide +kernel)
  obtain ⟨first, second, given, bound, queued⟩ := facts system reached
  obtain ⟨queue, linkedAt, -, nowhere⟩ :=
    (queued_where_linked_and_handled_alone movingCalls system reached 7).1.mp queued
  obtain rfl : queue = 1 := Option.some.inj (linkedAt.symm.trans bound)
  exact ⟨system, reached, first, second, given, bound, nowhere⟩

end Zephyr.Kernel.Work
