import Zephyr.Kernel.Work.Flushing

/-! Runs of submissions, handlers, flushes and drains: what a flush and a drain have waited for when
they return.
-/

namespace Zephyr.Kernel.Work

open Zephyr.Library

variable {system next : System} {queue sync item : Nat}

/-! ### Every interleaving -/

/-- A thread that runs a handler belongs to a queue that was started, and is busy. -/
def Busy (system : System) : Prop :=
  ∀ queue,
    (system.queue queue).handling ≠ none
    → (system.queue queue).busy = true ∧ (system.queue queue).started = true

structure Watched (state : System × Watch) : Prop where
  sound : Sound state.1
  cancelling : Cancelling state.1
  noCancels : state.1.pendingCancels = []
  busy : Busy state.1
  awaits
    : ∀ sync item target,
        state.2.flushes sync = some (item, target)
        → Awaits state.1 (state.2.completed item) sync item target

theorem step_queue {call : Call} (plain : ¬call.Cancels) (stepped : step system call = some next)
    (queue : Nat)
    : (∃ pending, next.queue queue = { system.queue queue with pending := pending })
      ∨ call = .take queue
      ∨ call = .complete queue
      ∨ (∃ noYield, call = .start queue noYield)
      ∨ (∃ plug, call = .drain queue plug)
      ∨ call = .unplug queue := by
  cases call with
  | submit caller target item =>
      rw [← Option.some.inj stepped]
      obtain ⟨pending, isQueue, _⟩ := submit_linked system caller target item queue
      exact .inl ⟨pending, isQueue⟩
  | cancel item => exact absurd trivial plain
  | cancelSync item sync => exact absurd trivial plain
  | flush item sync =>
      obtain ⟨-, ⟨⟩⟩ := Option.ite_none_right_eq_some.mp stepped
      refine .inl ?_
      unfold workFlushLocked
      dsimp only
      split
      · rename_i place needed bound
        simp only [queueFlusherLocked, queue_setQueue]
        split
        · rename_i here
          subst here
          exact ⟨_, rfl⟩
        · exact ⟨_, rfl⟩
      · exact ⟨_, rfl⟩
  | take place =>
      obtain ⟨-, ⟨⟩⟩ := Option.ite_none_right_eq_some.mp stepped
      by_cases here : place = queue
      · exact .inr (.inl (here ▸ rfl))
      · refine .inl ⟨(system.queue queue).pending, ?_⟩
        unfold workQueueTake
        split
        · exact Function.update_of_ne (Ne.symm here) _ _
        · exact Function.update_of_ne (Ne.symm here) _ _
  | complete place =>
      by_cases here : place = queue
      · exact .inr (.inr (.inl (here ▸ rfl)))
      · simp only [step] at stepped
        split at stepped
        · rw [← Option.some.inj stepped, workQueueComplete_queue]
          exact .inl ⟨_, Function.update_of_ne (Ne.symm here) _ _⟩
        · cases stepped
  | start place noYield =>
      obtain ⟨-, ⟨⟩⟩ := Option.ite_none_left_eq_some.mp stepped
      by_cases here : place = queue
      · exact .inr (.inr (.inr (.inl ⟨noYield, here ▸ rfl⟩)))
      · exact .inl ⟨_, Function.update_of_ne (Ne.symm here) _ _⟩
  | drain place plug =>
      by_cases here : place = queue
      · exact .inr (.inr (.inr (.inr (.inl ⟨plug, here ▸ rfl⟩))))
      · rw [← Option.some.inj stepped]
        unfold kWorkQueueDrain
        dsimp only
        split
        · exact .inl ⟨_, Function.update_of_ne (Ne.symm here) _ _⟩
        · exact .inl ⟨_, rfl⟩
  | unplug place =>
      by_cases here : place = queue
      · exact .inr (.inr (.inr (.inr (.inr (here ▸ rfl)))))
      · rw [← Option.some.inj stepped]
        exact .inl ⟨_, Function.update_of_ne (Ne.symm here) _ _⟩

theorem workQueueTake_queue {work : WorkId} {rest : List WorkId}
    (pending : (system.queue queue).pending = work :: rest)
    : (workQueueTake system queue).queue queue
      = { system.queue queue with pending := rest, busy := true, handling := some work } := by
  rw [workQueueTake, pending]
  exact Function.update_self ..

theorem Busy.step {call : Call} (busy : Busy system) (plain : ¬call.Cancels)
    (stepped : Work.step system call = some next)
    : Busy next := by
  intro queue handles
  rcases step_queue plain stepped queue with
    ⟨pending, isQueue⟩ | rfl | rfl | ⟨noYield, rfl⟩ | ⟨plug, rfl⟩ | rfl
  · rw [isQueue] at handles ⊢
    exact busy queue handles
  · obtain ⟨⟨started, resting⟩, ⟨⟩⟩ := Option.ite_none_right_eq_some.mp stepped
    cases pending : (system.queue queue).pending with
    | cons work rest =>
        rw [workQueueTake_queue pending]
        exact ⟨rfl, started⟩
    | nil =>
        rw [workQueueTake, pending] at handles
        dsimp only at handles
        rw [queue_setQueue, if_pos rfl] at handles
        exact absurd resting handles
  · simp only [Work.step] at stepped
    split at stepped
    · rw [← Option.some.inj stepped, workQueueComplete_queue, Function.update_self] at handles
      exact absurd rfl handles
    · cases stepped
  · obtain ⟨fresh, ⟨⟩⟩ := Option.ite_none_left_eq_some.mp stepped
    rw [kWorkQueueStart, queue_setQueue, if_pos rfl] at handles
    exact absurd (busy queue handles).2 fresh
  · rw [← Option.some.inj stepped] at handles ⊢
    unfold kWorkQueueDrain at handles ⊢
    dsimp only at handles ⊢
    split
    · rename_i waits
      rw [if_pos waits, queue_setQueue, if_pos rfl] at handles
      rw [queue_setQueue, if_pos rfl]
      exact busy queue handles
    · rename_i done
      rw [if_neg done] at handles
      exact busy queue handles
  · rw [← Option.some.inj stepped] at handles ⊢
    simp only [kWorkQueueUnplug, queue_setQueue, if_true] at handles ⊢
    exact busy queue handles

theorem pendingCancels_step {call : Call} (noCancels : system.pendingCancels = [])
    (plain : ¬call.Cancels) (stepped : step system call = some next)
    : next.pendingCancels = [] := by
  cases call with
  | submit caller target item =>
      rw [← Option.some.inj stepped, (submitToQueueLocked_same ..).pendingCancels]
      exact noCancels
  | cancel item => exact absurd trivial plain
  | cancelSync item sync => exact absurd trivial plain
  | flush item sync =>
      obtain ⟨-, ⟨⟩⟩ := Option.ite_none_right_eq_some.mp stepped
      rw [(workFlushLocked_same ..).pendingCancels]
      exact noCancels
  | take queue =>
      obtain ⟨-, ⟨⟩⟩ := Option.ite_none_right_eq_some.mp stepped
      unfold workQueueTake
      split
      · exact noCancels
      · exact noCancels
  | complete queue =>
      simp only [step] at stepped
      split at stepped
      · rw [← Option.some.inj stepped, (workQueueComplete_cancels ..).1, noCancels]
        split
        · rfl
        · rfl
      · cases stepped
  | start queue noYield =>
      obtain ⟨-, ⟨⟩⟩ := Option.ite_none_left_eq_some.mp stepped
      exact noCancels
  | drain queue plug =>
      rw [← Option.some.inj stepped]
      unfold kWorkQueueDrain
      dsimp only
      split
      · exact noCancels
      · exact noCancels
  | unplug queue =>
      rw [← Option.some.inj stepped]
      exact noCancels

theorem Awaits.of_queue {completed target : Nat} (awaits : Awaits system completed sync item target)
    (given : next.given = system.given)
    (same
      : ∀ place,
          (next.queue place).pending = (system.queue place).pending
          ∧ (next.queue place).handling = (system.queue place).handling)
    : Awaits next completed sync item target :=
  awaits.of_linked given (fun place => (same place).2) fun place => .inl (same place).1

/-- The executions of the item that a step brings to an end. -/
def ended (system : System) (item : Nat) : Call → Nat
  | .complete queue => if (system.queue queue).handling = some (.item item) then 1 else 0
  | _ => 0

theorem Awaits.step {completed target : Nat} {call : Call}
    (awaits : Awaits system completed sync item target) (sound : Sound system)
    (noCancels : system.pendingCancels = []) (plain : ¬call.Cancels)
    (others : ∀ work, call ≠ .flush work sync) (stepped : Work.step system call = some next)
    : Awaits next (completed + ended system item call) sync item target := by
  cases call with
  | submit caller goal other =>
      rw [← Option.some.inj stepped]
      exact awaits.submit caller goal other
  | cancel item => exact absurd trivial plain
  | cancelSync item sync => exact absurd trivial plain
  | flush other waiter =>
      obtain ⟨-, ⟨⟩⟩ := Option.ite_none_right_eq_some.mp stepped
      refine awaits.flush_other ?_ other
      rintro rfl
      exact others other rfl
  | take queue =>
      obtain ⟨resting, ⟨⟩⟩ := Option.ite_none_right_eq_some.mp stepped
      exact awaits.take sound resting.2
  | complete queue =>
      simp only [Work.step] at stepped
      split at stepped
      · rename_i work handling
        rw [← Option.some.inj stepped]
        have completes := awaits.complete noCancels handling
        simpa only [ended, handling, Option.some.injEq] using completes
      · cases stepped
  | start queue noYield =>
      obtain ⟨fresh, ⟨⟩⟩ := Option.ite_none_left_eq_some.mp stepped
      refine awaits.of_queue rfl fun place => ?_
      rw [kWorkQueueStart, queue_setQueue]
      split
      · rename_i here
        subst here
        exact ⟨(sound.idle (by simpa using fresh)).symm, rfl⟩
      · exact ⟨rfl, rfl⟩
  | drain queue plug =>
      rw [← Option.some.inj stepped]
      unfold kWorkQueueDrain
      dsimp only
      split
      · refine awaits.of_queue rfl fun place => ?_
        rw [queue_setQueue]
        split
        · rename_i here
          subst here
          exact ⟨rfl, rfl⟩
        · exact ⟨rfl, rfl⟩
      · exact awaits
  | unplug queue =>
      rw [← Option.some.inj stepped]
      refine awaits.of_queue rfl fun place => ?_
      rw [kWorkQueueUnplug, queue_setQueue]
      split
      · rename_i here
        subst here
        exact ⟨rfl, rfl⟩
      · exact ⟨rfl, rfl⟩

theorem record_completed (watch : Watch) (system : System) (call : Call) (item : Nat)
    : (watch.record system call).completed item
      = watch.completed item + ended system item call := by
  cases call with
  | complete queue =>
      cases isHandling : (system.queue queue).handling with
      | none => simp [Watch.record, ended, isHandling]
      | some work =>
          cases work with
          | flusher sync => simp [Watch.record, ended, isHandling]
          | item other =>
              by_cases same : item = other
              · simp [Watch.record, ended, isHandling, same]
              · simp [Watch.record, ended, isHandling, same, Ne.symm same]
  | _ => rfl

theorem Watched.step {state later : System × Watch} {call : Call} (watched : Watched state)
    (plain : ¬call.Cancels) (recorded : watchedStep state call = some later)
    : Watched later := by
  obtain ⟨system, watch⟩ := state
  obtain ⟨sound, cancelling, noCancels, busy, awaits⟩ := watched
  obtain ⟨next, stepped, rfl⟩ := Option.map_eq_some_iff.mp recorded
  dsimp only at stepped sound cancelling noCancels busy awaits
  have once : canceledOnce system call := by
    cases call with
    | cancelSync item sync => exact absurd trivial plain
    | _ => trivial
  refine ⟨sound.step stepped, cancelling.step once stepped,
    pendingCancels_step noCancels plain stepped, busy.step plain stepped, ?_⟩
  intro sync item target flush
  dsimp only at flush ⊢
  by_cases its : ∃ work, call = .flush work sync
  · obtain ⟨work, rfl⟩ := its
    obtain ⟨free, ⟨⟩⟩ := Option.ite_none_right_eq_some.mp stepped
    simp only [Watch.record, Function.update_self, Option.some.injEq, Prod.mk.injEq] at flush
    obtain ⟨rfl, rfl⟩ := flush
    exact Awaits.flush sound cancelling free (watch.completed work)
  · have others : ∀ work, call ≠ .flush work sync := fun work same => its ⟨work, same⟩
    have before : watch.flushes sync = some (item, target) := by
      cases call with
      | flush work waiter =>
          have different : sync ≠ waiter := by
            rintro rfl
            exact others work rfl
          rw [← flush]
          exact (Function.update_of_ne different _ _).symm
      | complete queue =>
          rw [← flush]
          simp only [Watch.record]
          split
          · rfl
          · rfl
      | _ => exact flush
    rw [record_completed]
    exact (awaits sync item target before).step sound noCancels plain others stepped

theorem Watched.initial : Watched ({}, {}) where
  sound := .initial
  cancelling := .initial
  noCancels := rfl
  busy := fun _ handles => absurd rfl handles
  awaits := fun _ _ _ flush => nomatch flush

theorem drain_ends {call : Call} (plain : ¬call.Cancels) (stepped : step system call = some next)
    (started : (system.queue queue).started = true)
    (draining : (system.queue queue).drain = true) (ended : (next.queue queue).drain = false)
    : call = .take queue
      ∧ (system.queue queue).pending = []
      ∧ (system.queue queue).handling = none := by
  have goesOn : (next.queue queue).drain ≠ true := by simp [ended]
  rcases step_queue plain stepped queue with
    ⟨pending, isQueue⟩ | rfl | rfl | ⟨noYield, rfl⟩ | ⟨plug, rfl⟩ | rfl
  · rw [isQueue] at goesOn
    exact absurd draining goesOn
  · obtain ⟨⟨-, resting⟩, ⟨⟩⟩ := Option.ite_none_right_eq_some.mp stepped
    refine ⟨rfl, ?_, resting⟩
    cases pending : (system.queue queue).pending with
    | nil => rfl
    | cons work rest =>
        rw [workQueueTake_queue pending] at goesOn
        exact absurd draining goesOn
  · simp only [step] at stepped
    split at stepped
    · rw [← Option.some.inj stepped, workQueueComplete_queue, Function.update_self] at goesOn
      exact absurd draining goesOn
    · cases stepped
  · obtain ⟨fresh, ⟨⟩⟩ := Option.ite_none_left_eq_some.mp stepped
    exact absurd started fresh
  · rw [← Option.some.inj stepped] at goesOn
    unfold kWorkQueueDrain at goesOn
    dsimp only at goesOn
    split at goesOn
    · exact absurd (by rw [queue_setQueue, if_pos rfl]) goesOn
    · exact absurd draining goesOn
  · rw [← Option.some.inj stepped] at goesOn
    rw [kWorkQueueUnplug, queue_setQueue, if_pos rfl] at goesOn
    exact absurd draining goesOn

/-- An item is submitted again while its handler runs and flushed, and the queue is drained while
another item is pending.
-/
def resubmitted : List Call :=
  [.start 0 false, .submit none (some 0) 1, .take 0, .submit none (some 0) 1, .flush 1 0,
    .complete 0, .take 0, .complete 0, .take 0, .complete 0, .submit none (some 0) 2,
    .drain 0 false]

end Zephyr.Kernel.Work
