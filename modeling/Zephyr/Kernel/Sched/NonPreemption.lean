import Zephyr.Kernel.Sched.Choosing

/-! A guarded thread runs on through every run of calls that act on other threads and do not
choose another thread against it.
-/

namespace Zephyr.Kernel.Sched

open Zephyr.Library

variable {system later : System} {loose : Nat → Prop} {thread : Nat}

/-- The call acts on threads other than the current one. -/
def Call.OnOthers (system : System) : Call → Prop
  | .interrupt operation | .thread _ operation => operation.target ≠ some system.current
  | .timeout thread => thread ≠ system.current
  | .self _ (.prioSet thread _) | .self _ (.inherit thread _) | .self _ (.pendDummy thread ..) =>
      thread ≠ system.current
  | .self .. => False
  | .contextSwitch => True

/-- The call does not choose another thread against the current one. -/
def Call.Undisturbed (system : System) : Call → Prop
  | .interrupt operation | .thread _ operation => operation.Undisturbed system
  | .self _ (.prioSet thread prio) | .self _ (.inherit thread prio) =>
      system.PrioUndisturbed thread prio
  | .timeout _ | .self .. | .contextSwitch => True

instance (system : System) : (call : Call) → Decidable (call.OnOthers system)
  | .interrupt _ | .thread .. => inferInstanceAs (Decidable (_ ≠ _))
  | .timeout _ => inferInstanceAs (Decidable (_ ≠ _))
  | .self _ (.prioSet ..) | .self _ (.inherit ..) | .self _ (.pendDummy ..) =>
      inferInstanceAs (Decidable (_ ≠ _))
  | .self _ (.pend ..) | .self _ .yield | .self _ (.sleep _) | .self _ (.join ..)
  | .self _ .schedLock | .self _ .schedUnlock => .isFalse id
  | .contextSwitch => .isTrue trivial

instance (system : System) : (call : Call) → Decidable (call.Undisturbed system)
  | .interrupt operation | .thread _ operation =>
      inferInstanceAs (Decidable (operation.Undisturbed system))
  | .self _ (.prioSet thread prio) | .self _ (.inherit thread prio) =>
      inferInstanceAs (Decidable (system.PrioUndisturbed thread prio))
  | .timeout _ | .contextSwitch | .self _ (.pend ..) | .self _ (.pendDummy ..) | .self _ .yield
  | .self _ (.sleep _) | .self _ (.join ..) | .self _ .schedLock | .self _ .schedUnlock =>
      .isTrue trivial

/-- The current thread is guarded and chosen to run, and no switch is on its way. -/
structure System.RunsOn (system : System) (thread : Nat) : Prop where
  current : system.current = thread
  chosen : system.cache = thread
  noSwitch : system.swapPending = false
  guarded : system.Guarded

instance (system : System) (thread : Nat) : Decidable (system.RunsOn thread) :=
  decidable_of_iff
    (system.current = thread
      ∧ system.cache = thread
      ∧ system.swapPending = false
      ∧ (system.threads system.current).state.queued = true
      ∧ threadIsPreemptible (system.threads system.current) = false)
    ⟨fun ⟨current, chosen, noSwitch, queued, kept⟩ => ⟨current, chosen, noSwitch, queued, kept⟩,
      fun ⟨current, chosen, noSwitch, ⟨queued, kept⟩⟩ =>
        ⟨current, chosen, noSwitch, queued, kept⟩⟩

theorem Call.careful {state : System × List Nat} {call : Call} (guarded : state.1.Guarded)
    (undisturbed : call.Undisturbed state.1)
    : Careful state call := by
  have runs : state.1.CurrentFits := .inl (.inr guarded.queued)
  cases call with
  | interrupt operation => exact fun _ => runs
  | timeout thread => exact fun _ => runs
  | thread irqUnlocked operation => trivial
  | self irqUnlocked operation =>
      cases operation with
      | prioSet thread prio => exact fun ready => (undisturbed ready).1
      | inherit thread prio => exact fun ready => (undisturbed ready).1
      | _ => trivial
  | contextSwitch => trivial

theorem System.RunsOn.keeps (runsOn : system.RunsOn thread) (keeps : system.Keeps later)
    : later.RunsOn thread := by
  refine ⟨keeps.current.trans runsOn.current, keeps.chosen.trans runsOn.current,
    keeps.swapPending.trans runsOn.noSwitch, ?_, ?_⟩
  · rw [keeps.current, keeps.running]
    exact runsOn.guarded.queued
  · rw [keeps.current, keeps.running]
    exact runsOn.guarded.kept

theorem System.RunsOn.interruptExit (runsOn : system.RunsOn thread)
    : (interruptExit system).RunsOn thread :=
  ⟨runsOn.current, runsOn.chosen, by
    simp [Sched.interruptExit, runsOn.noSwitch, runsOn.chosen, runsOn.current],
    runsOn.guarded.queued, runsOn.guarded.kept⟩

theorem System.RunsOn.step {call : Call} (runsOn : system.RunsOn thread)
    (queues : system.Queues loose) (others : call.OnOthers system)
    (undisturbed : call.Undisturbed system) (stepped : step system call = some later)
    : later.RunsOn thread := by
  have steady : system.Steady loose :=
    ⟨runsOn.guarded, queues, runsOn.chosen.trans runsOn.current.symm⟩
  cases call with
  | interrupt operation =>
      simp only [Sched.step] at stepped
      split at stepped
      · cases stepped
      · rename_i notIdle
        obtain ⟨performed, result, rfl⟩ := Option.map_eq_some_iff.mp stepped
        exact (runsOn.keeps (steady.perform notIdle others undisturbed result)).interruptExit
  | timeout found =>
      simp only [Sched.step] at stepped
      split at stepped
      · rename_i active
        cases stepped
        exact (runsOn.keeps (steady.timeout others active.1)).interruptExit
      · cases stepped
  | thread irqUnlocked operation =>
      simp only [Sched.step] at stepped
      split at stepped
      · rename_i may
        exact runsOn.keeps (steady.perform may.2 others undisturbed stepped)
      · cases stepped
  | self irqUnlocked operation =>
      simp only [Sched.step] at stepped
      split at stepped
      · cases operation with
        | prioSet found prio =>
            simp only [performSelf] at stepped
            split at stepped
            · cases stepped
            · cases stepped
              exact runsOn.keeps (steady.prioritySet others undisturbed)
        | inherit found prio =>
            simp only [performSelf] at stepped
            split at stepped
            · cases stepped
            · cases stepped
              exact runsOn.keeps (steady.prioSet others undisturbed)
        | pendDummy found waitQ timeout =>
            simp only [performSelf] at stepped
            split at stepped
            · rename_i dummy
              cases stepped
              exact runsOn.keeps
                (steady.pendDummy ⟨dummy.1, dummy.2.2.1, dummy.2.2.2⟩ others)
            · cases stepped
        | _ => exact others.elim
      · cases stepped
  | contextSwitch => simp [Sched.step, runsOn.noSwitch] at stepped

/-! ### Whole runs -/

/-- From every reachable state in which the running thread is cooperative or holds the scheduler
lock, is ready and is chosen to run next, every run of calls on other threads that meet the
condition leaves it running, chosen to run next, and with no switch on its way.
-/
theorem guarded_thread_runs_on {prio : Nat → Int} {dummy essential : Nat → Bool}
    {earlier calls : List Call} {state final : System × List Nat}
    (careful : RunMeets recordedStep Careful (recordedStart prio dummy essential) earlier)
    (reached : run recordedStep (recordedStart prio dummy essential) earlier = some state)
    (runsOn : state.1.RunsOn thread)
    (meets
      : RunMeets recordedStep
          (fun state call => call.OnOthers state.1 ∧ call.Undisturbed state.1) state calls)
    (ran : run recordedStep state calls = some final)
    : final.1.RunsOn thread := by
  have sound := run_invariant_of_meets Sound
    (fun before condition stepped => before.step condition stepped)
    (Sound.initial prio dummy essential) careful reached
  refine (run_invariant_of_meets
    (fun found => Sound found ∧ found.1.RunsOn thread) ?_ ⟨sound, runsOn⟩ meets ran).2
  rintro before call next ⟨sound, runsOn⟩ ⟨others, undisturbed⟩ stepped
  refine ⟨sound.step (call.careful runsOn.guarded undisturbed) stepped, ?_⟩
  obtain ⟨later, moved, rfl⟩ := Option.map_eq_some_iff.mp stepped
  have kept := runsOn.step sound.queues others undisturbed moved
  cases call <;> exact kept

/-- Thread 1 is cooperative and starts threads 2 and 3, makes 3 more urgent and aborts 2; an
interrupt aborts 3.
-/
theorem guarded_thread_runs_on_aborting
    : ∃ state final,
        run recordedStep (recordedStart oneCooperative (fun _ => false) (fun _ => false))
            [.interrupt (.start 1), .contextSwitch]
          = some state
        ∧ run recordedStep state
            [.thread true (.start 2), .thread true (.start 3), .self true (.prioSet 3 1),
              .thread true (.abort 2), .interrupt (.abort 3)]
          = some final
        ∧ final.1.RunsOn 1 := by
  have careful : RunMeets recordedStep Careful
      (recordedStart oneCooperative (fun _ => false) (fun _ => false))
      [.interrupt (.start 1), .contextSwitch] := by decide
  obtain ⟨state, reached⟩ : ∃ state, run recordedStep
      (recordedStart oneCooperative (fun _ => false) (fun _ => false))
      [.interrupt (.start 1), .contextSwitch] = some state := ⟨_, rfl⟩
  have facts : ∀ state ∈ run recordedStep
      (recordedStart oneCooperative (fun _ => false) (fun _ => false))
      [.interrupt (.start 1), .contextSwitch],
        state.1.RunsOn 1
        ∧ RunMeets recordedStep
            (fun state call => call.OnOthers state.1 ∧ call.Undisturbed state.1) state
            [.thread true (.start 2), .thread true (.start 3), .self true (.prioSet 3 1),
              .thread true (.abort 2), .interrupt (.abort 3)]
        ∧ (run recordedStep state
            [.thread true (.start 2), .thread true (.start 3), .self true (.prioSet 3 1),
              .thread true (.abort 2), .interrupt (.abort 3)]).isSome := by decide
  obtain ⟨runsOn, meets, runs⟩ := facts state reached
  obtain ⟨final, ran⟩ := Option.isSome_iff_exists.mp runs
  exact ⟨state, final, reached, ran, guarded_thread_runs_on careful reached runsOn meets ran⟩

/-- Thread 1 is cooperative and runs, 2 is more urgent and ready. A new priority for thread 3,
which is less urgent than both before and after, switches to thread 2.
-/
theorem priority_change_preempts_cooperative
    : ∃ state final,
        run recordedStep
            (recordedStart (fun thread => if thread < 3 then -thread else thread)
              (fun _ => false) (fun _ => false))
            [.interrupt (.start 1), .contextSwitch, .thread true (.start 2),
              .thread true (.start 3)]
          = some state
        ∧ run recordedStep state [.self true (.prioSet 3 4), .contextSwitch] = some final
        ∧ state.1.RunsOn 1
        ∧ final.1.current = 2
        ∧ zIsThreadReady (final.1.threads 1) = true
        ∧ threadIsPreemptible (final.1.threads 1) = false :=
  ⟨_, _, rfl, rfl, by decide, by decide, by decide, by decide⟩

end Zephyr.Kernel.Sched
