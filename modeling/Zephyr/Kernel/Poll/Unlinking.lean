import Mathlib
import Zephyr.Kernel.Poll.Waking

/-! A thread that has returned from `k_poll` has left nothing behind: none of its events is in the
list of an object and none refers to its poller.
-/

namespace Zephyr.Kernel.Poll

open Zephyr.Library

variable {system next : System} {thread : Nat}

/-- Only registered events refer to the poller, and all of them do until one is signalled. -/
structure Poller.Referring (poller : Poller) : Prop where
  registered : ∀ i, poller.refers i = true → i < poller.phase.registered
  waiting : poller.Waits → ∀ i < poller.phase.registered, poller.refers i = true

namespace Poller.Referring

variable {poller : Poller}

theorem of_fewer (referring : poller.Referring) {other : Poller}
    (fewer : ∀ i, other.refers i = true → poller.refers i = true)
    (bound : other.phase.registered = poller.phase.registered) (released : ¬other.Waits)
    : other.Referring := by
  refine ⟨fun i refers => ?_, fun waits => absurd waits released⟩
  rw [bound]
  exact referring.registered i (fewer i refers)

theorem of_same (referring : poller.Referring) {other : Poller}
    (same : other.refers = poller.refers)
    (bound : other.phase.registered = poller.phase.registered)
    (waits : other.Waits → poller.Waits)
    : other.Referring := by
  refine ⟨fun i refers => ?_, fun stillWaits i below => ?_⟩
  · rw [bound]
    exact referring.registered i (same ▸ refers)
  · rw [bound] at below
    rw [same]
    exact referring.waiting (waits stillWaits) i below

theorem of_clearing (referring : poller.Referring) {left : Nat} (rc : Int)
    (bound : poller.phase.registered = left + 1)
    : Poller.Referring
        { poller with
          refers := Function.update poller.refers left false
          phase := .clearing left rc } := by
  refine ⟨fun i refers => ?_, fun waits => waits.elim⟩
  dsimp only at refers
  by_cases isLeft : i = left
  · rw [isLeft, Function.update_self] at refers
    cases refers
  · rw [Function.update_of_ne isLeft] at refers
    have below := referring.registered i refers
    change i < left
    omega

end Poller.Referring

theorem update_false_le {refers : Nat → Bool} {index i : Nat}
    (still : Function.update refers index false i = true)
    : refers i = true := by
  by_cases same : i = index
  · rw [same, Function.update_self] at still
    cases still
  · rwa [Function.update_of_ne same] at still

def System.Referring (system : System) : Prop :=
  ∀ thread, (system.poller thread).Referring

namespace System.Referring

theorem setPoller (referring : system.Referring) {change : Poller → Poller}
    (changed : (change (system.poller thread)).Referring)
    : (system.setPoller thread change).Referring := by
  intro other
  rw [poller_setPoller]
  split
  · exact changed
  · exact referring other

theorem registerTurn (referring : system.Referring) (registered : Registered system)
    {ii eventsRegistered : Nat} {justCheck : Bool} {event : Option Obj}
    (phase : (system.poller thread).phase = .registering ii eventsRegistered justCheck)
    : (registerTurn system thread ii eventsRegistered justCheck event).Referring := by
  have its := referring thread
  have count : (system.poller thread).phase.registered = eventsRegistered := by
    rw [phase]
    rfl
  unfold Poll.registerTurn
  split
  · refine referring.setPoller (its.of_fewer ?_ count.symm (fun waits => by cases waits))
    exact fun i still => update_false_le still
  split
  · rename_i polls
    rw [Bool.and_eq_true, Bool.not_eq_true'] at polls
    obtain ⟨rfl, polling⟩ := polls
    -- Every event so far was registered, so this one is next.
    obtain rfl := (registered.consistent thread).polling phase polling
    have sameSystem : (registerEvent system thread eventsRegistered event).Referring := by
      unfold registerEvent
      split
      · exact referring
      · exact referring
    have samePoller : (registerEvent system thread eventsRegistered event).poller
        = system.poller := by
      unfold registerEvent
      split
      · rfl
      · rfl
    refine sameSystem.setPoller ?_
    rw [samePoller]
    refine ⟨fun i refers => ?_, fun waits i below => ?_⟩
    · dsimp only at refers
      change i < eventsRegistered + 1
      by_cases same : i = eventsRegistered
      · omega
      · rw [Function.update_of_ne same] at refers
        have below := its.registered i refers
        omega
    · change i < eventsRegistered + 1 at below
      dsimp only
      by_cases same : i = eventsRegistered
      · rw [same, Function.update_self]
      · rw [Function.update_of_ne same]
        refine its.waiting ?_ i (by omega)
        rw [Poller.Waits, phase]
        exact polling
  · refine referring.setPoller (its.of_same rfl count.symm fun waits => ?_)
    rw [Poller.Waits, phase]
    exact waits

theorem clearTurn (referring : system.Referring) {left : Nat} (rc : Int)
    (bound : (system.poller thread).phase.registered = left)
    : (clearTurn system thread left rc).Referring := by
  cases left with
  | zero =>
      unfold Poll.clearTurn
      refine referring.setPoller ((referring thread).of_same rfl bound.symm fun waits => ?_)
      exact waits.elim
  | succ left =>
      have pollers : (clearEventRegistration system thread left).poller = system.poller := by
        unfold clearEventRegistration
        split <;> rfl
      unfold Poll.clearTurn
      intro other
      rw [poller_setPoller, pollers]
      split
      · exact (referring thread).of_clearing rc bound
      · exact referring other

theorem pendOrClear (referring : system.Referring) (registered : Registered system)
    {ii eventsRegistered : Nat} {justCheck : Bool}
    (phase : (system.poller thread).phase = .registering ii eventsRegistered justCheck)
    : (pendOrClear system thread eventsRegistered justCheck).Referring := by
  have count : (system.poller thread).phase.registered = eventsRegistered := by
    rw [phase]
    rfl
  unfold Poll.pendOrClear
  split
  · exact referring.clearTurn 0 count
  · rename_i polls
    rw [Bool.not_eq_true', Bool.not_eq_false] at polls
    refine referring.setPoller ((referring thread).of_same rfl ?_ fun _ => ?_)
    · cases justCheck with
      | true =>
          rw [count, (registered.consistent thread).checking phase]
          rfl
      | false => exact count.symm
    · rw [Poller.Waits, phase]
      exact polls

theorem zHandleObjPollEvents (referring : system.Referring) (registered : Registered system)
    (obj : Obj) (state : UInt32)
    : (zHandleObjPollEvents system obj state).Referring := by
  unfold Poll.zHandleObjPollEvents
  split
  · exact referring
  · rename_i event rest listed
    have popped : (system.setPollEvents obj rest).Referring := referring
    obtain ⟨_, _, bound, released⟩ :=
      Registered.signalPoller_spec (registered.consistent event.1) event.2 state
    have same : (signalPoller (system.poller event.1) state).refers
        = (system.poller event.1).refers := by
      unfold signalPoller
      split
      · rfl
      · rfl
    refine popped.setPoller ((referring event.1).of_fewer ?_ bound released)
    intro i still
    have before := update_false_le still
    rw [← same]
    exact before

theorem step {call : Call} (referring : system.Referring) (registered : Registered system)
    (stepped : step system call = some next)
    : next.Referring := by
  cases call with
  | poll thread events state noWait =>
      simp only [Poll.step] at stepped
      split at stepped
      · rw [← Option.some.inj stepped]
        refine referring.setPoller ⟨fun i refers => ?_, fun _ i below => ?_⟩
        · cases refers
        · exact absurd below (Nat.not_lt_zero i)
      · cases stepped
  | register thread =>
      simp only [Poll.step] at stepped
      split at stepped
      · obtain ⟨event, _, rfl⟩ := Option.map_eq_some_iff.mp stepped
        exact referring.registerTurn registered ‹_›
      · cases stepped
  | pend thread =>
      simp only [Poll.step] at stepped
      split at stepped
      · rename_i phase
        obtain ⟨_, isNext⟩ := Option.ite_none_right_eq_some.mp stepped
        rw [← Option.some.inj isNext]
        exact referring.pendOrClear registered phase
      · cases stepped
  | clear thread =>
      simp only [Poll.step] at stepped
      split at stepped
      · rename_i phase
        rw [← Option.some.inj stepped]
        exact referring.clearTurn _ (by rw [phase]; rfl)
      · cases stepped
  | timeout thread =>
      simp only [Poll.step] at stepped
      split at stepped
      · rename_i phase
        rw [← Option.some.inj stepped]
        refine referring.setPoller ((referring thread).of_same rfl ?_ fun waits => waits.elim)
        rw [phase]
        rfl
      · cases stepped
  | fulfil obj =>
      rw [← Option.some.inj stepped]
      have same : System.Referring
          { system with condition := Function.update system.condition obj true } := referring
      exact same.zHandleObjPollEvents (registered.setCondition _) obj _
  | consume obj =>
      rw [← Option.some.inj stepped]
      exact referring
  | notify obj state =>
      rw [← Option.some.inj stepped]
      exact referring.zHandleObjPollEvents registered obj state

theorem initial (prio : Nat → Int) : System.Referring { prio := prio } := by
  refine fun thread => ⟨fun i refers => ?_, fun waits => ?_⟩
  · cases refers
  · exact waits.elim

end System.Referring

/-- In every interleaving, a thread that is not in `k_poll` has no event in the list of an object
and none that refers to its poller; and until it is signalled or its wait is over, a thread has
exactly the events in front of some place registered, those of `K_POLL_TYPE_IGNORE` in no list.
-/
theorem poller_left_unreferenced (prio : Nat → Int) (calls : List Call) (system : System)
    (reached : run step { prio := prio } calls = some system) (thread : Nat)
    : (∀ rc,
        (system.poller thread).phase = .away rc
        → (∀ obj i, (thread, i) ∉ system.pollEvents obj)
          ∧ ∀ i, (system.poller thread).refers i = false)
      ∧ ((system.poller thread).Waits
        → ∃ count,
            (∀ obj i,
              (thread, i) ∈ system.pollEvents obj
              ↔ i < count ∧ (system.poller thread).events[i]? = some (some obj))
            ∧ ∀ i, (system.poller thread).refers i = true ↔ i < count) := by
  obtain ⟨registered, referring⟩ : Registered system ∧ system.Referring := by
    refine run_invariant (fun system => Registered system ∧ system.Referring) ?_
      ⟨.initial prio, .initial prio⟩ reached
    intro system call next both stepped
    exact ⟨both.1.step stepped, both.2.step both.1 stepped⟩
  constructor
  · intro rc away
    have none : (system.poller thread).phase.registered = 0 := by
      rw [away]
      rfl
    refine ⟨fun obj i member => ?_, fun i => ?_⟩
    · have below := (registered.own member).2
      omega
    · refine Bool.eq_false_iff.mpr fun refers => ?_
      have below := (referring thread).registered i refers
      omega
  · intro waits
    refine ⟨(system.poller thread).phase.registered, fun obj i => ?_, fun i => ?_⟩
    · constructor
      · intro member
        have owned := registered.own member
        exact ⟨owned.2, owned.1⟩
      · intro isEvent
        exact registered.linked waits isEvent.1 isEvent.2
    · exact ⟨(referring thread).registered i, (referring thread).waiting waits i⟩

/-- A thread polls two signals; the second is raised while it is pended, and it clears both
registrations.
-/
def pollBoth : List Call :=
  [.poll 1 [some ⟨.signal, 0⟩, some ⟨.signal, 1⟩] (fun _ => 0) false, .register 1, .register 1,
    .pend 1, .fulfil ⟨.signal, 1⟩, .clear 1, .clear 1, .clear 1]

theorem pollBoth_unreferenced
    : ∃ system,
        run step { prio := fun _ => 0 } pollBoth = some system
        ∧ (system.poller 1).phase = .away 0
        ∧ ∀ obj i, (1, i) ∉ system.pollEvents obj := by
  have facts : ∀ system ∈ run step { prio := fun _ => 0 } pollBoth,
      (system.poller 1).phase = .away 0 := by
    decide +kernel
  obtain ⟨system, reached⟩ : ∃ system, run step { prio := fun _ => 0 } pollBoth = some system :=
    Option.isSome_iff_exists.mp (by decide +kernel)
  have away := facts system reached
  have both := (poller_left_unreferenced _ pollBoth system reached 1).1 0 away
  exact ⟨system, reached, away, both.1⟩

end Zephyr.Kernel.Poll
