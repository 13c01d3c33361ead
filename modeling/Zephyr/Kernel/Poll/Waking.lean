import Zephyr.Library.Run
import Zephyr.Kernel.Poll.Registration

/-! When the condition of an object becomes true, a thread that is pended on the object is woken
exactly when the first event in the list of the object is one of a pended thread.
-/

namespace Zephyr.Kernel.Poll

open Zephyr.Library

variable {system next : System} {thread : Nat} {obj : Obj}

theorem Registered.step {call : Call} (registered : Registered system)
    (stepped : step system call = some next)
    : Registered next := by
  cases call with
  | poll thread events state noWait =>
      simp only [Poll.step] at stepped
      split at stepped
      · rw [← Option.some.inj stepped]
        exact registered.poll ‹_› rfl
      · cases stepped
  | register thread =>
      simp only [Poll.step] at stepped
      split at stepped
      · obtain ⟨event, isEvent, rfl⟩ := Option.map_eq_some_iff.mp stepped
        exact registered.registerTurn ‹_› isEvent
      · cases stepped
  | pend thread =>
      simp only [Poll.step] at stepped
      split at stepped
      · rename_i phase
        obtain ⟨rfl, isNext⟩ := Option.ite_none_right_eq_some.mp stepped
        rw [← Option.some.inj isNext]
        exact registered.pendOrClear phase
      · cases stepped
  | clear thread =>
      simp only [Poll.step] at stepped
      split at stepped
      · rename_i phase
        rw [← Option.some.inj stepped]
        exact registered.clearTurn _ (by rw [phase]; rfl)
      · cases stepped
  | timeout thread =>
      simp only [Poll.step] at stepped
      split at stepped
      · rename_i phase
        rw [← Option.some.inj stepped]
        refine registered.setPoller (.of_clearing rfl) rfl ?_ ?_
        · rw [phase]
          rfl
        · exact fun waits => waits.elim
      · cases stepped
  | fulfil obj =>
      rw [← Option.some.inj stepped]
      exact (registered.setCondition _).zHandleObjPollEvents obj _
  | consume obj =>
      rw [← Option.some.inj stepped]
      exact registered.setCondition _
  | notify obj state =>
      rw [← Option.some.inj stepped]
      exact registered.zHandleObjPollEvents obj state

theorem Registered.initial (prio : Nat → Int) : Registered { prio := prio } where
  consistent _ := .of_away rfl
  once _ := List.nodup_nil
  own member := by cases member
  linked waits := waits.elim

/-- The thread is pended in `k_poll` with an event for the object. -/
def System.PendedOn (system : System) (thread : Nat) (obj : Obj) : Prop :=
  (∃ eventsRegistered, (system.poller thread).phase = .pended eventsRegistered)
  ∧ some obj ∈ (system.poller thread).events

theorem Registered.pended_listed (registered : Registered system)
    (pended : system.PendedOn thread obj)
    : ∃ i, (thread, i) ∈ system.pollEvents obj := by
  obtain ⟨⟨eventsRegistered, phase⟩, isEvent⟩ := pended
  obtain ⟨i, place⟩ := List.mem_iff_getElem?.mp isEvent
  obtain ⟨below, -⟩ := List.getElem?_eq_some_iff.mp place
  refine ⟨i, registered.linked ?_ ?_ place⟩
  · rw [Poller.Waits, phase]
    trivial
  · rw [phase]
    have all := (registered.consistent thread).pended phase
    change i < eventsRegistered
    omega

theorem phase_fulfil {first : Nat × Nat} {rest : List (Nat × Nat)}
    (listed : system.pollEvents obj = first :: rest) (thread : Nat)
    : ((fulfil system obj).poller thread).phase
      = if thread = first.1 then (signalPoller (system.poller first.1) obj.kind.state).phase
        else (system.poller thread).phase := by
  have popped : fulfil system obj
      = signalPollEvent
          (System.setPollEvents
            { system with condition := Function.update system.condition obj true } obj rest)
          first obj.kind.state := by
    simp only [fulfil, zHandleObjPollEvents, listed]
  rw [popped, signalPollEvent, poller_setPoller]
  split
  · rfl
  · rfl

theorem state_ne_cancelled (kind : ObjKind) : kind.state ≠ kPollStateCancelled := by
  cases kind <;> decide

/-- In every interleaving, while a thread is pended in `k_poll` on an object, the object has a
first registered event. When the condition of the object becomes true, a thread that is pended on
the object is made ready exactly when the thread of this event is pended.
-/
theorem pended_poller_woken_iff (prio : Nat → Int) (calls : List Call) (system : System)
    (reached : run step { prio := prio } calls = some system) (obj : Obj) (thread : Nat)
    (pended : system.PendedOn thread obj)
    : ∃ first rest next,
        system.pollEvents obj = first :: rest
        ∧ step system (.fulfil obj) = some next
        ∧ ((∃ woken left,
              system.PendedOn woken obj ∧ (next.poller woken).phase = .clearing left 0)
            ↔ ∃ eventsRegistered,
                (system.poller first.1).phase = .pended eventsRegistered) := by
  have registered := run_invariant Registered Registered.step (.initial prio) reached
  obtain ⟨i, member⟩ := registered.pended_listed pended
  obtain ⟨first, rest, listed⟩ := List.exists_cons_of_ne_nil (List.ne_nil_of_mem member)
  refine ⟨first, rest, _, listed, rfl, ?_⟩
  constructor
  · rintro ⟨woken, left, ⟨⟨eventsRegistered, phase⟩, -⟩, goesOn⟩
    rw [phase_fulfil listed] at goesOn
    split at goesOn
    · rename_i isFirst
      exact ⟨eventsRegistered, isFirst ▸ phase⟩
    · cases phase.symm.trans goesOn
  · rintro ⟨eventsRegistered, phase⟩
    have owned := (registered.own (listed ▸ List.mem_cons_self : first ∈ _)).1
    refine ⟨first.1, eventsRegistered, ⟨⟨eventsRegistered, phase⟩, ?_⟩, ?_⟩
    · exact List.mem_of_getElem? owned
    · rw [phase_fulfil listed, if_pos rfl, signalPoller, phase]
      dsimp only
      rw [if_neg (state_ne_cancelled obj.kind)]

/-- A thread polls one signal until it is pended. -/
def pollSignal (thread : Nat) : List Call :=
  [.poll thread [some ⟨.signal, 0⟩] (fun _ => 0) false, .register thread, .pend thread]

/-- The thread with the smaller number has the higher priority. -/
def twoPolling : List Call :=
  pollSignal 2 ++ pollSignal 1

theorem twoPolling_woken
    : ∃ system next woken left,
        run step { prio := fun thread => thread } twoPolling = some system
        ∧ step system (.fulfil ⟨.signal, 0⟩) = some next
        ∧ system.PendedOn woken ⟨.signal, 0⟩
        ∧ (next.poller woken).phase = .clearing left 0 := by
  have facts : ∀ system ∈ run step { prio := fun thread => thread } twoPolling,
      (system.poller 1).phase = .pended 1
      ∧ (system.poller 1).events = [some ⟨.signal, 0⟩]
      ∧ system.pollEvents ⟨.signal, 0⟩ = [(1, 0), (2, 0)] := by
    decide +kernel
  obtain ⟨system, reached⟩ : ∃ system,
      run step { prio := fun thread => thread } twoPolling = some system :=
    Option.isSome_iff_exists.mp (by decide +kernel)
  obtain ⟨phase, events, listed⟩ := facts system reached
  have pended : system.PendedOn 1 ⟨.signal, 0⟩ := ⟨⟨1, phase⟩, by simp [events]⟩
  obtain ⟨first, rest, next, isList, stepped, iff⟩ :=
    pended_poller_woken_iff _ twoPolling system reached _ 1 pended
  obtain ⟨rfl, -⟩ := List.cons.inj (listed.symm.trans isList)
  obtain ⟨woken, left, isPended, goesOn⟩ := iff.mpr ⟨1, phase⟩
  exact ⟨system, next, woken, left, reached, stepped, isPended, goesOn⟩

/-- The first thread times out, and the signal is raised before the thread clears its
registration: the event of this thread takes the signal, and the second thread stays pended.
-/
theorem signal_lost_to_timed_out_poller
    : ∃ system next,
        run step { prio := fun thread => thread } (twoPolling ++ [.timeout 1]) = some system
        ∧ system.PendedOn 2 ⟨.signal, 0⟩
        ∧ step system (.fulfil ⟨.signal, 0⟩) = some next
        ∧ next.condition ⟨.signal, 0⟩ = true
        ∧ next.PendedOn 2 ⟨.signal, 0⟩
        ∧ ∀ thread, (next.poller thread).phase = (system.poller thread).phase := by
  have facts : ∀ system ∈ run step { prio := fun thread => thread }
      (twoPolling ++ [.timeout 1]),
      (system.poller 1).phase = .clearing 1 (-eagain)
      ∧ (system.poller 2).phase = .pended 1
      ∧ (system.poller 2).events = [some ⟨.signal, 0⟩]
      ∧ system.pollEvents ⟨.signal, 0⟩ = [(1, 0), (2, 0)]
      ∧ (fulfil system ⟨.signal, 0⟩).condition ⟨.signal, 0⟩ = true
      ∧ ((fulfil system ⟨.signal, 0⟩).poller 2).events = [some ⟨.signal, 0⟩] := by
    decide +kernel
  obtain ⟨system, reached⟩ : ∃ system,
      run step { prio := fun thread => thread } (twoPolling ++ [.timeout 1]) = some system :=
    Option.isSome_iff_exists.mp (by decide +kernel)
  obtain ⟨timedOut, phase, events, listed, met, nextEvents⟩ := facts system reached
  have same (thread : Nat)
      : ((fulfil system ⟨.signal, 0⟩).poller thread).phase = (system.poller thread).phase := by
    rw [phase_fulfil listed]
    split
    · rename_i isFirst
      rw [isFirst, signalPoller, timedOut]
      exact timedOut
    · rfl
  exact ⟨system, _, reached, ⟨⟨1, phase⟩, by simp [events]⟩, rfl, met,
    ⟨⟨1, (same 2).trans phase⟩, by simp [nextEvents]⟩, same⟩

end Zephyr.Kernel.Poll
