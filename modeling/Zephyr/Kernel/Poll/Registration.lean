import Zephyr.Kernel.Poll.Model

/-! Which events are registered: all events of a thread that is pended, and no event of a thread
that has returned from `k_poll`.
-/

namespace Zephyr.Kernel.Poll

/-- Registered events of a thread have an index below this. -/
def Phase.registered : Phase → Nat
  | .away _ => 0
  | .registering _ eventsRegistered _ => eventsRegistered
  | .pended eventsRegistered => eventsRegistered
  | .clearing left _ => left

/-- No event of the thread has been signalled yet. -/
def Poller.Waits (poller : Poller) : Prop :=
  match poller.phase with
  | .pended _ => True
  | .registering _ _ _ => poller.isPolling = true
  | _ => False

/-- A thread that polls has registered all events so far, one that only checks has registered
none, and one that is pended has registered all.
-/
structure Poller.Consistent (poller : Poller) : Prop where
  polling
  : ∀ {ii eventsRegistered},
      poller.phase = .registering ii eventsRegistered false
      → poller.isPolling = true
      → eventsRegistered = ii
  checking
  : ∀ {ii eventsRegistered},
      poller.phase = .registering ii eventsRegistered true → eventsRegistered = 0
  pended
  : ∀ {eventsRegistered},
      poller.phase = .pended eventsRegistered → eventsRegistered = poller.events.length

namespace Poller.Consistent

variable {poller : Poller}

theorem of_registering {ii eventsRegistered : Nat} {justCheck : Bool}
    (phase : poller.phase = .registering ii eventsRegistered justCheck)
    (polling : justCheck = false → poller.isPolling = true → eventsRegistered = ii)
    (checking : justCheck = true → eventsRegistered = 0)
    : poller.Consistent := by
  refine ⟨?_, ?_, ?_⟩
  · intro ii eventsRegistered same
    obtain ⟨rfl, rfl, rfl⟩ := Phase.registering.inj (phase.symm.trans same)
    exact polling rfl
  · intro ii eventsRegistered same
    obtain ⟨rfl, rfl, rfl⟩ := Phase.registering.inj (phase.symm.trans same)
    exact checking rfl
  · intro eventsRegistered same
    cases phase.symm.trans same

theorem of_pended {eventsRegistered : Nat} (phase : poller.phase = .pended eventsRegistered)
    (all : eventsRegistered = poller.events.length)
    : poller.Consistent := by
  refine ⟨?_, ?_, ?_⟩
  · intro ii other same
    cases phase.symm.trans same
  · intro ii other same
    cases phase.symm.trans same
  · intro other same
    obtain rfl := Phase.pended.inj (phase.symm.trans same)
    exact all

theorem of_clearing {left : Nat} {rc : Int} (phase : poller.phase = .clearing left rc)
    : poller.Consistent := by
  refine ⟨?_, ?_, ?_⟩ <;> intros <;> simp_all

theorem of_away {rc : Int} (phase : poller.phase = .away rc) : poller.Consistent := by
  refine ⟨?_, ?_, ?_⟩ <;> intros <;> simp_all

end Poller.Consistent

structure Registered (system : System) : Prop where
  consistent : ∀ thread, (system.poller thread).Consistent
  once : ∀ obj, (system.pollEvents obj).Nodup
  own
  : ∀ {obj thread i},
      (thread, i) ∈ system.pollEvents obj
      → (system.poller thread).events[i]? = some (some obj)
        ∧ i < (system.poller thread).phase.registered
  linked
  : ∀ {obj thread i},
      (system.poller thread).Waits
      → i < (system.poller thread).phase.registered
      → (system.poller thread).events[i]? = some (some obj)
      → (thread, i) ∈ system.pollEvents obj

variable {system : System} {thread : Nat}

theorem poller_setPoller (system : System) (thread : Nat) (change : Poller → Poller) (other : Nat)
    : (system.setPoller thread change).poller other
      = if other = thread then change (system.poller thread) else system.poller other := by
  by_cases same : other = thread <;> simp [System.setPoller, same]

theorem pollEvents_setPollEvents (system : System) (obj : Obj) (events : List (Nat × Nat))
    (other : Obj)
    : (system.setPollEvents obj events).pollEvents other
      = if other = obj then events else system.pollEvents other := by
  by_cases same : other = obj <;> simp [System.setPollEvents, same]

theorem insertEvent_perm (prio : Nat → Int) (event : Nat × Nat) (events : List (Nat × Nat))
    : (insertEvent prio event events).Perm (event :: events) := by
  induction events with
  | nil => exact .refl _
  | cons pending rest ih =>
      unfold insertEvent
      split
      · exact .refl _
      · exact (ih.cons pending).trans (.swap ..)

theorem addEvent_perm (prio : Nat → Int) (events : List (Nat × Nat)) (event : Nat × Nat)
    : (addEvent prio events event).Perm (event :: events) := by
  unfold addEvent
  split
  · exact List.perm_append_singleton ..
  · split
    · exact List.perm_append_singleton ..
    · exact insertEvent_perm ..

namespace Registered

theorem setPoller (registered : Registered system) {change : Poller → Poller}
    (consistent : (change (system.poller thread)).Consistent)
    (events : (change (system.poller thread)).events = (system.poller thread).events)
    (bound
      : (change (system.poller thread)).phase.registered
        = (system.poller thread).phase.registered)
    (waits : (change (system.poller thread)).Waits → (system.poller thread).Waits)
    : Registered (system.setPoller thread change) := by
  refine ⟨?_, registered.once, ?_, ?_⟩
  · intro other
    rw [poller_setPoller]
    split
    · exact consistent
    · exact registered.consistent other
  · intro obj other i member
    rw [poller_setPoller]
    have owned := registered.own member
    split
    · rename_i same
      subst same
      rw [events, bound]
      exact owned
    · exact owned
  · intro obj other i
    rw [poller_setPoller]
    split
    · rename_i same
      subst same
      rw [events, bound]
      exact fun stillWaits => registered.linked (waits stillWaits)
    · exact registered.linked

theorem poll (registered : Registered system) {rc : Int} {change : Poller → Poller} {noWait : Bool}
    (away : (system.poller thread).phase = .away rc)
    (starts : (change (system.poller thread)).phase = .registering 0 0 noWait)
    : Registered (system.setPoller thread change) := by
  refine ⟨?_, registered.once, ?_, ?_⟩
  · intro other
    rw [poller_setPoller]
    split
    · exact .of_registering starts (fun _ _ => rfl) (fun _ => rfl)
    · exact registered.consistent other
  · intro obj other i member
    rw [poller_setPoller]
    have owned := registered.own member
    split
    · rename_i same
      subst same
      rw [away] at owned
      exact absurd owned.2 (Nat.not_lt_zero i)
    · exact owned
  · intro obj other i
    rw [poller_setPoller]
    split
    · rw [starts]
      exact fun _ below => absurd below (Nat.not_lt_zero i)
    · exact registered.linked

theorem register (registered : Registered system) {ii : Nat} {event : Option Obj}
    (polling : (system.poller thread).isPolling = true)
    (phase : (system.poller thread).phase = .registering ii ii false)
    (isEvent : (system.poller thread).events[ii]? = some event)
    : Registered
        ((registerEvent system thread ii event).setPoller thread (fun poller =>
          { poller with
            refers := Function.update poller.refers ii true
            phase := .registering (ii + 1) (ii + 1) false })) := by
  have pollers : (registerEvent system thread ii event).poller = system.poller := by
    cases event <;> rfl
  have fresh : ∀ obj, (thread, ii) ∉ system.pollEvents obj := by
    intro obj member
    have below := (registered.own member).2
    rw [phase] at below
    exact Nat.lt_irrefl ii below
  have listed (obj : Obj)
      : ((registerEvent system thread ii event).pollEvents obj).Perm
          (if event = some obj then (thread, ii) :: system.pollEvents obj
            else system.pollEvents obj) := by
    cases event with
    | none => exact .refl _
    | some target =>
        rw [registerEvent, pollEvents_setPollEvents]
        by_cases same : obj = target
        · subst same
          rw [if_pos rfl, if_pos rfl]
          exact addEvent_perm ..
        · rw [if_neg same, if_neg (fun isTarget => same (Option.some.inj isTarget).symm)]
  have waits : (system.poller thread).Waits := by
    rw [Poller.Waits, phase]
    exact polling
  refine ⟨?_, ?_, ?_, ?_⟩
  · intro other
    rw [poller_setPoller, pollers]
    split
    · exact .of_registering rfl (fun _ _ => rfl) (fun checks => by cases checks)
    · exact registered.consistent other
  · intro obj
    refine (listed obj).nodup_iff.mpr ?_
    split
    · exact List.nodup_cons.mpr ⟨fresh obj, registered.once obj⟩
    · exact registered.once obj
  · intro obj other i member
    have place : (other, i) ∈ system.pollEvents obj
        ∨ event = some obj ∧ other = thread ∧ i = ii := by
      have among := (listed obj).mem_iff.mp member
      split at among
      · rcases List.mem_cons.mp among with isNew | earlier
        · exact .inr ⟨‹_›, (Prod.mk.inj isNew).1, (Prod.mk.inj isNew).2⟩
        · exact .inl earlier
      · exact .inl among
    rw [poller_setPoller, pollers]
    rcases place with earlier | ⟨rfl, rfl, rfl⟩
    · have owned := registered.own earlier
      split
      · rename_i same
        subst same
        rw [phase] at owned
        exact ⟨owned.1, Nat.lt_succ_of_lt owned.2⟩
      · exact owned
    · rw [if_pos rfl]
      exact ⟨isEvent, Nat.lt_succ_self _⟩
  · intro obj other i
    rw [poller_setPoller, pollers]
    intro stillWaits below isObj
    refine (listed obj).mem_iff.mpr ?_
    split at isObj
    · rename_i same
      subst same
      rw [if_pos rfl] at below
      change i < ii + 1 at below
      rcases Nat.lt_succ_iff_lt_or_eq.mp below with earlier | rfl
      · have member := registered.linked waits (by rw [phase]; exact earlier) isObj
        split
        · exact List.mem_cons_of_mem _ member
        · exact member
      · have isTarget : event = some obj := Option.some.inj (isEvent.symm.trans isObj)
        rw [if_pos isTarget]
        exact List.mem_cons_self
    · rename_i different
      rw [if_neg different] at below stillWaits
      have member := registered.linked stillWaits below isObj
      split
      · exact List.mem_cons_of_mem _ member
      · exact member

/-- A thread returns from `k_poll` with no event registered. -/
theorem leave (registered : Registered system) {rc : Int} {change : Poller → Poller}
    (none : (system.poller thread).phase.registered = 0)
    (leaves : (change (system.poller thread)).phase = .away rc)
    (events : (change (system.poller thread)).events = (system.poller thread).events)
    : Registered (system.setPoller thread change) := by
  refine registered.setPoller (.of_away leaves) events ?_ ?_
  · rw [leaves, none]
    rfl
  · rw [Poller.Waits, leaves]
    exact False.elim

theorem clear (registered : Registered system) {left : Nat} (rc : Int)
    (bound : (system.poller thread).phase.registered = left + 1)
    : Registered
        ((clearEventRegistration system thread left).setPoller thread (fun poller =>
          { poller with
            refers := Function.update poller.refers left false
            phase := .clearing left rc })) := by
  have pollers : (clearEventRegistration system thread left).poller = system.poller := by
    unfold clearEventRegistration
    split <;> rfl
  have listed (obj : Obj)
      : (clearEventRegistration system thread left).pollEvents obj
        = (system.pollEvents obj).erase (thread, left) := by
    have absent (notHere : (system.poller thread).events[left]? ≠ some (some obj))
        : system.pollEvents obj = (system.pollEvents obj).erase (thread, left) :=
      (List.erase_of_not_mem (fun member => notHere (registered.own member).1)).symm
    unfold clearEventRegistration
    split
    · rename_i target isTarget
      rw [pollEvents_setPollEvents]
      split
      · rename_i same
        rw [same]
      · rename_i different
        refine absent ?_
        rw [isTarget]
        exact fun same => different (Option.some.inj (Option.some.inj same)).symm
    · rename_i noTarget
      exact absent (noTarget obj)
  refine ⟨?_, ?_, ?_, ?_⟩
  · intro other
    rw [poller_setPoller, pollers]
    split
    · exact .of_clearing rfl
    · exact registered.consistent other
  · intro obj
    change ((clearEventRegistration system thread left).pollEvents obj).Nodup
    rw [listed]
    exact (registered.once obj).erase _
  · intro obj other i member
    change (other, i) ∈ (clearEventRegistration system thread left).pollEvents obj at member
    rw [listed, (registered.once obj).mem_erase_iff] at member
    obtain ⟨notCleared, member⟩ := member
    have owned := registered.own member
    rw [poller_setPoller, pollers]
    split
    · rename_i same
      subst same
      refine ⟨owned.1, ?_⟩
      have notLeft : i ≠ left := fun isLeft => notCleared (congrArg _ isLeft)
      rw [bound] at owned
      change i < left
      omega
    · exact owned
  · intro obj other i
    change _ → _ → _ → (other, i) ∈ (clearEventRegistration system thread left).pollEvents obj
    rw [poller_setPoller, pollers, listed, (registered.once obj).mem_erase_iff]
    split
    · exact fun waits => waits.elim
    · rename_i different
      intro waits below isObj
      exact ⟨fun same => different (Prod.mk.inj same).1, registered.linked waits below isObj⟩

theorem clearTurn (registered : Registered system) {left : Nat} (rc : Int)
    (bound : (system.poller thread).phase.registered = left)
    : Registered (clearTurn system thread left rc) := by
  cases left with
  | zero =>
      unfold Poll.clearTurn
      exact registered.leave bound rfl rfl
  | succ left => exact registered.clear rc bound

theorem signalPoller_spec {poller : Poller} (consistent : poller.Consistent) (index : Nat)
    (state : UInt32)
    : (setEventReady { signalPoller poller state with isPolling := false } index state).Consistent
      ∧ (signalPoller poller state).events = poller.events
      ∧ (signalPoller poller state).phase.registered = poller.phase.registered
      ∧ ¬(setEventReady { signalPoller poller state with isPolling := false } index state).Waits := by
  obtain ⟨events, states, refers, isPolling, phase⟩ := poller
  cases phase with
  | away rc => exact ⟨.of_away rfl, rfl, rfl, fun waits => waits⟩
  | registering ii eventsRegistered justCheck =>
      refine ⟨.of_registering rfl (fun _ polls => by cases polls) ?_, rfl, rfl, ?_⟩
      · rintro rfl
        exact consistent.checking rfl
      · exact fun waits => by cases waits
  | pended eventsRegistered => exact ⟨.of_clearing rfl, rfl, rfl, fun waits => waits⟩
  | clearing left rc => exact ⟨.of_clearing rfl, rfl, rfl, fun waits => waits⟩

theorem pop (registered : Registered system) {obj : Obj} {event : Nat × Nat}
    {rest : List (Nat × Nat)} (listed : system.pollEvents obj = event :: rest) (state : UInt32)
    : Registered (signalPollEvent (system.setPollEvents obj rest) event state) := by
  obtain ⟨consistent, events, bound, notWaits⟩ :=
    signalPoller_spec (registered.consistent event.1) event.2 state
  have remains (other : Obj) (entry : Nat × Nat)
      (member : entry ∈ (system.setPollEvents obj rest).pollEvents other)
      : entry ∈ system.pollEvents other := by
    rw [pollEvents_setPollEvents] at member
    split at member
    · rename_i same
      rw [same, listed]
      exact List.mem_cons_of_mem _ member
    · exact member
  refine ⟨?_, ?_, ?_, ?_⟩
  · intro other
    rw [signalPollEvent, poller_setPoller]
    split
    · exact consistent
    · exact registered.consistent other
  · intro other
    change ((system.setPollEvents obj rest).pollEvents other).Nodup
    rw [pollEvents_setPollEvents]
    split
    · exact (List.nodup_cons.mp (listed ▸ registered.once obj)).2
    · exact registered.once other
  · intro other thread i member
    have owned := registered.own (remains other (thread, i) member)
    rw [signalPollEvent, poller_setPoller]
    split
    · rename_i same
      subst same
      change (signalPoller (system.poller event.1) state).events[i]? = _
        ∧ i < (signalPoller (system.poller event.1) state).phase.registered
      rw [events, bound]
      exact owned
    · exact owned
  · intro other thread i
    rw [signalPollEvent, poller_setPoller]
    split
    · exact fun waits => absurd waits notWaits
    · rename_i different
      intro waits below isObj
      have member := registered.linked waits below isObj
      change (thread, i) ∈ (system.setPollEvents obj rest).pollEvents other
      rw [pollEvents_setPollEvents]
      split
      · rename_i same
        rw [same, listed] at member
        refine (List.mem_cons.mp member).resolve_left ?_
        rintro rfl
        exact different rfl
      · exact member

theorem zHandleObjPollEvents (registered : Registered system) (obj : Obj) (state : UInt32)
    : Registered (zHandleObjPollEvents system obj state) := by
  unfold Poll.zHandleObjPollEvents
  split
  · exact registered
  · exact registered.pop ‹_› state

theorem setCondition (registered : Registered system) (condition : Obj → Bool)
    : Registered { system with condition := condition } :=
  ⟨registered.consistent, registered.once, registered.own, registered.linked⟩

theorem registerTurn (registered : Registered system) {ii eventsRegistered : Nat}
    {justCheck : Bool} {event : Option Obj}
    (phase : (system.poller thread).phase = .registering ii eventsRegistered justCheck)
    (isEvent : (system.poller thread).events[ii]? = some event)
    : Registered (registerTurn system thread ii eventsRegistered justCheck event) := by
  have consistent := registered.consistent thread
  have checking : justCheck = true → eventsRegistered = 0 := by
    rintro rfl
    exact consistent.checking phase
  unfold Poll.registerTurn
  split
  · refine registered.setPoller
      (.of_registering rfl (fun _ polls => by cases polls) checking) rfl ?_ ?_
    · rw [phase]
      rfl
    · exact fun waits => by cases waits
  split
  · rename_i polls
    rw [Bool.and_eq_true, Bool.not_eq_true'] at polls
    obtain ⟨rfl, polling⟩ := polls
    obtain rfl := consistent.polling phase polling
    exact registered.register polling phase isEvent
  · rename_i skips
    refine registered.setPoller (.of_registering rfl ?_ checking) rfl ?_ ?_
    · rintro rfl polling
      exact absurd polling (by simpa using skips)
    · rw [phase]
      rfl
    · intro polls
      rw [Poller.Waits, phase]
      exact polls

theorem pendOrClear (registered : Registered system) {eventsRegistered : Nat} {justCheck : Bool}
    (phase
      : (system.poller thread).phase
        = .registering (system.poller thread).events.length eventsRegistered justCheck)
    : Registered (pendOrClear system thread eventsRegistered justCheck) := by
  have consistent := registered.consistent thread
  unfold Poll.pendOrClear
  split
  · exact registered.clearTurn 0 (by rw [phase]; rfl)
  · rename_i polls
    rw [Bool.not_eq_true', Bool.not_eq_false] at polls
    cases justCheck with
    | true =>
        refine registered.leave ?_ rfl rfl
        rw [phase]
        exact consistent.checking phase
    | false =>
        refine registered.setPoller (.of_pended rfl (consistent.polling phase polls)) rfl ?_ ?_
        · rw [phase]
          rfl
        · intro _
          rw [Poller.Waits, phase]
          exact polls

end Registered

end Zephyr.Kernel.Poll
