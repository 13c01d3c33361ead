import Zephyr.Kernel.Timeout.Periodic

/-! A periodic timer expires at its start plus its delay and a whole number of periods, as long as
its handler reads the tick that is being announced.
-/

namespace Zephyr.Kernel.Timeout

open Zephyr.Library

variable {clock : Clock Record Unit} {history : History Record} {timer : Nat}

/-! ### What the calls leave alone -/

@[simp]
theorem zAddTimeout_callback (clock : Clock Record Unit) (node : Record) (timeout : KTimeout)
    (hw : UInt32)
    : (clock.zAddTimeout node () timeout hw).callback = clock.callback := by
  simp only [Clock.zAddTimeout, Clock.program]
  split
  · rfl
  · split <;> rfl

@[simp]
theorem zAbortTimeout_callback (clock : Clock Record Unit) (node : Record)
    : (clock.zAbortTimeout node).1.callback = clock.callback := by
  rw [Clock.zAbortTimeout]
  split <;> rfl

theorem zAbortTimeout_elapsed (clock : Clock Record Unit) (node : Record) (hw : UInt32)
    : (clock.zAbortTimeout node).1.elapsed hw = clock.elapsed hw := by
  rw [Clock.zAbortTimeout]
  split <;> rfl

theorem Clock.firing_eq {before after : Clock Record Unit}
    (same : after.callback = before.callback)
    : after.firing = before.firing := by
  rw [Clock.firing, Clock.firing, same]

theorem Tracks.linked_iff (tracks : Tracks clock history) (node : Record)
    : clock.isLinked node ↔ ∃ arming ∈ history.pending, arming.node = node := by
  rw [isLinked_iff, tracks.nodes, List.mem_map]

theorem History.record_addTimeout (before after : Clock Record Unit) {node : Record}
    {timeout : KTimeout} {hw : UInt32} (finite : timeout ≠ kForever)
    : history.record before after (.addTimeout node () timeout hw)
      = history.arm node (history.now + (before.requestedTicks timeout hw).toInt) :=
  if_neg finite

theorem mem_pending_arm {node : Record} {expiry : Int} {arming : Arming Record}
    (other : arming.node ≠ node)
    : arming ∈ (history.arm node expiry).pending ↔ arming ∈ history.pending := by
  rw [History.arm, mem_stableInsert, or_iff_right]
  rintro rfl
  exact other rfl

theorem mem_pending_addTimeout (before after : Clock Record Unit) {node : Record}
    {timeout : KTimeout} {hw : UInt32} {arming : Arming Record} (other : arming.node ≠ node)
    : arming ∈ (history.record before after (.addTimeout node () timeout hw)).pending
      ↔ arming ∈ history.pending := by
  rw [History.record]
  split
  · rfl
  · exact mem_pending_arm other

theorem mem_pending_abort {node : Record} {arming : Arming Record} (other : arming.node ≠ node)
    : arming ∈ (history.abort node).pending ↔ arming ∈ history.pending := by
  simp [History.abort, other]

theorem now_addTimeout (before after : Clock Record Unit) {node : Record} {timeout : KTimeout}
    {hw : UInt32}
    : (history.record before after (.addTimeout node () timeout hw)).now = history.now := by
  rw [History.record]
  split <;> rfl

/-! ### A timer on its course -/

/-- The timer is pending for this tick, or the tick has come and its handler is to run. -/
def Awaited (state : Timed) (timer : Nat) (tick : Int) : Prop :=
  (∃ arming ∈ state.history.pending, arming.node = .timer timer ∧ arming.expiry = tick)
  ∨ state.system.handling = true
    ∧ state.system.clock.firing = some timer
    ∧ (∀ arming ∈ state.history.pending, arming.node ≠ .timer timer)
    ∧ state.history.now = tick

/-- The expirations so far are the first ones of the course, and the next one is awaited. -/
structure OnCourse (state : Timed) (timer : Nat) (course : Course) : Prop where
  periodic : 1 ≤ course.period
  period : (state.system.timers timer).period.ticks.toInt = course.period
  expired : course.expirations = (List.range course.expirations.length).map course.due
  awaited : Awaited state timer (course.due course.expirations.length)

structure Phased (timer : Nat) (state : Timed) : Prop where
  tracks : Tracks state.system.clock state.history
  onCourse : ∀ course, state.courses timer = some course → OnCourse state timer course

variable {state next : Timed} {tick : Int} {course : Course}

theorem Awaited.frame (awaited : Awaited state timer tick)
    (pending
      : ∀ arming, arming.node = .timer timer
        → (arming ∈ next.history.pending ↔ arming ∈ state.history.pending))
    (now : next.history.now = state.history.now)
    (running : next.system.clock.firing = state.system.clock.firing)
    (handling
      : state.system.clock.firing = some timer → next.system.handling = state.system.handling)
    : Awaited next timer tick := by
  rcases awaited with ⟨arming, member, node, expiry⟩ | ⟨handled, firing, none, due⟩
  · exact .inl ⟨arming, (pending arming node).mpr member, node, expiry⟩
  · refine .inr ⟨(handling firing).trans handled, running.trans firing, ?_, now.trans due⟩
    intro arming member node
    exact none arming ((pending arming node).mp member) node

theorem OnCourse.frame (onCourse : OnCourse state timer course)
    (same : next.system.timers timer = state.system.timers timer)
    (awaited
      : Awaited state timer (course.due course.expirations.length)
        → Awaited next timer (course.due course.expirations.length))
    : OnCourse next timer course where
  periodic := onCourse.periodic
  period := by
    rw [same]
    exact onCourse.period
  expired := onCourse.expired
  awaited := awaited onCourse.awaited

theorem OnCourse.unaffected (onCourse : OnCourse state timer course)
    {clock : Clock Record Unit} {timers : Nat → KTimer} {courses : Nat → Option Course}
    (same : timers timer = state.system.timers timer)
    (pending
      : ∀ arming, arming.node = .timer timer
        → (arming ∈ history.pending ↔ arming ∈ state.history.pending))
    (now : history.now = state.history.now)
    (callback : clock.callback = state.system.clock.callback)
    : OnCourse ⟨⟨clock, timers, state.system.handling⟩, history, courses⟩ timer course := by
  refine onCourse.frame same fun awaited => ?_
  exact awaited.frame pending now (Clock.firing_eq callback) fun _ => rfl

theorem Awaited.pending (awaited : Awaited state timer tick)
    (idle : state.system.handling = false ∨ state.system.clock.firing ≠ some timer)
    : ∃ arming ∈ state.history.pending, arming.node = .timer timer ∧ arming.expiry = tick := by
  rcases awaited with pending | ⟨handled, firing, _⟩
  · exact pending
  · rcases idle with idle | idle
    · rw [idle] at handled
      exact absurd handled nofun
    · exact absurd firing idle

/-! ### The queue moves on -/

/-- An announcement leaves the timer pending or starts its callback at the tick it waits for.
Witness: the record says that every timeout fires at its expiry.
-/
theorem awaited_progress {before : Clock Record Unit} {system : Timers}
    {courses : Nat → Option Course}
    (tracks : Tracks system.clock (history.progress before system.clock))
    (handling : system.handling = system.clock.firing.isSome)
    (pending
      : ∃ arming ∈ history.pending, arming.node = .timer timer ∧ arming.expiry = tick)
    : Awaited ⟨system, history.progress before system.clock, courses⟩ timer tick := by
  obtain ⟨arming, member, node, expiry⟩ := pending
  cases running : system.clock.callback with
  | none =>
      refine .inl ⟨arming, ?_, node, expiry⟩
      simpa only [History.progress, running] using member
  | some callback =>
      have progress : history.progress before system.clock
          = history.fire callback.node
            (history.now + (system.clock.currTick - before.currTick).toInt64.toInt)
            system.clock.currTick := by
        simp only [History.progress, running]
      rw [progress] at tracks ⊢
      by_cases fires : callback.node = .timer timer
      · have firing : system.clock.firing = some timer := by
          simp only [Clock.firing, running, Option.map_some, fires]
        refine .inr ⟨by rw [handling, firing]; rfl, firing, ?_, ?_⟩
        · intro other kept same
          rw [← fires] at same
          simp [History.fire, same] at kept
        · have listed : (⟨arming,
              history.now + (system.clock.currTick - before.currTick).toInt64.toInt,
              system.clock.currTick, history.armed⟩ : Firing Record)
              ∈ (history.fire callback.node
                (history.now + (system.clock.currTick - before.currTick).toInt64.toInt)
                system.clock.currTick).fired := by
            refine List.mem_append_right _ (List.mem_map_of_mem ?_)
            simp [member, node, fires]
          exact ((tracks.firedOnTime _ listed).1).trans expiry
      · refine .inl ⟨arming, ?_, node, expiry⟩
        have other : arming.node ≠ callback.node := fun same => fires (same ▸ node)
        simp [History.fire, member, other]

theorem Phased.queueCall {call : Call Record Unit} {system : Timers}
    (phased : Phased timer state) (inRange : CallInRange state.system.clock call)
    (stepped : state.system.queueCall call = some system)
    : Phased timer (state.record system (.queue call)) := by
  cases call with
  | addTimeout node fn timeout hw =>
      cases node with
      | timer _ => exact absurd stepped nofun
      | other node =>
          obtain ⟨clock, added, rfl⟩ := Option.map_eq_some_iff.mp stepped
          have callback : clock.callback = state.system.clock.callback := by
            rw [← Option.some.inj (Option.ite_none_left_eq_some.mp added).2]
            exact zAddTimeout_callback ..
          refine ⟨phased.tracks.addTimeout inRange added, fun course same => ?_⟩
          refine (phased.onCourse course same).frame rfl fun awaited => ?_
          refine awaited.frame ?_ (now_addTimeout _ clock) (Clock.firing_eq callback) fun _ => rfl
          intro arming node
          exact mem_pending_addTimeout _ clock (by rw [node]; exact nofun)
  | abortTimeout node =>
      cases node with
      | timer _ => exact absurd stepped nofun
      | other node =>
          rw [Timers.queueCall] at stepped
          obtain ⟨clock, aborted, rfl⟩ := Option.map_eq_some_iff.mp stepped
          have callback : clock.callback = state.system.clock.callback := by
            rw [← Option.some.inj aborted]
            exact zAbortTimeout_callback ..
          refine ⟨phased.tracks.abortTimeout aborted, fun course same => ?_⟩
          refine (phased.onCourse course same).frame rfl fun awaited => ?_
          refine awaited.frame ?_ rfl (Clock.firing_eq callback) fun _ => rfl
          intro arming node
          exact mem_pending_abort (by rw [node]; exact nofun)
  | announce ticks hw =>
      obtain ⟨clock, announced, rfl⟩ := Option.map_eq_some_iff.mp stepped
      have tracks := phased.tracks.announce inRange announced
      have idle : state.system.clock.callback = none := by
        have := (Option.ite_none_left_eq_some.mp announced).1
        simpa using this
      refine ⟨tracks, fun course same => ?_⟩
      refine (phased.onCourse course same).frame rfl fun awaited => ?_
      have pending := awaited.pending (.inr (by rw [Clock.firing, idle]; exact nofun))
      exact awaited_progress tracks rfl pending
  | callbackReturns hw =>
      obtain ⟨handled, stepped⟩ := Option.ite_none_left_eq_some.mp stepped
      obtain ⟨clock, returned, rfl⟩ := Option.map_eq_some_iff.mp stepped
      have tracks := phased.tracks.callbackReturns returned
      refine ⟨tracks, fun course same => ?_⟩
      refine (phased.onCourse course same).frame rfl fun awaited => ?_
      exact awaited_progress tracks rfl (awaited.pending (.inl (by simpa using handled)))

/-! ### Timers are started and expire -/

theorem Phased.timerStart {started : Nat} {duration period : KTimeout} {hw : UInt32}
    (phased : Phased timer state)
    (inRange
      : CallInRange state.system.clock
          (.addTimeout (.timer started) () (timerDuration duration) hw))
    : Phased timer
        (state.record (state.system.kTimerStart started duration period hw)
          (.timerStart started duration period hw)) := by
  by_cases forever : duration = kForever
  · simpa only [Timed.record, if_pos forever] using phased
  · simp only [Timed.record, Timers.kTimerStart, if_neg forever]
    have aborted : step state.system.clock (.abortTimeout (.timer started))
        = some (state.system.clock.zAbortTimeout (.timer started)).1 := rfl
    have elapsed := zAbortTimeout_elapsed state.system.clock (.timer started) hw
    have callback := zAbortTimeout_callback state.system.clock (.timer started)
    have without := phased.tracks.abortTimeout aborted
    generalize (state.system.clock.zAbortTimeout (.timer started)).1 = clock at *
    have inRange' : CallInRange clock
        (.addTimeout (.timer started) () (timerDuration duration) hw) := by
      simp only [CallInRange, elapsed]
      exact inRange
    have finite := timerDuration_finite forever
    have fresh : ¬clock.isLinked (.timer started) := by
      rw [without.linked_iff]
      rintro ⟨arming, member, node⟩
      simp [History.abort, node] at member
    have added : step clock (.addTimeout (.timer started) () (timerDuration duration) hw)
        = some (clock.zAddTimeout (.timer started) () (timerDuration duration) hw) := by
      simp [step, fresh]
    have tracks := without.addTimeout inRange' added
    have after := zAddTimeout_callback clock (.timer started) (timerDuration duration) hw
    rw [History.record_addTimeout _ _ finite] at tracks ⊢
    have delay (relative : zTickAbs duration.ticks < 0) (given : 0 ≤ duration.ticks)
        : (clock.requestedTicks (timerDuration duration) hw).toInt
          = (clock.elapsed hw).toInt + max 1 duration.ticks.toInt :=
      requestedTicks_start relative given inRange'
    generalize (clock.requestedTicks (timerDuration duration) hw).toInt = ticks at *
    generalize clock.zAddTimeout (.timer started) () (timerDuration duration) hw = next at *
    refine ⟨tracks, fun course same => ?_⟩
    dsimp only at same
    by_cases own : timer = started
    · subst own
      rw [Function.update_self] at same
      obtain ⟨⟨relative, given, positive⟩, started⟩ := Option.ite_none_right_eq_some.mp same
      obtain rfl := Option.some.inj started
      have due : state.history.now + ticks
          = state.history.now + (state.system.clock.elapsed hw).toInt
            + max 1 duration.ticks.toInt + (0 : Nat) * period.ticks.toInt := by
        rw [delay relative given, elapsed]
        omega
      refine
        { periodic := Int64.le_iff_toInt_le.mp positive
          period := by simp only [Function.update_self]
          expired := rfl
          awaited := .inl ⟨⟨.timer timer, state.history.armed, _⟩, ?_, rfl, due⟩ }
      exact mem_stableInsert.mpr (.inl rfl)
    · rw [Function.update_of_ne own] at same
      refine (phased.onCourse course same).unaffected (Function.update_of_ne own ..) ?_ ?_
        (after.trans callback)
      · intro arming node
        have other : arming.node ≠ .timer started := by
          rw [node]
          exact fun same => own (Record.timer.inj same)
        exact (mem_pending_arm other).trans (mem_pending_abort other)
      · simp only [History.arm, History.abort]

theorem Phased.timerStop {stopped : Nat} (phased : Phased timer state)
    : Phased timer (state.record (state.system.kTimerStop stopped) (.timerStop stopped)) := by
  refine ⟨phased.tracks.abortTimeout rfl, fun course same => ?_⟩
  simp only [Timed.record] at same
  by_cases own : timer = stopped
  · subst own
    rw [Function.update_self] at same
    exact absurd same nofun
  · rw [Function.update_of_ne own] at same
    refine (phased.onCourse course same).frame rfl fun awaited => ?_
    refine awaited.frame ?_ rfl (Clock.firing_eq (zAbortTimeout_callback ..)) fun _ => rfl
    intro arming node
    refine mem_pending_abort ?_
    rw [node]
    exact fun same => own (Record.timer.inj same)

theorem periodic_of_period {timer : KTimer} (positive : 1 ≤ timer.period.ticks.toInt)
    : timer.periodic = true := by
  have wait : kNoWait.ticks.toInt = 0 := by decide
  have forever : kForever.ticks.toInt = -1 := by decide
  refine decide_eq_true ⟨?_, ?_⟩
  · intro same
    rw [same] at positive
    omega
  · intro same
    rw [same] at positive
    omega

theorem Course.due_succ (course : Course) (k : Nat)
    : course.due (k + 1) = course.due k + course.period := by
  simp only [Course.due, Int.natCast_add, Int.natCast_one, Int.add_mul, Int.one_mul]
  omega

theorem OnCourse.expires {hw hwAdd : UInt32} (tracks : Tracks state.system.clock state.history)
    (onCourse : OnCourse state timer course)
    (unlinked : ¬state.system.clock.isLinked (.timer timer))
    (punctual : state.system.clock.elapsed hw = 0)
    (fits
      : state.system.clock.currTick.toNat + (state.system.timers timer).period.ticks.toInt
        < 2 ^ 63)
    {system : Timers} {courses : Nat → Option Course}
    (same : (system.timers timer).period = (state.system.timers timer).period)
    : OnCourse
        ⟨system,
          state.history.arm (.timer timer)
            (state.history.now + (state.system.clock.requestedTicks
              (state.system.nextExpiry timer hw) hwAdd).toInt),
          courses⟩
        timer
        { course with expirations := course.expirations ++ [state.history.now] } := by
  have period := onCourse.period
  have periodic := onCourse.periodic
  have now : state.history.now = course.due course.expirations.length := by
    rcases onCourse.awaited with ⟨arming, member, node, _⟩ | ⟨_, _, _, now⟩
    · exact absurd ((tracks.linked_iff _).mpr ⟨arming, member, node⟩) unlinked
    · exact now
  have ticks : (state.system.clock.requestedTicks (state.system.nextExpiry timer hw) hwAdd).toInt
      = course.period := by
    rw [requestedTicks_next punctual (by omega) fits, period]
  refine
    { periodic := periodic
      period := by
        dsimp only
        rw [same]
        exact period
      expired := ?_
      awaited := .inl ⟨⟨.timer timer, state.history.armed, _⟩, mem_stableInsert.mpr (.inl rfl),
        rfl, ?_⟩ }
  · dsimp only
    rw [List.length_append, List.length_singleton, List.range_succ, List.map_append,
      List.map_singleton, now]
    exact congrArg (· ++ _) onCourse.expired
  · dsimp only
    rw [List.length_append, List.length_singleton, ticks, now]
    exact (course.due_succ _).symm

theorem Phased.expiration {fired : Nat} {hw hwAdd : UInt32} (phased : Phased timer state)
    (firing : state.system.clock.firing = some fired)
    (inPhase : InPhase timer state (.expiration hw hwAdd))
    : Phased timer
        (state.record (state.system.zTimerExpirationHandler fired hw hwAdd)
          (.expiration hw hwAdd)) := by
  have tracks := phased.tracks
  by_cases linked : state.system.clock.isLinked (.timer fired)
  · simp only [Timed.record, firing, Timers.zTimerExpirationHandler, if_pos linked]
    refine ⟨tracks, fun course same => (phased.onCourse course same).frame rfl ?_⟩
    rintro (pending | ⟨_, ours, none, _⟩)
    · exact .inl pending
    · obtain ⟨arming, member, node⟩ := (tracks.linked_iff _).mp linked
      rw [Option.some.inj (firing.symm.trans ours)] at node
      exact absurd node (none arming member)
  · simp only [Timed.record, firing, Timers.zTimerExpirationHandler, if_neg linked]
    have absolute : zTickAbs (state.system.nextExpiry fired hw).ticks ≥ 0
        ∧ state.system.nextExpiry fired hw ≠ kForever :=
      kTimeoutAbsTicks_absolute _
    have added : step state.system.clock
        (.addTimeout (.timer fired) () (state.system.nextExpiry fired hw) hwAdd)
        = some (state.system.clock.zAddTimeout (.timer fired) ()
          (state.system.nextExpiry fired hw) hwAdd) := by
      simp [step, linked]
    have rearmed := tracks.addTimeout (.inr (.inl absolute.1)) added
    rw [History.record_addTimeout _ _ absolute.2] at rearmed ⊢
    refine ⟨?_, fun course same => ?_⟩
    · dsimp only
      split
      · exact rearmed
      · exact tracks
    · dsimp only at same
      by_cases own : timer = fired
      · subst own
        rw [Function.update_self] at same
        obtain ⟨before, known, rfl⟩ := Option.map_eq_some_iff.mp same
        have onCourse := phased.onCourse before known
        have periodic := periodic_of_period
          (onCourse.period.symm ▸ onCourse.periodic)
        obtain ⟨punctual, fits⟩ := inPhase firing
        simp only [periodic, if_true]
        refine onCourse.expires tracks linked punctual fits ?_
        simp only [Function.update_self]
      · rw [Function.update_of_ne own] at same
        refine (phased.onCourse course same).frame (Function.update_of_ne own ..) ?_
        intro awaited
        refine awaited.frame ?_ ?_ ?_ ?_
        · intro arming node
          have other : arming.node ≠ .timer fired := by
            rw [node]
            exact fun same => own (Record.timer.inj same)
          dsimp only
          split
          · exact mem_pending_arm other
          · rfl
        · dsimp only
          split
          · rfl
          · rfl
        · refine Clock.firing_eq ?_
          dsimp only
          split
          · exact zAddTimeout_callback ..
          · rfl
        · intro ours
          exact absurd (Option.some.inj (ours.symm.trans firing)) own

theorem timedStep_phased {event : Event} (phased : Phased timer state)
    (inPhase : InPhase timer state event) (stepped : timedStep state event = some next)
    : Phased timer next := by
  obtain ⟨system, taken, rfl⟩ := Option.map_eq_some_iff.mp stepped
  cases event with
  | queue call => exact phased.queueCall inPhase taken
  | timerStart started duration period hw =>
      obtain rfl := Option.some.inj taken
      exact phased.timerStart inPhase
  | timerStop stopped =>
      obtain rfl := Option.some.inj taken
      exact phased.timerStop
  | expiration hw hwAdd =>
      rw [timerStep] at taken
      split at taken
      · rename_i fired _ firing
        obtain rfl := Option.some.inj taken
        exact phased.expiration firing inPhase
      · exact absurd taken nofun

/-! ### Periodic timers -/

/-- In every run of starts, stops, announcements of any size and callbacks of any other timeouts,
in which the handler of a timer reads the announced tick, the expiration with number `k` of a
periodic timer happens at `start + max 1 delay + k * period`; the clock of the kernel is that of
the record, and between announcements no expiration that is due is missing.
-/
theorem periodic_timer_keeps_phase {events : List Event}
    (inPhase : RunMeets timedStep (InPhase timer) {} events)
    (ran : run timedStep {} events = some state) (started : state.courses timer = some course)
    : state.system.clock.currTick.toInt64 = Int64.ofInt state.history.now
      ∧ course.expirations = (List.range course.expirations.length).map course.due
      ∧ (state.system.clock.callback = none
          → state.history.now = state.history.announced
            ∧ ∀ k, course.due k ≤ state.history.now → k < course.expirations.length) := by
  have initial : Phased timer {} := ⟨Tracks.initial, fun _ => nofun⟩
  have phased : Phased timer state :=
    run_invariant_of_meets (Phased timer)
      (fun phased inPhase stepped => timedStep_phased phased inPhase stepped)
      initial inPhase ran
  have onCourse := phased.onCourse course started
  refine ⟨phased.tracks.tick, onCourse.expired, fun idle => ?_⟩
  have remaining := phased.tracks.remaining
  rw [idle] at remaining
  refine ⟨remaining.2.1.symm, fun k due => ?_⟩
  obtain ⟨arming, member, _, expiry⟩ := onCourse.awaited.pending
    (.inr (by rw [Clock.firing, idle]; exact nofun))
  have later := remaining.2.2 arming member
  by_contra notPast
  have periodic := onCourse.periodic
  have between := Int.mul_le_mul_of_nonneg_right
    (Int.ofNat_le.mpr (Nat.le_of_not_lt notPast)) (show 0 ≤ course.period by omega)
  simp only [Course.due] at due expiry
  omega

/-- A timer with a period of 4 ticks, started 2 ticks after the last announcement; 20 ticks are
announced at once while the hardware has counted one more.
-/
def phaseEvents : List Event :=
  [.timerStart 0 ⟨3⟩ ⟨4⟩ 2, .timerStart 1 ⟨11⟩ ⟨0⟩ 2, .queue (.announce 20 0),
    .expiration 1 1, .queue (.callbackReturns 1), .expiration 1 1, .queue (.callbackReturns 1),
    .expiration 1 1, .queue (.callbackReturns 1), .expiration 1 1, .queue (.callbackReturns 1),
    .expiration 1 1, .queue (.callbackReturns 1)]

theorem phaseEvents_keep_phase
    : RunMeets timedStep (InPhase 0) {} phaseEvents
      ∧ ∃ state course,
          run timedStep {} phaseEvents = some state
          ∧ state.courses 0 = some course
          ∧ course = ⟨2, 3, 4, [5, 9, 13, 17]⟩
          ∧ course.expirations = (List.range course.expirations.length).map course.due := by
  have inPhase : RunMeets timedStep (InPhase 0) {} phaseEvents := by decide +kernel
  obtain ⟨state, ran⟩ : ∃ state, run timedStep {} phaseEvents = some state :=
    Option.isSome_iff_exists.mp (by decide +kernel)
  have courses : (run timedStep {} phaseEvents).map (fun state => state.courses 0)
      = some (some ⟨2, 3, 4, [5, 9, 13, 17]⟩) := by decide +kernel
  rw [ran] at courses
  have started : state.courses 0 = some ⟨2, 3, 4, [5, 9, 13, 17]⟩ := Option.some.inj courses
  exact ⟨inPhase, state, _, ran, started, rfl,
    (periodic_timer_keeps_phase inPhase ran started).2.1⟩

/-- Two timers of 10 ticks each expire at tick 10. The first callback uses up what is announced, so
the second handler already reads the tick that the hardware has counted since: its timer expires
next at tick 21 and not at tick 20.
-/
theorem second_timer_of_a_tick_drifts
    : (run timedStep {}
        [.timerStart 0 ⟨10⟩ ⟨10⟩ 0, .timerStart 1 ⟨10⟩ ⟨10⟩ 0, .queue (.announce 10 0),
          .expiration 0 0, .queue (.callbackReturns 0), .expiration 1 1,
          .queue (.callbackReturns 1), .queue (.announce 10 0), .expiration 0 0,
          .queue (.callbackReturns 0), .queue (.announce 1 0), .expiration 0 0,
          .queue (.callbackReturns 0)]).map (fun state => (state.courses 0, state.courses 1))
      = some (some ⟨0, 10, 10, [10, 20]⟩, some ⟨0, 10, 10, [10, 21]⟩)
      ∧ (⟨0, 10, 10, [10, 21]⟩ : Course).due 1 = 20 := by
  decide +kernel

end Zephyr.Kernel.Timeout
