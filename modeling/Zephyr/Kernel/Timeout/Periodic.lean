import Zephyr.Kernel.Timeout.Delivery

/-! The timers of `timer.c` over the timeout queue, and when a periodic timer expires. -/

namespace Zephyr.Kernel.Timeout

open Zephyr.Library

/-! ### Timers -/

/-- The record of a timer, whose callback is `z_timer_expiration_handler`, or another one. -/
inductive Record where
  | timer (timer : Nat)
  | other (node : Nat)
  deriving DecidableEq, Repr

/-- `struct k_timer` without its record. -/
structure KTimer where
  period : KTimeout := kNoWait
  status : UInt32 := 0
  deriving DecidableEq, Repr

/-- `handling`: the running callback is that of a timer and its handler is still to come. -/
structure Timers where
  clock : Clock Record Unit := {}
  timers : Nat → KTimer := fun _ => {}
  handling : Bool := false

def Clock.sysClockTickGet (clock : Clock Record Unit) (hw : UInt32) : Int64 :=
  (clock.currTick + (clock.elapsed hw).toInt64.toUInt64).toInt64

/-- `K_TIMEOUT_ABS_TICKS` -/
def kTimeoutAbsTicks (ticks : Int64) : KTimeout :=
  ⟨zTickAbs (cMax ticks 0)⟩

/-- What `k_timer_start` makes of its first delay: `z_add_timeout` adds a tick. -/
def timerDuration (duration : KTimeout) : KTimeout :=
  if zTickAbs duration.ticks < 0 then ⟨cMax (duration.ticks - 1) 0⟩ else duration

def Timers.kTimerStart (system : Timers) (timer : Nat) (duration period : KTimeout)
    (hw : UInt32)
    : Timers :=
  if duration = kForever then system
  else
    { system with
      clock := (system.clock.zAbortTimeout (.timer timer)).1.zAddTimeout (.timer timer) ()
        (timerDuration duration) hw
      timers := Function.update system.timers timer { period := period, status := 0 } }

/-- `k_timer_stop` as far as its record goes. -/
def Timers.kTimerStop (system : Timers) (timer : Nat) : Timers :=
  { system with clock := (system.clock.zAbortTimeout (.timer timer)).1 }

def KTimer.periodic (timer : KTimer) : Bool :=
  timer.period ≠ kNoWait ∧ timer.period ≠ kForever

/-- The absolute tick that the handler starts a periodic timer again for. -/
def Timers.nextExpiry (system : Timers) (timer : Nat) (hw : UInt32) : KTimeout :=
  kTimeoutAbsTicks
    (system.clock.sysClockTickGet hw + 1 + cMax ((system.timers timer).period.ticks - 1) 0)

/-- `z_timer_expiration_handler` up to the expiry function; it reads the driver's elapsed ticks
in `k_uptime_ticks` (`hw`) and in `z_add_timeout` (`hwAdd`). A timer that has been started again
meanwhile is left alone.
-/
def Timers.zTimerExpirationHandler (system : Timers) (timer : Nat) (hw hwAdd : UInt32)
    : Timers :=
  if system.clock.isLinked (.timer timer) then { system with handling := false }
  else
    { clock :=
        if (system.timers timer).periodic then
          system.clock.zAddTimeout (.timer timer) () (system.nextExpiry timer hw) hwAdd
        else system.clock
      timers := Function.update system.timers timer
        { system.timers timer with status := (system.timers timer).status + 1 }
      handling := false }

inductive Event where
  | queue (call : Call Record Unit)
  | timerStart (timer : Nat) (duration period : KTimeout) (hw : UInt32)
  | timerStop (timer : Nat)
  | expiration (hw hwAdd : UInt32)
  deriving DecidableEq, Repr

/-- The timer whose callback is running. -/
def Clock.firing (clock : Clock Record Unit) : Option Nat :=
  match clock.callback.map Callback.node with
  | some (.timer timer) => some timer
  | _ => none

/-- A call of the queue by something else than a timer. The callback of a timer returns only
after its handler.
-/
def Timers.queueCall (system : Timers) : Call Record Unit → Option Timers
  | .addTimeout (.timer _) .. | .abortTimeout (.timer _) => none
  | .addTimeout (.other node) fn timeout hw =>
      (step system.clock (.addTimeout (.other node) fn timeout hw)).map
        fun clock => { system with clock := clock }
  | .abortTimeout (.other node) =>
      (step system.clock (.abortTimeout (.other node))).map
        fun clock => { system with clock := clock }
  | .announce ticks hw =>
      (step system.clock (.announce ticks hw)).map
        fun clock => { system with clock := clock, handling := clock.firing.isSome }
  | .callbackReturns hw =>
      if system.handling then none
      else
        (step system.clock (.callbackReturns hw)).map
          fun clock => { system with clock := clock, handling := clock.firing.isSome }

def timerStep (system : Timers) : Event → Option Timers
  | .queue call => system.queueCall call
  | .timerStart timer duration period hw => some (system.kTimerStart timer duration period hw)
  | .timerStop timer => some (system.kTimerStop timer)
  | .expiration hw hwAdd =>
      match system.handling, system.clock.firing with
      | true, some timer => some (system.zTimerExpirationHandler timer hw hwAdd)
      | _, _ => none

/-! ### The course of a timer -/

/-- A periodic timer since its start: the kernel tick at that moment, the arguments and the
kernel ticks of its expirations so far.
-/
structure Course where
  start : Int
  delay : Int
  period : Int
  expirations : List Int := []
  deriving DecidableEq, Repr

/-- The tick of the expiration with this number; a delay of no ticks counts as one. -/
def Course.due (course : Course) (k : Nat) : Int :=
  course.start + max 1 course.delay + k * course.period

/-- A system with the record of its queue and the courses of its timers. -/
structure Timed where
  system : Timers := {}
  history : History Record := {}
  courses : Nat → Option Course := fun _ => none

/-- The arguments are those of a periodic timer with a relative first delay. -/
def courseOf (clock : Clock Record Unit) (now : Int) (duration period : KTimeout) (hw : UInt32)
    : Option Course :=
  if zTickAbs duration.ticks < 0 ∧ 0 ≤ duration.ticks ∧ 1 ≤ period.ticks then
    some
      { start := now + (clock.elapsed hw).toInt
        delay := duration.ticks.toInt
        period := period.ticks.toInt }
  else none

def Timed.record (state : Timed) (next : Timers) : Event → Timed
  | .queue call =>
      { state with
        system := next, history := state.history.record state.system.clock next.clock call }
  | .timerStart timer duration period hw =>
      if duration = kForever then state
      else
        { system := next
          history := (state.history.abort (.timer timer)).record
            (state.system.clock.zAbortTimeout (.timer timer)).1 next.clock
            (.addTimeout (.timer timer) () (timerDuration duration) hw)
          courses := Function.update state.courses timer
            (courseOf state.system.clock state.history.now duration period hw) }
  | .timerStop timer =>
      { system := next
        history := state.history.abort (.timer timer)
        courses := Function.update state.courses timer none }
  | .expiration hw hwAdd =>
      match state.system.clock.firing with
      | none => state
      | some timer =>
          if state.system.clock.isLinked (.timer timer) then { state with system := next }
          else
            { system := next
              history :=
                if (state.system.timers timer).periodic then
                  state.history.record state.system.clock next.clock
                    (.addTimeout (.timer timer) () (state.system.nextExpiry timer hw) hwAdd)
                else state.history
              courses := Function.update state.courses timer
                ((state.courses timer).map fun course =>
                  { course with expirations := course.expirations ++ [state.history.now] }) }

def timedStep (state : Timed) (event : Event) : Option Timed :=
  (timerStep state.system event).map fun next => state.record next event

/-- The calls are in range for the queue, and when the handler of this timer runs then the kernel
reads the tick that it is announcing and can still count one period on.
-/
def InPhase (timer : Nat) (state : Timed) : Event → Prop
  | .queue call => CallInRange state.system.clock call
  | .timerStart started duration _ hw =>
      CallInRange state.system.clock
        (.addTimeout (.timer started) () (timerDuration duration) hw)
  | .timerStop _ => True
  | .expiration hw _ =>
      state.system.clock.firing = some timer
      → state.system.clock.elapsed hw = 0
        ∧ state.system.clock.currTick.toNat
          + (state.system.timers timer).period.ticks.toInt < 2 ^ 63

instance (timer : Nat) (state : Timed) : (event : Event) → Decidable (InPhase timer state event)
  | .queue call => CallInRange.decidable state.system.clock call
  | .timerStart started duration _ hw =>
      CallInRange.decidable state.system.clock
        (.addTimeout (.timer started) () (timerDuration duration) hw)
  | .timerStop _ => .isTrue trivial
  | .expiration .. => inferInstanceAs (Decidable (_ → _))

/-! ### Ticks of the requests -/

theorem toInt_cMax (a b : Int64) : (cMax a b).toInt = max a.toInt b.toInt := by
  unfold cMax
  split
  · rename_i greater
    have := Int64.lt_iff_toInt_lt.mp greater
    omega
  · rename_i notGreater
    have := Int64.le_iff_toInt_le.mp (Int64.not_lt.mp notGreater)
    omega

theorem zTickAbs_toInt {ticks : Int64} (nonneg : 0 ≤ ticks.toInt)
    (high : ticks.toInt < 2 ^ 63 - 1)
    : (zTickAbs ticks).toInt = -2 - ticks.toInt := by
  have base : (kTicksForever - 1 : Int64).toInt = -2 := by decide
  rw [zTickAbs, toInt_sub_of_range (by omega) (by omega), base]

/-- `Z_TICK_ABS` is its own inverse. -/
theorem zTickAbs_zTickAbs (ticks : Int64) : zTickAbs (zTickAbs ticks) = ticks := by
  unfold zTickAbs
  grind

theorem kTimeoutAbsTicks_absolute (ticks : Int64)
    : zTickAbs (kTimeoutAbsTicks ticks).ticks ≥ 0 ∧ kTimeoutAbsTicks ticks ≠ kForever := by
  have nonneg : 0 ≤ (cMax ticks 0).toInt := by
    rw [toInt_cMax]
    exact le_max_right _ _
  refine ⟨?_, ?_⟩
  · rw [kTimeoutAbsTicks, zTickAbs_zTickAbs]
    exact Int64.le_iff_toInt_le.mpr nonneg
  · intro same
    have ticks := congrArg (fun timeout => (zTickAbs timeout.ticks).toInt) same
    dsimp only [kTimeoutAbsTicks] at ticks
    rw [zTickAbs_zTickAbs] at ticks
    have forever : (zTickAbs kForever.ticks).toInt = -1 := by decide
    omega

theorem requestedTicks_start {clock : Clock Record Unit} {timer : Nat} {duration : KTimeout}
    {hw : UInt32}
    (relative : zTickAbs duration.ticks < 0) (given : 0 ≤ duration.ticks)
    (inRange : CallInRange clock (.addTimeout (.timer timer) () (timerDuration duration) hw))
    : (clock.requestedTicks (timerDuration duration) hw).toInt
      = (clock.elapsed hw).toInt + max 1 duration.ticks.toInt := by
  have nonneg : 0 ≤ duration.ticks.toInt := Int64.le_iff_toInt_le.mp given
  have high : duration.ticks.toInt < 2 ^ 63 - 1 := by
    have below := duration.ticks.toInt_lt
    by_contra most
    have largest : duration.ticks = 9223372036854775807 := Int64.toInt_inj.mp (by
      have : (9223372036854775807 : Int64).toInt = 9223372036854775807 := by decide
      omega)
    rw [largest] at relative
    exact absurd relative (by decide)
  have one : (1 : Int64).toInt = 1 := rfl
  have zero : (0 : Int64).toInt = 0 := rfl
  have less : (duration.ticks - 1).toInt = duration.ticks.toInt - 1 :=
    toInt_sub_of_range (by omega) (by omega)
  have ticks : (timerDuration duration).ticks.toInt = max (duration.ticks.toInt - 1) 0 := by
    rw [timerDuration, if_pos relative, toInt_cMax, less]
    rfl
  have notAbsolute : ¬zTickAbs (timerDuration duration).ticks ≥ 0 := by
    intro absolute
    have := Int64.le_iff_toInt_le.mp absolute
    rw [zTickAbs_toInt (by omega) (by omega)] at this
    omega
  have finite : timerDuration duration ≠ kForever := by
    intro same
    have forever : kForever.ticks.toInt = -1 := by decide
    rw [same] at ticks
    omega
  obtain ⟨elapsed, fits⟩ := (inRange.resolve_left finite).resolve_left notAbsolute
  have more : ((timerDuration duration).ticks + 1).toInt
      = (timerDuration duration).ticks.toInt + 1 :=
    toInt_add_of_range (by omega) (by omega)
  have sum : ((timerDuration duration).ticks + 1 + (clock.elapsed hw).toInt64).toInt
      = (timerDuration duration).ticks.toInt + 1 + (clock.elapsed hw).toInt := by
    rw [toInt_add_of_range, more, Int32.toInt_toInt64]
    · rw [more, Int32.toInt_toInt64]
      omega
    · rw [more, Int32.toInt_toInt64]
      omega
  rw [Clock.requestedTicks, if_neg notAbsolute, sum, ticks]
  omega

theorem requestedTicks_next {system : Timers} {timer : Nat} {hw hwAdd : UInt32}
    (punctual : system.clock.elapsed hw = 0)
    (periodic : 1 ≤ (system.timers timer).period.ticks.toInt)
    (fits : system.clock.currTick.toNat + (system.timers timer).period.ticks.toInt < 2 ^ 63)
    : (system.clock.requestedTicks (system.nextExpiry timer hw) hwAdd).toInt
      = (system.timers timer).period.ticks.toInt := by
  have one : (1 : Int64).toInt = 1 := rfl
  have zero : (0 : Int64).toInt = 0 := rfl
  have less : ((system.timers timer).period.ticks - 1).toInt
      = (system.timers timer).period.ticks.toInt - 1 :=
    toInt_sub_of_range (by omega) (by omega)
  have rest : cMax ((system.timers timer).period.ticks - 1) 0
      = (system.timers timer).period.ticks - 1 := by
    refine Int64.toInt_inj.mp ?_
    rw [toInt_cMax, less]
    omega
  have uptime : system.clock.sysClockTickGet hw = system.clock.currTick.toInt64 := by
    rw [Clock.sysClockTickGet, punctual]
    simp
  have now : system.clock.currTick.toInt64.toInt = system.clock.currTick.toNat := by
    change system.clock.currTick.toBitVec.toInt = _
    rw [BitVec.toInt_eq_toNat_of_lt]
    · rfl
    · change 2 * system.clock.currTick.toNat < _
      omega
  have target : system.clock.currTick.toInt64 + 1 + ((system.timers timer).period.ticks - 1)
      = system.clock.currTick.toInt64 + (system.timers timer).period.ticks := by
    grind
  have sum : (system.clock.currTick.toInt64 + (system.timers timer).period.ticks).toInt
      = system.clock.currTick.toNat + (system.timers timer).period.ticks.toInt := by
    rw [toInt_add_of_range, now] <;> omega
  have positive : cMax (system.clock.currTick.toInt64 + (system.timers timer).period.ticks) 0
      = system.clock.currTick.toInt64 + (system.timers timer).period.ticks := by
    refine Int64.toInt_inj.mp ?_
    rw [toInt_cMax, sum]
    omega
  have absolute := (kTimeoutAbsTicks_absolute
    (system.clock.currTick.toInt64 + (system.timers timer).period.ticks)).1
  rw [Timers.nextExpiry, uptime, rest, target, Clock.requestedTicks, if_pos absolute,
    kTimeoutAbsTicks, zTickAbs_zTickAbs, positive]
  have distance : ((system.clock.currTick.toInt64
      + (system.timers timer).period.ticks).toUInt64 - system.clock.currTick).toInt64
      = (system.timers timer).period.ticks := by
    rw [← Int64.toBitVec_inj]
    change system.clock.currTick.toBitVec + (system.timers timer).period.ticks.toBitVec
      - system.clock.currTick.toBitVec = _
    grind
  rw [distance, toInt_cMax]
  omega

theorem timerDuration_finite {duration : KTimeout} (finite : duration ≠ kForever)
    : timerDuration duration ≠ kForever := by
  unfold timerDuration
  split
  · intro same
    have ticks := congrArg (fun timeout => timeout.ticks.toInt) same
    have forever : kForever.ticks.toInt = -1 := by decide
    have zero : (0 : Int64).toInt = 0 := rfl
    dsimp only at ticks
    rw [toInt_cMax, forever] at ticks
    omega
  · exact finite

end Zephyr.Kernel.Timeout
