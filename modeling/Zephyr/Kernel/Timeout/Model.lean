import Zephyr.Library.Run
import Zephyr.Library.DeltaList
import Zephyr.Kernel.Base
import Zephyr.Library.MachineInt

/-! The kernel's timeout queue (`kernel/timeout.c`) with 64-bit ticks on one processor.
Each section under `timeout_lock` is one step. `sys_clock_announce` drops the lock around
every callback, so it is a step up to the first callback and one more step after each.
-/

namespace Zephyr.Kernel.Timeout

open Zephyr.Library

/-! ### The queue -/

/-- A linked `struct _timeout`: its address, its callback and its gap to the one before. -/
structure Entry (τ φ : Type) where
  node : τ
  fn : φ
  dticks : Int64
  deriving DecidableEq, Repr

/-- The callback that `sys_clock_announce` has started and not yet returned from.
`dt` is the local of that name, taken off `announce_remaining` after the callback.
-/
structure Callback (τ φ : Type) where
  node : τ
  fn : φ
  dt : Int32
  deriving DecidableEq, Repr

/-- The statics of `timeout.c`. `programmed` is the last `sys_clock_set_timeout` value. -/
structure Clock (τ φ : Type) where
  currTick : UInt64 := 0
  timeoutList : List (Entry τ φ) := []
  announceRemaining : Int32 := 0
  programmed : Int32 := 0
  callback : Option (Callback τ φ) := none
  deriving DecidableEq, Repr

variable {τ φ : Type} [DecidableEq τ]

/-- `sys_dnode_is_linked` of the node of `node`. -/
def Clock.isLinked (clock : Clock τ φ) (node : τ) : Bool :=
  clock.timeoutList.any (fun entry => entry.node = node)

def Clock.first (clock : Clock τ φ) : Option (Entry τ φ) :=
  clock.timeoutList.head?

/-- `elapsed`: ticks since the last announcement as the driver reports them (`hw`), but
zero while `announce_remaining` says that an announcement is going on.
-/
def Clock.elapsed (clock : Clock τ φ) (hw : UInt32) : Int32 :=
  if clock.announceRemaining = 0 then hw.toInt32 else 0

def intMax : Int32 := 2147483647

/-- The macro `MAX` at `int64_t`. -/
def cMax (a b : Int64) : Int64 :=
  if a > b then a else b

/-- `MAX_WAIT` without `CONFIG_SYSTEM_CLOCK_SLOPPY_IDLE`. -/
def maxWait : Int32 := intMax

def Clock.nextTimeout (clock : Clock τ φ) (hw : UInt32) : Int32 :=
  match clock.first with
  | none => maxWait
  | some t =>
      let left := t.dticks - (clock.elapsed hw).toInt64
      if left > intMax.toInt64 then maxWait else (cMax 0 left).toInt32

/-- `sys_clock_set_timeout(next_timeout(), false)` -/
def Clock.program (clock : Clock τ φ) (hw : UInt32) : Clock τ φ :=
  { clock with programmed := clock.nextTimeout hw }

/-! ### Adding and aborting -/

/-- The `dticks` that `z_add_timeout` starts its walk with: the distance of the requested
expiry from `curr_tick`.
-/
def Clock.requestedTicks (clock : Clock τ φ) (timeout : KTimeout) (hw : UInt32) : Int64 :=
  if zTickAbs timeout.ticks ≥ 0 then
    cMax 1 ((zTickAbs timeout.ticks).toUInt64 - clock.currTick).toInt64
  else timeout.ticks + 1 + (clock.elapsed hw).toInt64

/-- The walk of `z_add_timeout`: insert before the first record that is later, which keeps
its own expiry by losing what the new one takes.
-/
def insertTimeout (node : τ) (fn : φ) (dticks : Int64) : List (Entry τ φ) → List (Entry τ φ)
  | [] => [⟨node, fn, dticks⟩]
  | t :: rest =>
      if t.dticks > dticks then
        ⟨node, fn, dticks⟩ :: { t with dticks := t.dticks - dticks } :: rest
      else t :: insertTimeout node fn (dticks - t.dticks) rest

/-- `z_add_timeout` of a record that is not linked, as its assertion demands. -/
def Clock.zAddTimeout (clock : Clock τ φ) (node : τ) (fn : φ) (timeout : KTimeout)
    (hw : UInt32)
    : Clock τ φ :=
  if timeout = kForever then clock
  else
    let added :=
      { clock with
        timeoutList :=
          insertTimeout node fn (clock.requestedTicks timeout hw) clock.timeoutList }
    if added.first.map Entry.node = some node then added.program hw else added

/-- `remove_timeout`: the successor absorbs the removed record's `dticks`. -/
def removeTimeout (node : τ) : List (Entry τ φ) → List (Entry τ φ)
  | [] => []
  | t :: rest =>
      if t.node = node then
        match rest with
        | [] => []
        | next :: later => { next with dticks := next.dticks + t.dticks } :: later
      else t :: removeTimeout node rest

/-- `z_abort_timeout` with its return code. -/
def Clock.zAbortTimeout (clock : Clock τ φ) (node : τ) : Clock τ φ × Int :=
  if clock.isLinked node then
    ({ clock with timeoutList := removeTimeout node clock.timeoutList }, 0)
  else (clock, -einval)

/-! ### Queries -/

/-- `timeout_rem`: the sum of the gaps up to and including the one of `node`. -/
def timeoutRem (node : τ) : List (Entry τ φ) → Int64
  | [] => 0
  | t :: rest => if t.node = node then t.dticks else t.dticks + timeoutRem node rest

def Clock.zTimeoutRemaining (clock : Clock τ φ) (node : τ) (hw : UInt32) : Int64 :=
  if clock.isLinked node then
    timeoutRem node clock.timeoutList - (clock.elapsed hw).toInt64
  else 0

def Clock.zTimeoutExpires (clock : Clock τ φ) (node : τ) : Int64 :=
  if clock.isLinked node then
    clock.currTick.toInt64 + timeoutRem node clock.timeoutList
  else clock.currTick.toInt64

/-! ### Announcing elapsed ticks -/

/-- `curr_tick += ticks` for a signed count: the conversion to `uint64_t` extends the sign. -/
def Clock.advance (clock : Clock τ φ) (ticks : Int32) : Clock τ φ :=
  { clock with currTick := clock.currTick + ticks.toInt64.toUInt64 }

/-- The end of `sys_clock_announce`: the next record is that many ticks nearer. -/
def Clock.announceEnd (clock : Clock τ φ) (hw : UInt32) : Clock τ φ :=
  let shortened :=
    match clock.timeoutList with
    | [] => []
    | t :: rest =>
        { t with dticks := t.dticks - clock.announceRemaining.toInt64 } :: rest
  let advanced := clock.advance clock.announceRemaining
  { advanced with timeoutList := shortened, announceRemaining := 0, callback := none }.program hw

/-- One test of the loop of `sys_clock_announce`: start the callback of the first record
when it is due, else finish.
-/
def Clock.announceLoop (clock : Clock τ φ) (hw : UInt32) : Clock τ φ :=
  match clock.timeoutList with
  | [] => clock.announceEnd hw
  | t :: rest =>
      if t.dticks ≤ clock.announceRemaining.toInt64 then
        let dt := t.dticks.toInt32
        { clock.advance dt with
          timeoutList := removeTimeout t.node ({ t with dticks := 0 } :: rest)
          callback := some ⟨t.node, t.fn, dt⟩ }
      else clock.announceEnd hw

/-- `sys_clock_announce` up to its first callback, or to its end without one. -/
def Clock.sysClockAnnounce (clock : Clock τ φ) (ticks : Int32) (hw : UInt32) : Clock τ φ :=
  { clock with announceRemaining := ticks }.announceLoop hw

/-- `sys_clock_announce` from the return of a callback to the next one or to its end. -/
def Clock.announceResume (clock : Clock τ φ) (dt : Int32) (hw : UInt32) : Clock τ φ :=
  { clock with
    announceRemaining := clock.announceRemaining - dt
    callback := none }.announceLoop hw

/-! ### Steps -/

/-- The calls that change the queue. Threads, interrupts and running callbacks all make
them; `callbackReturns` is the running callback handing back to `sys_clock_announce`.
-/
inductive Call (τ φ : Type) where
  | addTimeout (node : τ) (fn : φ) (timeout : KTimeout) (hw : UInt32)
  | abortTimeout (node : τ)
  | announce (ticks : Int32) (hw : UInt32)
  | callbackReturns (hw : UInt32)
  deriving DecidableEq, Repr

/-- One call. Adding a linked record is excluded by the assertion in `z_add_timeout`; on
one processor an announcement does not start inside another.
-/
def step (clock : Clock τ φ) : Call τ φ → Option (Clock τ φ)
  | .addTimeout node fn timeout hw =>
      if timeout ≠ kForever ∧ clock.isLinked node then none
      else some (clock.zAddTimeout node fn timeout hw)
  | .abortTimeout node => some (clock.zAbortTimeout node).1
  | .announce ticks hw =>
      if clock.callback.isSome then none else some (clock.sysClockAnnounce ticks hw)
  | .callbackReturns hw =>
      clock.callback.map (fun running => clock.announceResume running.dt hw)

end Zephyr.Kernel.Timeout

/-! The timeout list as a gap list of mathematical integers.
While no remaining time reaches `2 ^ 63`, the machine arithmetic of `timeout.c` is exact and
each operation is the corresponding one of `DeltaList`.
-/

namespace Zephyr.Kernel.Timeout

open Zephyr.Library Zephyr.Library.DeltaList

variable {τ φ : Type}

def gaps (list : List (Entry τ φ)) : List (τ × Int) :=
  list.map (fun entry => (entry.node, entry.dticks.toInt))

@[simp]
theorem gaps_fst (list : List (Entry τ φ)) : (gaps list).map Prod.fst = list.map Entry.node := by
  simp [gaps]

theorem gaps_cons (t : Entry τ φ) (rest : List (Entry τ φ))
    : gaps (t :: rest) = (t.node, t.dticks.toInt) :: gaps rest :=
  rfl

/-- The walk of `z_add_timeout` never overflows: it only subtracts smaller gaps. -/
theorem gaps_insertTimeout (node : τ) (fn : φ) (dticks : Int64) (list : List (Entry τ φ))
    (nonneg : 0 ≤ dticks.toInt) (forward : Forward (gaps list))
    : gaps (insertTimeout node fn dticks list) = insertGap node dticks.toInt (gaps list) := by
  induction list generalizing dticks with
  | nil => rfl
  | cons t rest ih =>
      have gapNonneg : 0 ≤ t.dticks.toInt := forward (t.node, t.dticks.toInt) (by simp [gaps])
      have gapHigh := t.dticks.toInt_lt
      have high := dticks.toInt_lt
      by_cases later : t.dticks > dticks
      · have later' : dticks.toInt < t.dticks.toInt := Int64.lt_iff_toInt_lt.mp later
        have exact' := toInt_sub_of_range (a := t.dticks) (b := dticks) (by omega) (by omega)
        simp [insertTimeout, later, gaps_cons, insertGap, later', exact']
      · have later' : ¬dticks.toInt < t.dticks.toInt :=
          fun less => later (Int64.lt_iff_toInt_lt.mpr less)
        have exact' := toInt_sub_of_range (a := dticks) (b := t.dticks) (by omega) (by omega)
        have rest' := ih (dticks - t.dticks) (by omega) forward.tail
        simp [insertTimeout, later, gaps_cons, insertGap, later', rest', exact']

variable [DecidableEq τ]

theorem isLinked_iff (clock : Clock τ φ) (node : τ)
    : clock.isLinked node ↔ node ∈ clock.timeoutList.map Entry.node := by
  simp [Clock.isLinked]

/-- `remove_timeout` is exact when every remaining time is below `2 ^ 63`: the sum it stores
is at most the successor's remaining time.
-/
theorem gaps_removeTimeout (node : τ) (base start : Int) (list : List (Entry τ φ))
    (startLe : start ≤ base) (forward : Forward (gaps list))
    (bounded : ∀ entry ∈ absolutes base (gaps list), entry.2 < start + 2 ^ 63)
    : gaps (removeTimeout node list) = removeGap node (gaps list) := by
  induction list generalizing base with
  | nil => rfl
  | cons t rest ih =>
      have gapNonneg : 0 ≤ t.dticks.toInt := forward (t.node, t.dticks.toInt) (by simp [gaps])
      by_cases same : t.node = node
      · cases rest with
        | nil => simp [removeTimeout, same, gaps, removeGap, widenHead]
        | cons next later =>
            have nextNonneg : 0 ≤ next.dticks.toInt :=
              forward (next.node, next.dticks.toInt) (by simp [gaps])
            have high := bounded (next.node, base + t.dticks.toInt + next.dticks.toInt)
              (by simp [gaps, absolutes])
            simp only at high
            have exact' := toInt_add_of_range (a := next.dticks) (b := t.dticks)
              (by omega) (by omega)
            simp [removeTimeout, same, gaps_cons, removeGap, widenHead, exact']
      · have rest' := ih (base + t.dticks.toInt) (by omega) forward.tail
          (fun entry member => bounded entry (by simp [gaps_cons, absolutes, member]))
        simp [removeTimeout, same, gaps_cons, removeGap, rest']

end Zephyr.Kernel.Timeout
