import Zephyr.Library.Ring

/-! The trace logger of `demo/T32ThreadDebugLogger/t32logger.ino`: which records its buffer holds
after any sequence of calls.
-/

namespace Zephyr.T32Logger

open Zephyr.Library

/-! ### The logger -/

/-- `T32_loggerData_t` -/
structure LoggerData where
  tshigh : UInt32 := 0
  tslow : UInt32 := 0
  address : UInt32 := 0
  data : UInt32 := 0
  deriving DecidableEq, Repr

/-- `T32_LoggerC`, with the bits of `iflags` and `oflags` that it uses. The logger is a static
object, so `index` is zero before its constructor runs, which leaves it alone.
-/
structure Logger where
  buffer : Nat → LoggerData := fun _ => {}
  size : Nat
  index : Nat := 0
  arm : Bool := false
  stack : Bool := false
  overflow : Bool := false

def t32LoggerSize : Nat := 1024

def t32Fetch : UInt32 := 0x1000

/-- What `T32_LoggerData` stores; `nTimer` is the result of `T32_TimerGet`. -/
def record (cycletype address data : UInt32) (nTimer : UInt64) : LoggerData where
  tslow := (nTimer &&& 0xffffffff).toUInt32
  tshigh := cycletype <<< 16 ||| ((nTimer >>> 32).toUInt32 &&& 0x0000ffff)
  -- a fetch has the thumb bit of its address cleared
  address := if cycletype = t32Fetch then address &&& 0xFFFFFFFE else address
  data := data

namespace Logger

/-- `nIndex` in `T32_LoggerData`, unless that returns before it. -/
def nIndex (logger : Logger) : Option Nat :=
  if !logger.arm then none
  else if logger.size ≤ logger.index then
    if logger.stack then none else some 0
  else some logger.index

def loggerData (logger : Logger) (cycletype address data : UInt32) (nTimer : UInt64) : Logger :=
  match logger.nIndex with
  | none => logger
  | some nIndex =>
      { logger with
        overflow := logger.overflow || logger.size ≤ logger.index
        buffer :=
          Function.update logger.buffer nIndex (record cycletype address data nTimer)
        index := nIndex + 1 }

def setArm (logger : Logger) : Logger :=
  { logger with arm := true }

def off (logger : Logger) : Logger :=
  { logger with arm := false }

end Logger

inductive Call where
  | arm
  | off
  | data (cycletype address data : UInt32) (nTimer : UInt64)
  deriving DecidableEq, Repr

def step (logger : Logger) : Call → Logger
  | .arm => logger.setArm
  | .off => logger.off
  | .data cycletype address data nTimer => logger.loggerData cycletype address data nTimer

/-! ### The records that a run logs -/

/-- The records of the calls that are made while the logger is armed. -/
def logged : Bool → List Call → List LoggerData
  | _, [] => []
  | _, .arm :: rest => logged true rest
  | _, .off :: rest => logged false rest
  | armed, .data cycletype address data nTimer :: rest =>
      if armed then record cycletype address data nTimer :: logged armed rest
      else logged armed rest

/-- The records in a buffer, oldest first, as `index` and the overflow flag tell them. -/
def Logger.contents (logger : Logger) : List LoggerData :=
  if logger.overflow then window logger.buffer logger.size logger.index logger.size
  else window logger.buffer logger.size 0 logger.index

/-- A logger in FIFO mode has the last records that it was given. -/
structure Logger.FifoKeeps (logger : Logger) (records : List LoggerData) : Prop where
  mode : logger.stack = false
  positive : 0 < logger.size
  index_le : logger.index ≤ logger.size
  started
    : logger.overflow = false
      → records.length = logger.index
        ∧ window logger.buffer logger.size 0 logger.index = records
  full
    : logger.overflow = true
      → logger.size ≤ records.length
        ∧ window logger.buffer logger.size logger.index logger.size
          = records.drop (records.length - logger.size)

/-- A logger in STACK mode has the first records that it was given. -/
structure Logger.StackKeeps (logger : Logger) (records : List LoggerData) : Prop where
  mode : logger.stack = true
  started : logger.overflow = false
  index_eq : logger.index = min records.length logger.size
  first : window logger.buffer logger.size 0 logger.index = records.take logger.size

namespace Logger

variable {logger : Logger} {records : List LoggerData}

theorem loggerData_disarmed (disarmed : logger.arm = false) (cycletype address data : UInt32)
    (nTimer : UInt64)
    : logger.loggerData cycletype address data nTimer = logger := by
  simp [loggerData, nIndex, disarmed]

theorem loggerData_size (logger : Logger) (cycletype address data : UInt32) (nTimer : UInt64)
    : (logger.loggerData cycletype address data nTimer).size = logger.size := by
  unfold loggerData
  split <;> rfl

theorem loggerData_arm (logger : Logger) (cycletype address data : UInt32) (nTimer : UInt64)
    : (logger.loggerData cycletype address data nTimer).arm = logger.arm := by
  unfold loggerData
  split <;> rfl

theorem FifoKeeps.whole (keeps : logger.FifoKeeps records)
    (isFull : logger.overflow = true ∨ logger.index = logger.size)
    : logger.size ≤ records.length
      ∧ window logger.buffer logger.size logger.index logger.size
        = records.drop (records.length - logger.size) := by
  cases overflow : logger.overflow with
  | true => exact keeps.full overflow
  | false =>
      have atEnd : logger.index = logger.size := by simpa [overflow] using isFull
      obtain ⟨count, all⟩ := keeps.started overflow
      rw [atEnd] at count all
      refine ⟨count.ge, ?_⟩
      rw [count, Nat.sub_self, List.drop_zero, atEnd, ← window_mod, Nat.mod_self, all]

theorem drop_push {size : Nat} (positive : 0 < size) (enough : size ≤ records.length)
    (item : LoggerData)
    : (records ++ [item]).drop ((records ++ [item]).length - size)
      = (records.drop (records.length - size)).tail ++ [item] := by
  have length : (records ++ [item]).length - size = records.length - size + 1 := by
    rw [List.length_append, List.length_singleton]
    omega
  rw [length, List.drop_append_of_le_length (by omega), List.tail_drop]

theorem FifoKeeps.push (keeps : logger.FifoKeeps records)
    (armed : logger.arm = true) (cycletype address data : UInt32) (nTimer : UInt64)
    : (logger.loggerData cycletype address data nTimer).FifoKeeps
        (records ++ [record cycletype address data nTimer]) := by
  have positive := keeps.positive
  generalize isItem : record cycletype address data nTimer = item
  by_cases room : logger.index < logger.size
  · have slot : logger.nIndex = some logger.index := by
      simp [nIndex, armed, room]
    rw [loggerData, slot, isItem]
    refine ⟨keeps.mode, positive, room, ?_, ?_⟩
    · intro started
      have before : logger.overflow = false := by simpa [room] using started
      obtain ⟨count, all⟩ := keeps.started before
      have pushed := @window_push _ logger.buffer logger.size 0 logger.index room item
      rw [Nat.zero_add, Nat.mod_eq_of_lt room, all] at pushed
      exact ⟨by simp [count], pushed⟩
    · intro full
      have before : logger.overflow = true := by simpa [Nat.not_le.mpr room] using full
      obtain ⟨enough, last⟩ := keeps.full before
      have rotated := window_rotate positive logger.buffer logger.index item
      rw [Nat.mod_eq_of_lt room, last] at rotated
      exact ⟨by simp; omega, rotated.trans (drop_push positive enough item).symm⟩
  · have atEnd : logger.index = logger.size := Nat.le_antisymm keeps.index_le (Nat.not_lt.mp room)
    have slot : logger.nIndex = some 0 := by
      simp [nIndex, armed, atEnd, keeps.mode]
    obtain ⟨enough, last⟩ := keeps.whole (.inr atEnd)
    have rotated := window_rotate positive logger.buffer logger.index item
    have wraps : logger.index % logger.size = 0 := by rw [atEnd, Nat.mod_self]
    have next : (logger.index + 1) % logger.size = 1 % logger.size := by
      rw [atEnd, Nat.add_mod_left]
    rw [last, wraps, ← window_mod, next, window_mod] at rotated
    rw [loggerData, slot, isItem]
    refine ⟨keeps.mode, positive, positive, ?_, ?_⟩
    · intro started
      simp [atEnd] at started
    · intro _
      exact ⟨by simp; omega, rotated.trans (drop_push positive enough item).symm⟩

theorem StackKeeps.push (keeps : logger.StackKeeps records) (armed : logger.arm = true)
    (cycletype address data : UInt32) (nTimer : UInt64)
    : (logger.loggerData cycletype address data nTimer).StackKeeps
        (records ++ [record cycletype address data nTimer]) := by
  have index := keeps.index_eq
  by_cases room : logger.index < logger.size
  · have slot : logger.nIndex = some logger.index := by
      simp [nIndex, armed, room]
    have count : records.length = logger.index := by omega
    have pushed := @window_push _ logger.buffer logger.size 0 logger.index room
      (record cycletype address data nTimer)
    rw [Nat.zero_add, Nat.mod_eq_of_lt room, keeps.first,
      List.take_of_length_le (by omega)] at pushed
    rw [loggerData, slot]
    refine ⟨keeps.mode, by simp [keeps.started, room], by simp; omega, ?_⟩
    rw [List.take_of_length_le (by simp; omega)]
    exact pushed
  · have slot : logger.nIndex = none := by
      simp [nIndex, keeps.mode, Nat.not_lt.mp room]
    rw [loggerData, slot]
    refine ⟨keeps.mode, keeps.started, by simp; omega, ?_⟩
    rw [List.take_append_of_le_length (show logger.size ≤ records.length by omega)]
    exact keeps.first

/-- A run gives the logger the records of its calls, whatever it keeps of them. -/
theorem run_keeps {keeps : Logger → List LoggerData → Prop}
    (flag
      : ∀ {logger records} (arm : Bool),
          keeps logger records → keeps { logger with arm := arm } records)
    (push
      : ∀ {logger records},
          keeps logger records
          → logger.arm = true
          → ∀ cycletype address data nTimer,
              keeps (logger.loggerData cycletype address data nTimer)
                (records ++ [record cycletype address data nTimer]))
    (start : keeps logger records) (calls : List Call)
    : keeps (calls.foldl step logger) (records ++ logged logger.arm calls) := by
  induction calls generalizing logger records with
  | nil => simpa [logged] using start
  | cons call rest ih =>
      cases call with
      | arm => exact ih (flag true start)
      | off => exact ih (flag false start)
      | data cycletype address data nTimer =>
          cases armed : logger.arm with
          | false =>
              have same := loggerData_disarmed armed cycletype address data nTimer
              simpa [logged, step, same, armed] using ih start
          | true =>
              have later := ih (push start armed cycletype address data nTimer)
              simpa [logged, step, loggerData_arm, armed] using later

theorem FifoKeeps.run (keeps : logger.FifoKeeps records) (calls : List Call)
    : (calls.foldl step logger).FifoKeeps (records ++ logged logger.arm calls) :=
  run_keeps (fun _ keeps => ⟨keeps.1, keeps.2, keeps.3, keeps.4, keeps.5⟩) FifoKeeps.push keeps
    calls

theorem StackKeeps.run (keeps : logger.StackKeeps records) (calls : List Call)
    : (calls.foldl step logger).StackKeeps (records ++ logged logger.arm calls) :=
  run_keeps (fun _ keeps => ⟨keeps.1, keeps.2, keeps.3, keeps.4⟩) StackKeeps.push keeps calls

theorem FifoKeeps.contents_eq (keeps : logger.FifoKeeps records)
    : logger.contents = records.drop (records.length - min records.length logger.size) := by
  unfold contents
  cases overflow : logger.overflow with
  | true =>
      obtain ⟨enough, last⟩ := keeps.full overflow
      rw [if_pos rfl, last, Nat.min_eq_right enough]
  | false =>
      obtain ⟨count, all⟩ := keeps.started overflow
      have fits := keeps.index_le
      rw [if_neg Bool.false_ne_true, all, Nat.min_eq_left (by omega), Nat.sub_self, List.drop_zero]

theorem nIndex_lt {nIndex : Nat} (positive : 0 < logger.size)
    (stores : logger.nIndex = some nIndex)
    : nIndex < logger.size := by
  unfold Logger.nIndex at stores
  split at stores
  · cases stores
  · split at stores
    · split at stores
      · cases stores
      · exact Option.some.inj stores ▸ positive
    · rename_i room
      exact Option.some.inj stores ▸ Nat.not_le.mp room

theorem StackKeeps.kept (keeps : logger.StackKeeps records) {place : Nat}
    (stored : place < logger.index) (call : Call)
    : (step logger call).buffer place = logger.buffer place := by
  cases call with
  | arm => rfl
  | off => rfl
  | data cycletype address data nTimer =>
      simp only [step, loggerData]
      split
      · rfl
      · rename_i nIndex stores
        unfold Logger.nIndex at stores
        rw [keeps.mode, if_pos rfl] at stores
        split at stores
        · cases stores
        · split at stores
          · cases stores
          · exact Function.update_of_ne (Option.some.inj stores ▸ Nat.ne_of_lt stored) _ _

end Logger

/-- `T32_LoggerInit`, with the mode that the debugger sets. -/
def loggerInit (size : Nat) (stack : Bool) : Logger :=
  { size := size, stack := stack }

/-- The logger after a run of calls. -/
def after (size : Nat) (stack : Bool) (calls : List Call) : Logger :=
  calls.foldl step (loggerInit size stack)

theorem after_fifo {size : Nat} (positive : 0 < size) (calls : List Call)
    : (after size false calls).FifoKeeps (logged false calls) := by
  have start : (loggerInit size false).FifoKeeps [] :=
    ⟨rfl, positive, Nat.zero_le _, fun _ => ⟨rfl, rfl⟩, fun full => absurd full Bool.false_ne_true⟩
  exact start.run calls

theorem after_stack (size : Nat) (calls : List Call)
    : (after size true calls).StackKeeps (logged false calls) := by
  have start : (loggerInit size true).StackKeeps [] :=
    ⟨rfl, rfl, (Nat.zero_min _).symm, List.take_nil.symm⟩
  exact start.run calls

theorem after_size (size : Nat) (stack : Bool) (calls : List Call)
    : (after size stack calls).size = size := by
  suffices same : ∀ logger, (calls.foldl step logger).size = logger.size from same _
  induction calls with
  | nil => exact fun _ => rfl
  | cons call rest ih =>
      intro logger
      rw [List.foldl_cons, ih]
      cases call with
      | arm => rfl
      | off => rfl
      | data cycletype address data nTimer => exact Logger.loggerData_size ..

/-- After every run, a logger in FIFO mode tells the last records logged while it was armed, and one
in STACK mode the first ones, of which no call overwrites any. Every record is written inside the
buffer, and a logger that is not armed ignores data.
-/
theorem logger_keeps_records {size : Nat} (positive : 0 < size) (calls : List Call)
    : (after size false calls).contents
        = (logged false calls).drop
            ((logged false calls).length - min (logged false calls).length size)
      ∧ (after size true calls).contents = (logged false calls).take size
      ∧ (∀ place call,
          place < (after size true calls).index
          → (step (after size true calls) call).buffer place
            = (after size true calls).buffer place)
      ∧ (∀ stack nIndex,
          (after size stack calls).nIndex = some nIndex → nIndex < size)
      ∧ ∀ stack cycletype address data nTimer,
          (after size stack calls).arm = false
          → (after size stack calls).loggerData cycletype address data nTimer
            = after size stack calls := by
  have fifo := after_fifo positive calls
  have stacked := after_stack size calls
  refine ⟨?_, ?_, ?_, ?_, ?_⟩
  · rw [fifo.contents_eq, after_size]
  · rw [Logger.contents, stacked.started, if_neg Bool.false_ne_true, stacked.first, after_size]
  · intro place call stored
    exact stacked.kept stored call
  · intro stack nIndex stores
    have inside := Logger.nIndex_lt (by rwa [after_size]) stores
    rwa [after_size] at inside
  · intro stack cycletype address data nTimer disarmed
    exact Logger.loggerData_disarmed disarmed ..

/-- Three records in a buffer of two; the second call is made while the logger is off. -/
def threeRecords : List Call :=
  [.arm, .data 0x3400 1 10 0, .off, .data 0x3400 2 20 1, .arm, .data 0x3400 3 30 2,
    .data 0x1000 5 0 3]

theorem threeRecords_kept
    : (after 2 false threeRecords).contents
        = [record 0x3400 3 30 2, record 0x1000 5 0 3]
      ∧ (after 2 true threeRecords).contents = [record 0x3400 1 10 0, record 0x3400 3 30 2] := by
  obtain ⟨last, first, -⟩ := logger_keeps_records (by decide : 0 < 2) threeRecords
  exact ⟨last, first⟩

end Zephyr.T32Logger
