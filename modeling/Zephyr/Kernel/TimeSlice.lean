import Zephyr.Kernel.Sched.Model
import Zephyr.Kernel.Timeout.Delivery

/-! Time slices (`timeslicing.c`) on one processor: the threads of one priority take turns.
The slice of the running thread is a timeout of the kernel's queue among others; its callback sets
a flag that the end of `sys_clock_announce` reads.
-/

namespace Zephyr.Kernel.TimeSlice

open Zephyr.Library

/-! ### The slices -/

/-- `slice_ticks` and `slice_max_prio` -/
structure Config where
  sliceTicks : Int32
  sliceMaxPrio : Int

/-- The scheduler, the timeout queue with the record of what happened to it, and the flag
`slice_expired`; `announcing` from the begin of `sys_clock_announce` to the exit of its interrupt.
-/
structure System where
  sched : Sched.System
  timeouts : Timeout.Clock Nat Unit × Timeout.History Nat
  sliceExpired : Bool := false
  announcing : Bool := false

/-- The node of `slice_timeouts[0]`. -/
def sliceNode : Nat := 0

def System.call (system : System) (call : Timeout.Call Nat Unit) : System :=
  { system with timeouts := (Timeout.recordedStep system.timeouts call).getD system.timeouts }

def threadIsSliceable (config : Config) (sched : Sched.System) (thread : Nat) : Bool :=
  Sched.threadIsPreemptible (sched.threads thread)
    && config.sliceTicks ≠ 0
    && !((sched.threads thread).prio < config.sliceMaxPrio)
    && !Sched.zIsThreadPreventedFromRunning (sched.threads thread)
    && thread ≠ Sched.idleThread

def zResetTimeSlice (config : Config) (system : System) (thread : Nat) (hw : UInt32) : System :=
  let system := { system.call (.abortTimeout sliceNode) with sliceExpired := false }
  if threadIsSliceable config system.sched thread then
    system.call (.addTimeout sliceNode () ⟨config.sliceTicks.toInt64 - 1⟩ hw)
  else system

def updateCache (config : Config) (system : System) (preemptOk : Bool) (hw : UInt32) : System :=
  let thread := Sched.nextUp system.sched
  if Sched.shouldPreempt system.sched thread preemptOk then
    let system :=
      if thread ≠ system.sched.current then zResetTimeSlice config system thread hw else system
    { system with sched.cache := thread }
  else { system with sched.cache := system.sched.current }

def moveThreadToEndOfPrioQ (config : Config) (system : System) (thread : Nat) (hw : UInt32)
    : System :=
  let sched := Sched.queueThread (Sched.dequeueIfQueued system.sched thread) thread
  updateCache config { system with sched := sched } (thread == sched.current) hw

/-- `z_time_slice`; no thread has pended between a swap and its switch. -/
def zTimeSlice (config : Config) (system : System) (hw : UInt32) : System :=
  let curr := system.sched.current
  if system.sliceExpired && threadIsSliceable config system.sched curr then
    let system :=
      if !Sched.zIsThreadPreventedFromRunning (system.sched.threads curr) then
        moveThreadToEndOfPrioQ config system curr hw
      else system
    zResetTimeSlice config system curr hw
  else system

/-! ### Runs -/

/-- `timeout` is an addition or an abort of another timeout by anyone; an announcement goes on with
the returns of the callbacks that it makes, and ends with the slice and the exit of the interrupt.
-/
inductive Call where
  | timeout (call : Timeout.Call Nat Unit)
  | announce (ticks : Int32) (hw : UInt32)
  | callbackReturns (hw : UInt32)
  | timeSlice (hw : UInt32)
  deriving DecidableEq, Repr

/-- A call for another timeout than the slice, within 64 bits. -/
def Others (clock : Timeout.Clock Nat Unit) : Timeout.Call Nat Unit → Prop
  | .addTimeout node fn timeout hw =>
      node ≠ sliceNode ∧ Timeout.CallInRange clock (.addTimeout node fn timeout hw)
  | .abortTimeout node => node ≠ sliceNode
  | .announce .. | .callbackReturns .. => False

instance Others.decidable (clock : Timeout.Clock Nat Unit)
    : (call : Timeout.Call Nat Unit) → Decidable (Others clock call)
  | .addTimeout _ _ _ _ => inferInstanceAs (Decidable (_ ∧ _))
  | .abortTimeout _ => inferInstanceAs (Decidable (_ ≠ _))
  | .announce _ _ => .isFalse id
  | .callbackReturns _ => .isFalse id

def step (config : Config) (system : System) : Call → Option System
  | .timeout call =>
      if Others system.timeouts.1 call then
        (Timeout.recordedStep system.timeouts call).map fun timeouts =>
          { system with timeouts := timeouts }
      else none
  | .announce ticks hw =>
      if !system.announcing ∧ 0 ≤ ticks then
        (Timeout.recordedStep system.timeouts (.announce ticks hw)).map fun timeouts =>
          { system with timeouts := timeouts, announcing := true }
      else none
  | .callbackReturns hw =>
      match system.timeouts.1.callback with
      | none => none
      | some running =>
          (Timeout.recordedStep system.timeouts (.callbackReturns hw)).map fun timeouts =>
            { system with
              timeouts := timeouts
              sliceExpired := system.sliceExpired || running.node = sliceNode }
  | .timeSlice hw =>
      if system.announcing ∧ system.timeouts.1.callback = none ∧ hw.toNat < 2 ^ 31 then
        let system := zTimeSlice config system hw
        some { system with
          sched := Sched.contextSwitch (Sched.interruptExit system.sched)
          announcing := false }
      else none

/-- When the slice of the running thread began, and how many slices have ended. -/
structure Turn where
  startedAt : Int
  turns : Nat
  deriving DecidableEq, Repr

def Turn.next (turn : Turn) (system : System) : Call → Turn
  | .timeSlice hw =>
      if system.sliceExpired then ⟨system.timeouts.2.now + hw.toNat, turn.turns + 1⟩ else turn
  | _ => turn

def recordedStep (config : Config) (state : System × Turn) (call : Call)
    : Option (System × Turn) :=
  (step config state.1 call).map fun next => (next, state.2.next state.1 call)

/-- The first thread of a group gets its slice, with less urgent threads behind the group. -/
def start (config : Config) (threads : Nat → Sched.Thread) (group lower : List Nat)
    (timeouts : Timeout.Clock Nat Unit × Timeout.History Nat) (hw : UInt32) : System × Turn :=
  let first := group.headD Sched.idleThread
  let sched : Sched.System :=
    { threads := threads, runq := group ++ lower, current := first, cache := first }
  (zResetTimeSlice config { sched := sched, timeouts := timeouts } first hw,
    ⟨timeouts.2.now + hw.toNat, 0⟩)

/-! ### The slice timeout -/

/-- Outside of callbacks the slice timeout is pending, to expire at `deadline`. -/
structure Armed (timeouts : Timeout.Clock Nat Unit × Timeout.History Nat) (now deadline : Int)
    : Prop where
  tracks : Timeout.Tracks timeouts.1 timeouts.2
  callback : timeouts.1.callback = none
  now_eq : timeouts.2.now = now
  pending : ∃ arming ∈ timeouts.2.pending, arming.node = sliceNode ∧ arming.expiry = deadline

section

variable {config : Config} {system : System} {thread : Nat} {hw : UInt32}

theorem call_abort (tracks : Timeout.Tracks system.timeouts.1 system.timeouts.2)
    : Timeout.Tracks (system.call (.abortTimeout sliceNode)).timeouts.1
        (system.call (.abortTimeout sliceNode)).timeouts.2
      ∧ (system.call (.abortTimeout sliceNode)).timeouts.1.callback = system.timeouts.1.callback
      ∧ (system.call (.abortTimeout sliceNode)).timeouts.2.now = system.timeouts.2.now
      ∧ ¬(system.call (.abortTimeout sliceNode)).timeouts.1.isLinked sliceNode := by
  have moved : (system.call (.abortTimeout sliceNode)).timeouts
      = ((system.timeouts.1.zAbortTimeout sliceNode).1, system.timeouts.2.abort sliceNode) := rfl
  have after := tracks.abortTimeout
    (show Timeout.step system.timeouts.1 (.abortTimeout sliceNode) = some _ from rfl)
  rw [moved]
  refine ⟨after, ?_, rfl, ?_⟩
  · simp only [Timeout.Clock.zAbortTimeout]
    split <;> rfl
  · rw [Timeout.isLinked_iff, after.nodes]
    simp [Timeout.History.abort]

theorem requestedTicks_slice {clock : Timeout.Clock Nat Unit} (idle : clock.announceRemaining = 0)
    (positive : 0 < config.sliceTicks) (word : hw.toNat < 2 ^ 31)
    : (clock.requestedTicks ⟨config.sliceTicks.toInt64 - 1⟩ hw).toInt
        = config.sliceTicks.toInt + hw.toNat
      ∧ Timeout.CallInRange clock
          (.addTimeout sliceNode () ⟨config.sliceTicks.toInt64 - 1⟩ hw)
      ∧ (⟨config.sliceTicks.toInt64 - 1⟩ : KTimeout) ≠ kForever := by
  have low := Int32.lt_iff_toInt_lt.mp positive
  have high := config.sliceTicks.toInt_lt
  have one : (1 : Int64).toInt = 1 := rfl
  have zero : (0 : Int64).toInt = 0 := rfl
  rw [show (0 : Int32).toInt = 0 from rfl] at low
  have ticks : (config.sliceTicks.toInt64 - 1).toInt = config.sliceTicks.toInt - 1 := by
    rw [toInt_sub_of_range, Int32.toInt_toInt64, one] <;> rw [Int32.toInt_toInt64, one] <;> omega
  have relative : ¬zTickAbs (config.sliceTicks.toInt64 - 1) ≥ 0 := by
    intro absolute
    have base : (kTicksForever - 1 : Int64).toInt = -2 := by decide
    have bound := Int64.le_iff_toInt_le.mp absolute
    rw [zTickAbs, toInt_sub_of_range, base, ticks, zero] at bound
    · omega
    all_goals rw [base, ticks]; omega
  have elapsed : (clock.elapsed hw).toInt = hw.toNat := by
    rw [Timeout.Clock.elapsed, if_pos idle]
    exact BitVec.toInt_eq_toNat_of_lt (Nat.mul_lt_mul_of_pos_left word (by decide))
  refine ⟨?_, .inr (.inr ⟨?_, ?_⟩), ?_⟩
  · have next : (config.sliceTicks.toInt64 - 1 + 1).toInt = config.sliceTicks.toInt := by
      rw [toInt_add_of_range, ticks, one]
      · omega
      all_goals rw [ticks, one]; omega
    rw [Timeout.Clock.requestedTicks, if_neg relative, toInt_add_of_range, next,
      Int32.toInt_toInt64, elapsed]
    all_goals rw [next, Int32.toInt_toInt64, elapsed]; omega
  · omega
  · rw [ticks, elapsed]
    omega
  · intro forever
    have same := congrArg (fun timeout => timeout.ticks.toInt) forever
    simp only [ticks] at same
    rw [show kForever.ticks.toInt = -1 from rfl] at same
    omega

theorem call_add (tracks : Timeout.Tracks system.timeouts.1 system.timeouts.2)
    (idle : system.timeouts.1.callback = none)
    (unlinked : ¬system.timeouts.1.isLinked sliceNode) (positive : 0 < config.sliceTicks)
    (word : hw.toNat < 2 ^ 31)
    : Armed
        (system.call
          (.addTimeout sliceNode () ⟨config.sliceTicks.toInt64 - 1⟩ hw)).timeouts
        system.timeouts.2.now
        (system.timeouts.2.now + hw.toNat + config.sliceTicks.toInt) := by
  have remaining := tracks.remaining
  rw [idle] at remaining
  obtain ⟨ticks, inRange, finite⟩ := requestedTicks_slice remaining.1 positive word
  have stepped : Timeout.step system.timeouts.1
      (.addTimeout sliceNode () ⟨config.sliceTicks.toInt64 - 1⟩ hw)
      = some (system.timeouts.1.zAddTimeout sliceNode () ⟨config.sliceTicks.toInt64 - 1⟩ hw) := by
    simp only [Timeout.step]
    rw [if_neg fun linked => unlinked linked.2]
  have after := tracks.addTimeout inRange stepped
  have moved : (system.call (.addTimeout sliceNode () ⟨config.sliceTicks.toInt64 - 1⟩ hw)).timeouts
      = (system.timeouts.1.zAddTimeout sliceNode () ⟨config.sliceTicks.toInt64 - 1⟩ hw,
        system.timeouts.2.arm sliceNode
          (system.timeouts.2.now + (config.sliceTicks.toInt + hw.toNat))) := by
    simp only [System.call, Timeout.recordedStep, stepped, Option.map_some, Option.getD_some,
      Timeout.History.record, if_neg finite, ticks]
  simp only [Timeout.History.record, if_neg finite, ticks] at after
  obtain ⟨programmed, fields⟩ := Timeout.zAddTimeout_fields system.timeouts.1 sliceNode () finite hw
  rw [moved]
  refine ⟨after, ?_, rfl, ?_⟩
  · change (system.timeouts.1.zAddTimeout sliceNode () _ hw).callback = none
    rw [fields]
    exact idle
  · refine ⟨_, mem_stableInsert.mpr (.inl rfl), rfl, ?_⟩
    change _ + _ = _
    omega

theorem zResetTimeSlice_armed (tracks : Timeout.Tracks system.timeouts.1 system.timeouts.2)
    (idle : system.timeouts.1.callback = none) (positive : 0 < config.sliceTicks)
    (word : hw.toNat < 2 ^ 31) (sliceable : threadIsSliceable config system.sched thread = true)
    : Armed (zResetTimeSlice config system thread hw).timeouts system.timeouts.2.now
        (system.timeouts.2.now + hw.toNat + config.sliceTicks.toInt) := by
  obtain ⟨aborted, callback, now, unlinked⟩ := call_abort tracks
  have same
      : threadIsSliceable config (system.call (.abortTimeout sliceNode)).sched thread = true :=
    sliceable
  simp only [zResetTimeSlice]
  rw [if_pos same, ← now]
  exact call_add aborted (callback.trans idle) unlinked positive word

theorem zResetTimeSlice_sched (config : Config) (system : System) (thread : Nat) (hw : UInt32)
    : (zResetTimeSlice config system thread hw).sched = system.sched
      ∧ (zResetTimeSlice config system thread hw).announcing = system.announcing
      ∧ (zResetTimeSlice config system thread hw).sliceExpired = false := by
  simp only [zResetTimeSlice]
  split <;> exact ⟨rfl, rfl, rfl⟩

/-! ### The run queue -/

/-- The run queue holds the group, whose first thread runs, and less urgent threads behind. -/
structure Group (config : Config) (sched : Sched.System) (group lower : List Nat) : Prop where
  runq : sched.runq = group ++ lower
  current : group.head? = some sched.current
  cache : sched.cache = sched.current
  sliceable : ∀ thread ∈ group, threadIsSliceable config sched thread = true
  queued : ∀ thread ∈ group, (sched.threads thread).state.queued = true
  equal
    : ∀ thread ∈ group, ∀ other ∈ group, (sched.threads thread).prio = (sched.threads other).prio
  less : ∀ thread ∈ group, ∀ other ∈ lower, (sched.threads thread).prio < (sched.threads other).prio

theorem zPriqDumbAdd_behind {prio : Nat → Int} {others lower : List Nat}
    (equal : ∀ other ∈ others, prio thread = prio other)
    (less : ∀ other ∈ lower, prio thread < prio other)
    : zPriqDumbAdd prio thread (others ++ lower) = others ++ thread :: lower := by
  induction others with
  | nil =>
      cases lower with
      | nil => rfl
      | cons other rest =>
          rw [List.nil_append, List.nil_append, zPriqDumbAdd,
            if_pos (zSchedPrioCmp_pos.mpr (less other List.mem_cons_self))]
  | cons other rest ih =>
      have same := equal other List.mem_cons_self
      rw [List.cons_append, zPriqDumbAdd,
        if_neg fun more => (zSchedPrioCmp_pos.mp more).ne same,
        ih fun found member => equal found (List.mem_cons_of_mem _ member)]
      rfl

theorem Group.requeue {sched : Sched.System} {first : Nat} {others lower : List Nat}
    (isGroup : Group config sched (first :: others) lower)
    : (Sched.queueThread (Sched.dequeueIfQueued sched first) first).runq
        = others ++ first :: lower
      ∧ (Sched.queueThread (Sched.dequeueIfQueued sched first) first).threads = sched.threads
      ∧ (Sched.queueThread (Sched.dequeueIfQueued sched first) first).current
        = sched.current := by
  have queued := isGroup.queued first List.mem_cons_self
  have unchanged : Sched.Thread.setQueued true (Sched.Thread.setQueued false (sched.threads first))
      = sched.threads first := by
    generalize sched.threads first = record at queued ⊢
    obtain ⟨⟨⟩⟩ := record
    obtain rfl := queued
    rfl
  have dequeued : Sched.dequeueIfQueued sched first = Sched.dequeueThread sched first :=
    if_pos queued
  have threads : (Sched.queueThread (Sched.dequeueThread sched first) first).threads
      = sched.threads := by
    simp only [Sched.queueThread, Sched.dequeueThread, Sched.System.modify, Function.update_self,
      Function.update_idem, unchanged, Function.update_eq_self]
  have erased : sched.runq.erase first = others ++ lower := by
    rw [isGroup.runq, List.cons_append, List.erase_cons_head]
  rw [dequeued]
  refine ⟨?_, threads, rfl⟩
  change zPriqDumbAdd (fun other =>
    ((Sched.queueThread (Sched.dequeueThread sched first) first).threads other).prio) first
    (sched.runq.erase first) = _
  rw [threads, erased]
  refine zPriqDumbAdd_behind ?_ ?_
  · exact fun other member => isGroup.equal first List.mem_cons_self other
      (List.mem_cons_of_mem _ member)
  · exact isGroup.less first List.mem_cons_self

theorem updateCache_preempts (config : Config) (system : System) (hw : UInt32)
    : (updateCache config system true hw).sched
        = { system.sched with cache := Sched.nextUp system.sched }
      ∧ ((updateCache config system true hw).timeouts = system.timeouts
        ∨ (updateCache config system true hw).timeouts
          = (zResetTimeSlice config system (Sched.nextUp system.sched) hw).timeouts) := by
  have preempts : Sched.shouldPreempt system.sched (Sched.nextUp system.sched) true = true := rfl
  have kept := (zResetTimeSlice_sched config system (Sched.nextUp system.sched) hw).1
  simp only [updateCache, preempts, if_true]
  split
  · exact ⟨by rw [kept], .inr rfl⟩
  · exact ⟨rfl, .inl rfl⟩

theorem Group.expire {first : Nat} {others lower : List Nat}
    (isGroup : Group config system.sched (first :: others) lower)
    (tracks : Timeout.Tracks system.timeouts.1 system.timeouts.2)
    (idle : system.timeouts.1.callback = none) (positive : 0 < config.sliceTicks)
    (word : hw.toNat < 2 ^ 31) (expired : system.sliceExpired = true)
    : Group config
        (Sched.contextSwitch (Sched.interruptExit (zTimeSlice config system hw).sched))
        (others ++ [first]) lower
      ∧ (zTimeSlice config system hw).sliceExpired = false
      ∧ Armed (zTimeSlice config system hw).timeouts system.timeouts.2.now
          (system.timeouts.2.now + hw.toNat + config.sliceTicks.toInt) := by
  obtain ⟨runq, threads, current⟩ := isGroup.requeue
  have isFirst : system.sched.current = first := (Option.some.inj isGroup.current).symm
  have isSliceable {sched : Sched.System} (same : sched.threads = system.sched.threads)
      : ∀ thread ∈ others ++ [first], threadIsSliceable config sched thread = true := by
    intro thread member
    rw [threadIsSliceable, same]
    exact isGroup.sliceable thread (by simpa [or_comm] using member)
  have sliceable := isGroup.sliceable first List.mem_cons_self
  have runs : Sched.zIsThreadPreventedFromRunning (system.sched.threads first) = false := by
    simp only [threadIsSliceable, Bool.and_eq_true, Bool.not_eq_true'] at sliceable
    exact sliceable.1.2
  -- the state after the thread was queued again
  generalize isQueued : Sched.queueThread (Sched.dequeueIfQueued system.sched first) first = queued
    at runq threads current
  obtain ⟨next, rest, order⟩ : ∃ next rest, others ++ [first] = next :: rest := by
    cases others with
    | nil => exact ⟨_, _, rfl⟩
    | cons other rest => exact ⟨_, _, rfl⟩
  have isNext : Sched.nextUp queued = next := by
    rw [Sched.nextUp, runq, List.append_cons, order]
    rfl
  have sliced : zTimeSlice config system hw
      = zResetTimeSlice config (updateCache config { system with sched := queued } true hw) first
          hw := by
    simp only [zTimeSlice, expired, isFirst, sliceable, runs, moveThreadToEndOfPrioQ, isQueued,
      current]
    simp
  obtain ⟨cached, timeouts⟩ := updateCache_preempts config { system with sched := queued } hw
  generalize updateCache config { system with sched := queued } true hw = moved
    at sliced cached timeouts
  obtain ⟨sched, -, notExpired⟩ := zResetTimeSlice_sched config moved first hw
  rw [sliced, sched, cached, isNext]
  have movedThreads : moved.sched.threads = system.sched.threads := by rw [cached]; exact threads
  refine ⟨?_, notExpired, ?_⟩
  · refine ⟨?_, by rw [order]; rfl, rfl, isSliceable threads, ?_, ?_, ?_⟩
    · change queued.runq = _
      rw [runq, List.append_assoc]
      rfl
    all_goals
      simp only [Sched.contextSwitch, Sched.interruptExit, threads, List.mem_append,
        List.mem_singleton, or_comm, ← List.mem_cons]
    · exact isGroup.queued
    · exact isGroup.equal
    · exact isGroup.less
  · have ready : Timeout.Tracks moved.timeouts.1 moved.timeouts.2
        ∧ moved.timeouts.1.callback = none ∧ moved.timeouts.2.now = system.timeouts.2.now := by
      rcases timeouts with same | reset
      · rw [same]
        exact ⟨tracks, idle, rfl⟩
      · rw [reset]
        have armed : Armed (zResetTimeSlice config { system with sched := queued }
            (Sched.nextUp queued) hw).timeouts _ _ :=
          zResetTimeSlice_armed tracks idle positive word
            (isSliceable threads _ (by rw [isNext, order]; exact List.mem_cons_self))
        exact ⟨armed.tracks, armed.callback, armed.now_eq⟩
    rw [← ready.2.2]
    exact zResetTimeSlice_armed ready.1 ready.2.1 positive word
      (isSliceable movedThreads first (by simp))

theorem Group.switch {sched : Sched.System} {group lower : List Nat}
    (isGroup : Group config sched group lower)
    : Group config (Sched.contextSwitch (Sched.interruptExit sched)) group lower where
  runq := isGroup.runq
  current := isGroup.current.trans (congrArg some isGroup.cache.symm)
  cache := rfl
  sliceable := isGroup.sliceable
  queued := isGroup.queued
  equal := isGroup.equal
  less := isGroup.less

/-! ### Announcements -/

/-- The callback of the slice timeout runs. -/
def SliceRuns (clock : Timeout.Clock Nat Unit) : Prop :=
  ∃ running, clock.callback = some running ∧ running.node = sliceNode

def Pending (history : Timeout.History Nat) (deadline : Int) : Prop :=
  ∃ arming ∈ history.pending, arming.node = sliceNode ∧ arming.expiry = deadline

def Clear (history : Timeout.History Nat) : Prop :=
  ∀ arming ∈ history.pending, arming.node ≠ sliceNode

variable {history : Timeout.History Nat} {before after : Timeout.Clock Nat Unit}

theorem announceLoop_callback {clock : Timeout.Clock Nat Unit}
    {running : Timeout.Callback Nat Unit} (runs : (clock.announceLoop hw).callback = some running)
    : running.node ∈ clock.timeoutList.map Timeout.Entry.node := by
  unfold Timeout.Clock.announceLoop at runs
  split at runs
  · cases runs
  · rename_i entry rest list
    split at runs
    · cases runs
      rw [list]
      exact List.mem_cons_self
    · cases runs

theorem progress_pending {deadline : Int} (pending : Pending history deadline)
    (tracks : Timeout.Tracks after (history.progress before after))
    : (¬SliceRuns after ∧ Pending (history.progress before after) deadline)
      ∨ (SliceRuns after
        ∧ deadline ≤ history.announced
        ∧ Clear (history.progress before after)) := by
  obtain ⟨arming, member, isSlice, expiry⟩ := pending
  have remaining := tracks.remaining
  have onTime := tracks.firedOnTime
  simp only [Timeout.History.progress] at remaining onTime ⊢
  cases callback : after.callback with
  | none =>
      refine .inl ⟨?_, arming, member, isSlice, expiry⟩
      rintro ⟨running, runs, -⟩
      rw [callback] at runs
      cases runs
  | some running =>
      rw [callback] at remaining onTime
      by_cases slice : running.node = sliceNode
      · refine .inr ⟨⟨running, callback, slice⟩, ?_, ?_⟩
        · have fired := onTime ⟨arming, _, _, _⟩ (by
            refine List.mem_append_right _ (List.mem_map_of_mem (List.mem_filter.mpr ⟨member, ?_⟩))
            exact decide_eq_true (isSlice.trans slice.symm))
          obtain ⟨-, le, announced⟩ := remaining
          have now := fired.1
          simp only [Timeout.History.fire] at announced now
          omega
        · intro other stays
          have ne := (List.mem_filter.mp stays).2
          rw [slice] at ne
          exact of_decide_eq_true ne
      · refine .inl ⟨?_, arming, ?_, isSlice, expiry⟩
        · rintro ⟨found, runs, isFound⟩
          rw [callback] at runs
          cases runs
          exact slice isFound
        · refine List.mem_filter.mpr ⟨member, decide_eq_true ?_⟩
          rw [isSlice]
          exact Ne.symm slice

theorem progress_clear (clear : Clear history)
    (listed
      : ∀ running,
          after.callback = some running
          → running.node ∈ history.pending.map Timeout.Arming.node)
    : ¬SliceRuns after ∧ Clear (history.progress before after) := by
  refine ⟨?_, ?_⟩
  · rintro ⟨running, runs, isSlice⟩
    obtain ⟨arming, member, same⟩ := List.mem_map.mp (listed running runs)
    exact clear arming member (same.trans isSlice)
  · simp only [Timeout.History.progress]
    split
    · exact fun arming member => clear arming (List.mem_of_mem_filter member)
    · exact clear

theorem progress_announced (before after : Timeout.Clock Nat Unit)
    (history : Timeout.History Nat)
    : (history.progress before after).announced = history.announced := by
  simp only [Timeout.History.progress]
  split <;> rfl

/-! ### Turns -/

/-- The slice of the running thread is pending up to its deadline, or its end is announced. -/
structure Turns (config : Config) (group lower : List Nat) (state : System × Turn) : Prop where
  isGroup : Group config state.1.sched (group.rotate state.2.turns) lower
  tracks : Timeout.Tracks state.1.timeouts.1 state.1.timeouts.2
  inside
    : ∀ running, state.1.timeouts.1.callback = some running → state.1.announcing = true
  slice
    : (state.1.sliceExpired = false
        ∧ ¬SliceRuns state.1.timeouts.1
        ∧ Pending state.1.timeouts.2 (state.2.startedAt + config.sliceTicks.toInt))
      ∨ (state.1.announcing = true
        ∧ state.2.startedAt + config.sliceTicks.toInt ≤ state.1.timeouts.2.announced
        ∧ Clear state.1.timeouts.2
        ∧ (SliceRuns state.1.timeouts.1 ↔ state.1.sliceExpired = false))

variable {group lower : List Nat} {turn : Turn}

/-- Other timeouts come and go; the slice stays as it is. -/
theorem Others.keeps {call : Timeout.Call Nat Unit}
    {next : Timeout.Clock Nat Unit × Timeout.History Nat}
    (others : Others system.timeouts.1 call)
    (tracks : Timeout.Tracks system.timeouts.1 system.timeouts.2)
    (stepped : Timeout.recordedStep system.timeouts call = some next)
    : Timeout.Tracks next.1 next.2
      ∧ next.1.callback = system.timeouts.1.callback
      ∧ next.2.announced = system.timeouts.2.announced
      ∧ ∀ arming,
          arming.node = sliceNode → (arming ∈ next.2.pending ↔ arming ∈ system.timeouts.2.pending)
      := by
  obtain ⟨clock, moved, rfl⟩ := Option.map_eq_some_iff.mp stepped
  cases call with
  | addTimeout node fn timeout hw =>
      obtain ⟨other, inRange⟩ := others
      have added : clock.callback = system.timeouts.1.callback := by
        simp only [Timeout.step] at moved
        split at moved
        · cases moved
        · cases moved
          by_cases forever : timeout = kForever
          · rw [Timeout.Clock.zAddTimeout, if_pos forever]
          · obtain ⟨programmed, fields⟩ :=
              Timeout.zAddTimeout_fields system.timeouts.1 node fn forever hw
            rw [fields]
      refine ⟨tracks.addTimeout inRange moved, added, ?_, ?_⟩
      · simp only [Timeout.History.record]
        split <;> rfl
      · intro arming isSlice
        simp only [Timeout.History.record]
        split
        · exact Iff.rfl
        · refine mem_stableInsert.trans (or_iff_right ?_)
          rintro rfl
          exact other isSlice
  | abortTimeout node =>
      refine ⟨tracks.abortTimeout moved, ?_, rfl, ?_⟩
      · cases moved
        simp only [Timeout.Clock.zAbortTimeout]
        split <;> rfl
      · intro arming isSlice
        simp only [Timeout.History.record, Timeout.History.abort, List.mem_filter]
        refine and_iff_left (decide_eq_true ?_)
        rw [isSlice]
        exact Ne.symm others
  | announce ticks hw => exact others.elim
  | callbackReturns hw => exact others.elim

theorem announce_inRange {clock : Timeout.Clock Nat Unit} {ticks : Int32}
    (tracks : Timeout.Tracks clock history) (forward : 0 ≤ ticks)
    : Timeout.CallInRange clock (.announce ticks hw) := by
  intro entry listed
  have low := Int32.le_iff_toInt_le.mp forward
  rw [show (0 : Int32).toInt = 0 from rfl] at low
  have shifted : (entry.1, entry.2 + history.now)
      ∈ DeltaList.absolutes (0 + history.now) (Timeout.gaps clock.timeoutList) := by
    rw [DeltaList.absolutes_shift]
    exact List.mem_map_of_mem listed
  rw [Int.zero_add, tracks.positions] at shifted
  obtain ⟨arming, member, same⟩ := List.mem_map.mp shifted
  have bound := tracks.bounded arming member
  have expiry : arming.expiry = entry.2 + history.now := congrArg Prod.snd same
  omega

theorem Turns.step {state next : System × Turn} {call : Call}
    (turns : Turns config group lower state) (positive : 0 < config.sliceTicks)
    (stepped : recordedStep config state call = some next)
    : Turns config group lower next := by
  obtain ⟨system, turn⟩ := state
  obtain ⟨later, moved, rfl⟩ := Option.map_eq_some_iff.mp stepped
  obtain ⟨isGroup, tracked, announces, slice⟩ := turns
  dsimp only at isGroup tracked announces slice
  cases call with
  | timeout call =>
      simp only [TimeSlice.step] at moved
      split at moved
      · rename_i others
        obtain ⟨timeouts, ran, rfl⟩ := Option.map_eq_some_iff.mp moved
        obtain ⟨tracks, callback, announced, same⟩ := others.keeps tracked ran
        have runs : SliceRuns timeouts.1 ↔ SliceRuns system.timeouts.1 := by
          rw [SliceRuns, callback]
          rfl
        refine ⟨isGroup, tracks, fun running runs => announces running (callback ▸ runs), ?_⟩
        rcases slice with
          ⟨notExpired, notRuns, arming, member, isSlice, expiry⟩ | ⟨inside, le, clear, flag⟩
        · exact .inl ⟨notExpired, fun now => notRuns (runs.mp now), arming,
            (same arming isSlice).mpr member, isSlice, expiry⟩
        · refine .inr ⟨inside, le.trans_eq announced.symm, ?_, runs.trans flag⟩
          exact fun arming member isSlice => clear arming ((same arming isSlice).mp member) isSlice
      · cases moved
  | announce ticks hw =>
      simp only [TimeSlice.step] at moved
      split at moved
      · rename_i guard
        obtain ⟨timeouts, ran, rfl⟩ := Option.map_eq_some_iff.mp moved
        obtain ⟨clock, begins, rfl⟩ := Option.map_eq_some_iff.mp ran
        have tracks := tracked.announce (announce_inRange tracked guard.2) begins
        refine ⟨isGroup, tracks, fun _ _ => rfl, ?_⟩
        rcases slice with ⟨notExpired, notRuns, pending⟩ | ⟨inside, -⟩
        · have pending : Pending { system.timeouts.2 with
              announced := system.timeouts.2.announced + ticks.toInt } _ := pending
          rcases progress_pending pending tracks with ⟨quiet, pending⟩ | ⟨runs, le, clear⟩
          · exact .inl ⟨notExpired, quiet, pending⟩
          · exact .inr ⟨rfl, le.trans_eq (progress_announced _ _ _).symm, clear,
              iff_of_true runs notExpired⟩
        · rw [inside] at guard
          cases guard.1
      · cases moved
  | callbackReturns hw =>
      simp only [TimeSlice.step] at moved
      split at moved
      · cases moved
      · rename_i running callback
        obtain ⟨timeouts, ran, rfl⟩ := Option.map_eq_some_iff.mp moved
        obtain ⟨clock, returns, rfl⟩ := Option.map_eq_some_iff.mp ran
        have tracks := tracked.callbackReturns returns
        have announced := progress_announced system.timeouts.1 clock system.timeouts.2
        have inside := announces running callback
        refine ⟨isGroup, tracks, fun _ _ => inside, ?_⟩
        rcases slice with ⟨notExpired, notRuns, pending⟩ | ⟨-, le, clear, flag⟩
        · have other : running.node ≠ sliceNode :=
            fun isSlice => notRuns ⟨running, callback, isSlice⟩
          rcases progress_pending pending tracks with ⟨quiet, pending⟩ | ⟨runs, le, clear⟩
          · exact .inl ⟨by simp [notExpired, other], quiet, pending⟩
          · exact .inr ⟨inside, le.trans_eq announced.symm, clear,
              iff_of_true runs (by simp [notExpired, other])⟩
        · have listed (found : Timeout.Callback Nat Unit) (runs : clock.callback = some found)
              : found.node ∈ system.timeouts.2.pending.map Timeout.Arming.node := by
            simp only [Timeout.step, callback, Option.map_some] at returns
            cases returns
            rw [← tracked.nodes]
            unfold Timeout.Clock.announceResume at runs
            have listed := announceLoop_callback runs
            exact listed
          obtain ⟨quiet, clear⟩ := progress_clear clear listed
          refine .inr ⟨inside, le.trans_eq announced.symm, clear, iff_of_false quiet ?_⟩
          by_cases isSlice : running.node = sliceNode
          · simp [isSlice]
          · have expired : ¬system.sliceExpired = false := fun notExpired => by
              obtain ⟨found, runs, isFound⟩ := flag.mpr notExpired
              rw [callback] at runs
              cases runs
              exact isSlice isFound
            simp [Bool.not_eq_false] at expired
            simp [expired]
  | timeSlice hw =>
      simp only [TimeSlice.step] at moved
      split at moved
      · rename_i guard
        cases moved
        obtain ⟨-, idle, word⟩ := guard
        have quiet : ¬SliceRuns system.timeouts.1 := by
          rintro ⟨running, runs, -⟩
          rw [idle] at runs
          cases runs
        rcases slice with ⟨notExpired, notRuns, pending⟩ | ⟨-, -, -, flag⟩
        · have unchanged : zTimeSlice config system hw = system := by
            simp [zTimeSlice, notExpired]
          have sameTurn : turn.next system (.timeSlice hw) = turn := by
            simp [Turn.next, notExpired]
          rw [unchanged, sameTurn]
          refine ⟨isGroup.switch, tracked, fun running runs => ?_,
            .inl ⟨notExpired, notRuns, pending⟩⟩
          exact absurd (runs.symm.trans idle) (by simp)
        · have expired : system.sliceExpired = true :=
            Bool.eq_true_of_not_eq_false fun notExpired => quiet (flag.mpr notExpired)
          have nextTurn : turn.next system (.timeSlice hw)
              = ⟨system.timeouts.2.now + hw.toNat, turn.turns + 1⟩ := by
            simp [Turn.next, expired]
          obtain ⟨first, others, order⟩
              : ∃ first others, group.rotate turn.turns = first :: others := by
            have current := isGroup.current
            cases order : group.rotate turn.turns with
            | nil =>
                rw [order] at current
                cases current
            | cons first others => exact ⟨first, others, rfl⟩
          have rotated : group.rotate (turn.turns + 1) = others ++ [first] := by
            rw [← List.rotate_rotate, order, List.rotate_cons_succ, List.rotate_zero]
          rw [order] at isGroup
          obtain ⟨group', notExpired, armed⟩ := isGroup.expire tracked idle positive word expired
          rw [nextTurn]
          refine ⟨rotated ▸ group', armed.tracks, fun running runs => ?_,
            .inl ⟨notExpired, ?_, armed.pending⟩⟩
          · exact absurd (runs.symm.trans armed.callback) (by simp)
          · rintro ⟨running, runs, -⟩
            exact absurd (runs.symm.trans armed.callback) (by simp)
      · cases moved

/-- The threads of the group can be sliced, are queued and have one priority, and those behind them
are less urgent.
-/
structure Ready (config : Config) (threads : Nat → Sched.Thread) (group lower : List Nat)
    : Prop where
  nonempty : group ≠ []
  sliceable
    : ∀ thread ∈ group,
        threadIsSliceable config { threads := threads, current := 0, cache := 0 } thread = true
  queued : ∀ thread ∈ group, (threads thread).state.queued = true
  equal : ∀ thread ∈ group, ∀ other ∈ group, (threads thread).prio = (threads other).prio
  less : ∀ thread ∈ group, ∀ other ∈ lower, (threads thread).prio < (threads other).prio

theorem start_turns {threads : Nat → Sched.Thread}
    {timeouts : Timeout.Clock Nat Unit × Timeout.History Nat}
    (ready : Ready config threads group lower) (positive : 0 < config.sliceTicks)
    (tracks : Timeout.Tracks timeouts.1 timeouts.2) (idle : timeouts.1.callback = none)
    (word : hw.toNat < 2 ^ 31)
    : Turns config group lower (start config threads group lower timeouts hw) := by
  obtain ⟨first, others, rfl⟩ := List.exists_cons_of_ne_nil ready.nonempty
  let sched : Sched.System :=
    { threads := threads, runq := first :: others ++ lower, current := first, cache := first }
  obtain ⟨same, -, notExpired⟩ :=
    zResetTimeSlice_sched config { sched := sched, timeouts := timeouts } first hw
  have armed : Armed
      (zResetTimeSlice config { sched := sched, timeouts := timeouts } first hw).timeouts _ _ :=
    zResetTimeSlice_armed tracks idle positive word (ready.sliceable first List.mem_cons_self)
  refine ⟨?_, armed.tracks, fun running runs => ?_, .inl ⟨notExpired, ?_, armed.pending⟩⟩
  · simp only [start, List.headD_cons, List.rotate_zero]
    change Group config
      (zResetTimeSlice config { sched := sched, timeouts := timeouts } first hw).sched _ _
    rw [same]
    exact ⟨rfl, rfl, rfl, ready.sliceable, ready.queued, ready.equal, ready.less⟩
  · exact absurd (runs.symm.trans armed.callback) (by simp)
  · rintro ⟨running, runs, -⟩
    exact absurd (runs.symm.trans armed.callback) (by simp)

/-- At the end of an announcement the slice is over exactly if its deadline is announced. -/
theorem Turns.expired_iff {state : System × Turn} (turns : Turns config group lower state)
    (idle : state.1.timeouts.1.callback = none)
    : state.1.sliceExpired = true
      ↔ state.2.startedAt + config.sliceTicks.toInt ≤ state.1.timeouts.2.now := by
  have remaining := turns.tracks.remaining
  rw [idle] at remaining
  obtain ⟨-, announced, later⟩ := remaining
  rcases turns.slice with ⟨notExpired, -, arming, member, -, expiry⟩ | ⟨-, le, -, flag⟩
  · have notYet := later arming member
    rw [expiry] at notYet
    exact iff_of_false (by simp [notExpired]) (by omega)
  · refine iff_of_true (Bool.eq_true_of_not_eq_false fun notExpired => ?_) (by omega)
    obtain ⟨running, runs, -⟩ := flag.mpr notExpired
    rw [idle] at runs
    cases runs

theorem Turns.current {state : System × Turn} (turns : Turns config group lower state)
    : group[state.2.turns % group.length]? = some state.1.sched.current := by
  have current := turns.isGroup.current
  have nonempty : group ≠ [] := by
    rintro rfl
    simp at current
  rw [← current, ← List.rotate_mod,
    List.head?_rotate (Nat.mod_lt _ (List.length_pos_iff.mpr nonempty))]

end

end Zephyr.Kernel.TimeSlice
