import Zephyr.Kernel.Timeout.Announce

/-! Timeouts are delivered exactly once, at their expiry and in order, along every run
whose additions stay within 64 bits.
-/

namespace Zephyr.Kernel.Timeout

open Zephyr.Library Zephyr.Library.DeltaList

variable {τ φ : Type} [DecidableEq τ]

/-- A relative timeout is added with a driver count that is not negative as `int32_t`, and
`timeout.ticks + 1 + elapsed()` fits in `int64_t`; an announcement of a negative count keeps
the remaining times in `int64_t`.
-/
def CallInRange (clock : Clock τ φ) : Call τ φ → Prop
  | .addTimeout _ _ timeout hw =>
      timeout = kForever
      ∨ zTickAbs timeout.ticks ≥ 0
      ∨ 0 ≤ (clock.elapsed hw).toInt
        ∧ timeout.ticks.toInt + 1 + (clock.elapsed hw).toInt < 2 ^ 63
  | .announce ticks _ =>
      ∀ entry ∈ absolutes 0 (gaps clock.timeoutList), entry.2 - ticks.toInt < 2 ^ 63
  | _ => True

instance CallInRange.decidable (clock : Clock τ φ)
    : (call : Call τ φ) → Decidable (CallInRange clock call)
  | .addTimeout _ _ timeout hw =>
      inferInstanceAs (Decidable (timeout = kForever
        ∨ zTickAbs timeout.ticks ≥ 0
        ∨ 0 ≤ (clock.elapsed hw).toInt
          ∧ timeout.ticks.toInt + 1 + (clock.elapsed hw).toInt < 2 ^ 63))
  | .announce ticks _ =>
      inferInstanceAs (Decidable (∀ entry ∈ absolutes 0 (gaps clock.timeoutList),
        entry.2 - ticks.toInt < 2 ^ 63))
  | .abortTimeout _ => .isTrue trivial
  | .callbackReturns _ => .isTrue trivial

/-- Every value below `K_TICKS_FOREVER` is an absolute timeout, so a relative one is at
least zero.
-/
theorem relative_ticks_nonneg {timeout : KTimeout} (finite : timeout ≠ kForever)
    (relative : ¬zTickAbs timeout.ticks ≥ 0)
    : 0 ≤ timeout.ticks.toInt := by
  have low := timeout.ticks.le_toInt
  have notForever : timeout.ticks.toInt ≠ -1 := by
    intro same
    exact finite (congrArg KTimeout.mk (Int64.toInt_inj.mp same))
  by_contra negative
  have exact' : (zTickAbs timeout.ticks).toInt = -2 - timeout.ticks.toInt := by
    have base : (kTicksForever - 1 : Int64).toInt = -2 := by decide
    have difference := toInt_sub_of_range (a := kTicksForever - 1) (b := timeout.ticks)
      (by omega) (by omega)
    rw [zTickAbs, difference, base]
  have zero : (0 : Int64).toInt = 0 := rfl
  exact relative (Int64.le_iff_toInt_le.mpr (by omega))

omit [DecidableEq τ] in
theorem requestedTicks_pos {clock : Clock τ φ} {timeout : KTimeout} {hw : UInt32}
    (finite : timeout ≠ kForever)
    (inRange
      : timeout = kForever
        ∨ zTickAbs timeout.ticks ≥ 0
        ∨ 0 ≤ (clock.elapsed hw).toInt
          ∧ timeout.ticks.toInt + 1 + (clock.elapsed hw).toInt < 2 ^ 63)
    : 0 < (clock.requestedTicks timeout hw).toInt := by
  have one : (1 : Int64).toInt = 1 := rfl
  by_cases absolute : zTickAbs timeout.ticks ≥ 0
  · simp only [Clock.requestedTicks, absolute, if_true, cMax]
    split
    · omega
    · rename_i notLess
      have least := Int64.le_iff_toInt_le.mp (Int64.not_lt.mp notLess)
      omega
  · rcases inRange with forever | future | ⟨low, high⟩
    · exact absurd forever finite
    · exact absurd future absolute
    · have ticks := relative_ticks_nonneg finite absolute
      simp only [Clock.requestedTicks, absolute, if_false]
      rw [Int64.toInt_add, Int64.toInt_add, Int.bmod_add_bmod, one, Int32.toInt_toInt64,
        Int.bmod_eq_of_le (by omega) (by omega)]
      omega

/-- `z_add_timeout` links the record and may program the driver; the clock stands still. -/
theorem zAddTimeout_fields (clock : Clock τ φ) (node : τ) (fn : φ) {timeout : KTimeout}
    (finite : timeout ≠ kForever) (hw : UInt32)
    : ∃ programmed,
        clock.zAddTimeout node fn timeout hw
        = { clock with
            timeoutList :=
              insertTimeout node fn (clock.requestedTicks timeout hw) clock.timeoutList
            programmed := programmed } := by
  simp only [Clock.zAddTimeout, finite, if_false]
  split
  · exact ⟨_, rfl⟩
  · exact ⟨_, rfl⟩

theorem Tracks.addTimeout {clock next : Clock τ φ} {history : History τ} {node : τ} {fn : φ}
    {timeout : KTimeout} {hw : UInt32} (tracks : Tracks clock history)
    (inRange : CallInRange clock (.addTimeout node fn timeout hw))
    (stepped : Timeout.step clock (.addTimeout node fn timeout hw) = some next)
    : Tracks next (history.record clock next (.addTimeout node fn timeout hw)) := by
  have remaining := tracks.remaining
  by_cases forever : timeout = kForever
  · have same : clock = next := by
      simpa [Timeout.step, forever, Clock.zAddTimeout] using stepped
    simpa [History.record, forever, same] using tracks
  · have pos := requestedTicks_pos forever inRange
    have fresh : ¬clock.isLinked node := by
      intro linked
      simp [Timeout.step, forever, linked] at stepped
    have added : next = clock.zAddTimeout node fn timeout hw := by
      simpa [Timeout.step, fresh] using stepped.symm
    obtain ⟨programmed, fields⟩ := zAddTimeout_fields clock node fn forever hw
    rw [fields] at added
    subst added
    rw [isLinked_iff] at fresh
    simp only [History.record, forever, if_false]
    refine { toStored := tracks.arm pos.le fresh rfl rfl, remaining := ?_ }
    cases running : clock.callback with
    | none =>
        rw [running] at remaining
        refine ⟨remaining.1, remaining.2.1, ?_⟩
        intro arming member
        rcases mem_stableInsert.mp member with same | earlier
        · rw [same]
          change history.now < history.now + (clock.requestedTicks timeout hw).toInt
          omega
        · exact remaining.2.2 arming earlier
    | some callback =>
        rw [running] at remaining
        exact remaining

theorem Tracks.abortTimeout {clock next : Clock τ φ} {history : History τ} {node : τ}
    (tracks : Tracks clock history)
    (stepped : Timeout.step clock (.abortTimeout node) = some next)
    : Tracks next (history.abort node) := by
  have remaining := tracks.remaining
  by_cases linked : clock.isLinked node
  · have aborted : { clock with timeoutList := removeTimeout node clock.timeoutList } = next := by
      simpa [Timeout.step, Clock.zAbortTimeout, linked] using stepped
    subst aborted
    refine { toStored := tracks.abort node rfl rfl, remaining := ?_ }
    cases running : clock.callback with
    | none =>
        rw [running] at remaining
        exact ⟨remaining.1, remaining.2.1,
          fun arming member => remaining.2.2 arming (List.mem_of_mem_filter member)⟩
    | some callback =>
        rw [running] at remaining
        exact remaining
  · have same : clock = next := by
      simpa [Timeout.step, Clock.zAbortTimeout, linked] using stepped
    have others : ∀ arming ∈ history.pending, arming.node ≠ node := by
      rw [isLinked_iff, tracks.nodes] at linked
      exact fun arming member same => linked (same ▸ List.mem_map_of_mem member)
    have kept : history.pending.filter (fun arming => arming.node ≠ node) = history.pending :=
      List.filter_eq_self.mpr (fun arming member => decide_eq_true (others arming member))
    have taken : history.pending.filter (fun arming => arming.node = node) = [] := by
      rw [List.filter_eq_nil_iff]
      intro arming member
      simpa using others arming member
    have unchanged : history.abort node = history := by
      simp only [History.abort, kept, taken, List.append_nil]
    rwa [unchanged, ← same]

theorem Tracks.announce {clock next : Clock τ φ} {history : History τ} {ticks : Int32}
    {hw : UInt32} (tracks : Tracks clock history)
    (inRange : CallInRange clock (.announce ticks hw))
    (stepped : Timeout.step clock (.announce ticks hw) = some next)
    : Tracks next (history.record clock next (.announce ticks hw)) := by
  have remaining := tracks.remaining
  cases running : clock.callback with
  | some callback => simp [Timeout.step, running] at stepped
  | none =>
      rw [running] at remaining
      have announced : clock.sysClockAnnounce ticks hw = next := by
        simpa [Timeout.step, running] using stepped
      subst announced
      have stored : Stored { clock with announceRemaining := ticks }
          { history with announced := history.announced + ticks.toInt } :=
        { tracks.toStored with }
      refine stored.announceLoop hw ?_ ?_
      · change history.announced + ticks.toInt = history.now + ticks.toInt
        rw [remaining.2.1]
      · intro arming member
        have listed : (arming.node, arming.expiry)
            ∈ absolutes (0 + history.now) (gaps clock.timeoutList) := by
          rw [Int.zero_add, tracks.positions]
          exact List.mem_map_of_mem member
        rw [absolutes_shift] at listed
        obtain ⟨entry, present, same⟩ := List.mem_map.mp listed
        have bound := inRange entry present
        have expiry : entry.2 + history.now = arming.expiry := congrArg Prod.snd same
        change arming.expiry < history.now + ticks.toInt + 2 ^ 63
        omega

theorem Tracks.callbackReturns {clock next : Clock τ φ} {history : History τ} {hw : UInt32}
    (tracks : Tracks clock history)
    (stepped : Timeout.step clock (.callbackReturns hw) = some next)
    : Tracks next (history.record clock next (.callbackReturns hw)) := by
  have remaining := tracks.remaining
  cases running : clock.callback with
  | none => simp [Timeout.step, running] at stepped
  | some callback =>
      rw [running] at remaining
      obtain ⟨low, high, announced⟩ := remaining
      have resumed : clock.announceResume callback.dt hw = next := by
        simpa [Timeout.step, running] using stepped
      subst resumed
      have limit := clock.announceRemaining.toInt_lt
      have left : (clock.announceRemaining - callback.dt).toInt
          = clock.announceRemaining.toInt - callback.dt.toInt :=
        toInt32_sub_of_range (by omega) (by omega)
      have stored : Stored
          { clock with
            announceRemaining := clock.announceRemaining - callback.dt
            callback := none }
          history :=
        { tracks.toStored with }
      refine stored.announceLoop hw ?_ ?_
      · rw [left]
        exact announced
      · intro arming member
        have bound := tracks.bounded arming member
        rw [left]
        omega

theorem Tracks.step {clock next : Clock τ φ} {history : History τ} {call : Call τ φ}
    (tracks : Tracks clock history) (inRange : CallInRange clock call)
    (stepped : Timeout.step clock call = some next)
    : Tracks next (history.record clock next call) := by
  cases call with
  | addTimeout node fn timeout hw => exact tracks.addTimeout inRange stepped
  | abortTimeout node => exact tracks.abortTimeout stepped
  | announce ticks hw => exact tracks.announce inRange stepped
  | callbackReturns hw => exact tracks.callbackReturns stepped

omit [DecidableEq τ] in
theorem Tracks.initial : Tracks ({} : Clock τ φ) ({} : History τ) where
  tick := rfl
  forward := by simp [gaps, Forward]
  positions := rfl
  bounded := by simp
  unique := by simp
  ordered := by simp
  accounted := by simp
  firedOnTime := by simp
  firedArmed := by simp
  firedFirst := by simp
  firedOrdered := by simp
  remaining := ⟨rfl, rfl, by simp⟩

/-! ### What every run delivers -/

/-- The start of every run: no timeout has been added yet. -/
def recordedStart : Clock τ φ × History τ :=
  ({}, {})

/-- In every run of additions, aborts and announcements whose calls are in range, gaps are
never negative and every pending timeout keeps the expiry it was armed with; each arming is
pending, aborted or fired and only one of these, once; a timeout fires when the clock reads
its expiry, in order of expiry and of arming, and none stays pending past its expiry.
Witness: the record tracks the queue along the run.
-/
theorem timeouts_fire_once_at_expiry {calls : List (Call τ φ)} {clock : Clock τ φ}
    {history : History τ}
    (inRange
      : RunMeets recordedStep (fun state => CallInRange state.1) recordedStart calls)
    (ran : run recordedStep recordedStart calls = some (clock, history))
    : (∀ entry ∈ clock.timeoutList, 0 ≤ entry.dticks)
      ∧ clock.currTick.toInt64 = Int64.ofInt history.now
      ∧ absolutes history.now (gaps clock.timeoutList)
        = history.pending.map (fun arming => (arming.node, arming.expiry))
      ∧ (history.pending.map Arming.seq
          ++ (history.aborted.map Arming.seq
            ++ history.fired.map (fun firing => firing.arming.seq))).Perm
          (List.range history.armed)
      ∧ (∀ firing ∈ history.fired,
          firing.now = firing.arming.expiry
          ∧ firing.tick.toInt64 = Int64.ofInt firing.arming.expiry)
      ∧ history.fired.Pairwise
          (fun first second =>
            second.arming.seq < first.armed → first.arming.Before second.arming)
      ∧ (∀ firing ∈ history.fired,
          ∀ arming ∈ history.pending,
            arming.seq < firing.armed → firing.arming.Before arming)
      ∧ (∀ arming ∈ history.pending, history.now ≤ arming.expiry)
      ∧ (clock.callback = none
          → history.now = history.announced
            ∧ ∀ arming ∈ history.pending, history.now < arming.expiry) := by
  have tracks : Tracks clock history := by
    refine run_invariant_of_meets (fun state => Tracks state.1 state.2)
      ?_ Tracks.initial inRange ran
    intro state call next tracks inRange stepped
    obtain ⟨clockNext, stepped', same⟩ := Option.map_eq_some_iff.mp stepped
    subst same
    exact tracks.step inRange stepped'
  refine ⟨?_, tracks.tick, tracks.positions, tracks.accounted, ?_, tracks.firedOrdered,
    tracks.firedFirst, tracks.now_le, ?_⟩
  · intro entry member
    exact Int64.le_iff_toInt_le.mpr
      (tracks.forward (entry.node, entry.dticks.toInt) (List.mem_map_of_mem member))
  · intro firing member
    obtain ⟨onTime, tick⟩ := tracks.firedOnTime firing member
    exact ⟨onTime, onTime ▸ tick⟩
  · intro idle
    have remaining := tracks.remaining
    rw [idle] at remaining
    exact ⟨remaining.2.1.symm, remaining.2.2⟩

/-- Two records due at tick 6 and one aborted; the first callback adds a fourth, due later. -/
def deliveryCalls : List (Call Nat Unit) :=
  [.addTimeout 1 () ⟨5⟩ 0, .addTimeout 2 () ⟨zTickAbs 6⟩ 0, .addTimeout 3 () ⟨2⟩ 1,
    .abortTimeout 3, .announce 7 0, .addTimeout 4 () ⟨3⟩ 0, .callbackReturns 0,
    .callbackReturns 0]

theorem deliveryCalls_fire_once_at_expiry
    : RunMeets recordedStep (fun state => CallInRange state.1) recordedStart deliveryCalls
      ∧ ∃ clock history,
          run recordedStep recordedStart deliveryCalls = some (clock, history)
          ∧ history.fired.map (fun firing => (firing.arming.node, firing.now)) = [(1, 6), (2, 6)]
          ∧ absolutes history.now (gaps clock.timeoutList)
            = history.pending.map (fun arming => (arming.node, arming.expiry)) := by
  have inRange : RunMeets recordedStep (fun state => CallInRange state.1) recordedStart
      deliveryCalls := by decide
  obtain ⟨state, ran⟩ : ∃ state, run recordedStep recordedStart deliveryCalls = some state :=
    Option.isSome_iff_exists.mp (by decide)
  refine ⟨inRange, state.1, state.2, ran, ?_, (timeouts_fire_once_at_expiry inRange ran).2.2.1⟩
  have fired : (run recordedStep recordedStart deliveryCalls).map
      (fun state => state.2.fired.map (fun firing => (firing.arming.node, firing.now)))
      = some [(1, 6), (2, 6)] := by decide
  simpa [ran] using fired

/-- `K_TICKS(INT64_MAX - 1)` added one tick after the last announcement overflows: its gap is
negative, and the next announced tick fires it at once.
-/
theorem long_timeout_overflows
    : ∃ added announced : Clock Nat Unit × History Nat,
        run recordedStep recordedStart [.addTimeout 1 () ⟨9223372036854775806⟩ 1] = some added
        ∧ ¬(∀ entry ∈ added.1.timeoutList, 0 ≤ entry.dticks)
        ∧ run recordedStep added [.announce 1 0] = some announced
        ∧ announced.1.currTick = 0
        ∧ announced.1.callback.map Callback.node = some 1 :=
  ⟨_, _, rfl, by decide, rfl, by decide, by decide⟩

end Zephyr.Kernel.Timeout
