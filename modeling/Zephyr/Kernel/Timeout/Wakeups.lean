import Zephyr.Kernel.Timeout.Periodic

/-! What `timeout.c` tells others: its callers about a timeout (`z_timeout_expires`,
`z_timeout_remaining`), and the driver about its next interrupt (`sys_clock_set_timeout`).
-/

namespace Zephyr.Kernel.Timeout

open Zephyr.Library Zephyr.Library.DeltaList

variable {τ φ : Type} [DecidableEq τ] {calls : List (Call τ φ)} {clock next : Clock τ φ}
  {history after : History τ} {hw : UInt32}

/-! ### Queries -/

/-- The gaps add up to the expiry, in 64 bits. -/
theorem timeoutRem_eq {node : τ} {expiry : Int} {list : List (Entry τ φ)} {base : Int}
    (unique : (list.map Entry.node).Nodup)
    (member : (node, expiry) ∈ absolutes base (gaps list))
    : Int64.ofInt base + timeoutRem node list = Int64.ofInt expiry := by
  induction list generalizing base with
  | nil => cases member
  | cons t rest ih =>
      obtain ⟨fresh, uniqueRest⟩ := List.nodup_cons.mp unique
      have next : Int64.ofInt (base + t.dticks.toInt) = Int64.ofInt base + t.dticks := by
        rw [Int64.ofInt_add, Int64.ofInt_toInt]
      rw [gaps_cons, absolutes] at member
      rcases List.mem_cons.mp member with here | later
      · obtain ⟨same, expires⟩ := Prod.mk.inj here
        rw [timeoutRem, if_pos same.symm, expires, next]
      · have other : t.node ≠ node := by
          intro same
          have present := List.mem_map_of_mem (f := Prod.fst) later
          rw [absolutes_fst, gaps_fst] at present
          exact fresh (same ▸ present)
        rw [timeoutRem, if_neg other, ← Int64.add_assoc, ← next, ih uniqueRest later]

/-- In every run, a pending timeout is said to expire when it was armed to, and to have left what
the driver's clock has to go until then; any other one has nothing left.
-/
theorem queries_tell_expiry
    (inRange
      : RunMeets recordedStep (fun state => CallInRange state.1) recordedStart calls)
    (ran : run recordedStep recordedStart calls = some (clock, history)) (hw : UInt32)
    : (∀ arming ∈ history.pending,
        clock.zTimeoutExpires arming.node = Int64.ofInt arming.expiry
        ∧ clock.zTimeoutRemaining arming.node hw
          = Int64.ofInt (arming.expiry - (history.now + (clock.elapsed hw).toInt)))
      ∧ ∀ node,
          node ∉ history.pending.map Arming.node
          → clock.zTimeoutExpires node = Int64.ofInt history.now
            ∧ clock.zTimeoutRemaining node hw = 0 := by
  have tracks : Tracks clock history := by
    refine run_invariant_of_meets (fun state => Tracks state.1 state.2) ?_ Tracks.initial inRange
      ran
    intro state call next tracks inRange stepped
    obtain ⟨clockNext, moved, rfl⟩ := Option.map_eq_some_iff.mp stepped
    exact tracks.step inRange moved
  refine ⟨fun arming member => ?_, fun node absent => ?_⟩
  · have linked : clock.isLinked arming.node := by
      rw [isLinked_iff, tracks.nodes]
      exact List.mem_map_of_mem member
    have unique : (clock.timeoutList.map Entry.node).Nodup := by
      rw [tracks.nodes]
      exact tracks.unique
    have listed : (arming.node, arming.expiry)
        ∈ absolutes history.now (gaps clock.timeoutList) := by
      rw [tracks.positions]
      exact List.mem_map_of_mem member
    have expires := timeoutRem_eq unique listed
    rw [Clock.zTimeoutExpires, Clock.zTimeoutRemaining, if_pos linked, if_pos linked,
      tracks.tick]
    refine ⟨expires, ?_⟩
    rw [← Int.sub_sub, Int64.ofInt_sub, Int64.ofInt_sub, ← expires, ← Int32.toInt_toInt64,
      Int64.ofInt_toInt, Int64.add_comm, Int64.add_sub_cancel]
  · have linked : ¬clock.isLinked node := by
      rwa [isLinked_iff, tracks.nodes]
    rw [Clock.zTimeoutExpires, Clock.zTimeoutRemaining, if_neg linked, if_neg linked]
    exact ⟨tracks.tick, rfl⟩

theorem deliveryCalls_tell_expiry
    : ∃ clock history,
        run recordedStep recordedStart deliveryCalls = some (clock, history)
        ∧ ∀ arming ∈ history.pending,
            clock.zTimeoutExpires arming.node = Int64.ofInt arming.expiry := by
  have inRange : RunMeets recordedStep (fun state => CallInRange state.1) recordedStart
      deliveryCalls := by decide
  obtain ⟨state, ran⟩ : ∃ state, run recordedStep recordedStart deliveryCalls = some state :=
    Option.isSome_iff_exists.mp (by decide)
  exact ⟨state.1, state.2, ran, fun arming member =>
    ((queries_tell_expiry inRange ran 0).1 arming member).1⟩

/-! ### The driver's next interrupt -/

/-- When the driver was told last, and the tick its interrupt is due at. -/
structure Wake where
  setAt : Int := 0
  due : Int := 0

def Wake.set (clock : Clock τ φ) (history : History τ) (hw : UInt32) : Wake :=
  let now := history.now + (clock.elapsed hw).toInt
  ⟨now, now + clock.programmed.toInt⟩

/-- The calls of `sys_clock_set_timeout`: an added record that is the first one, and the end of an
announcement. `clock` and `history` are those after the call.
-/
def Wake.record (wake : Wake) (clock : Clock τ φ) (history : History τ) : Call τ φ → Wake
  | .addTimeout node _ timeout hw =>
      if timeout ≠ kForever ∧ clock.first.map Entry.node = some node then .set clock history hw
      else wake
  | .abortTimeout _ => wake
  | .announce _ hw => if clock.callback.isNone then .set clock history hw else wake
  | .callbackReturns hw => if clock.callback.isNone then .set clock history hw else wake

def wakeStep (state : (Clock τ φ × History τ) × Wake) (call : Call τ φ)
    : Option ((Clock τ φ × History τ) × Wake) :=
  (recordedStep state.1 call).map (fun next => (next, state.2.record next.1 next.2 call))

def wakeStart : (Clock τ φ × History τ) × Wake :=
  (recordedStart, {})

/-- A difference that overflows upwards becomes negative. -/
theorem toInt_sub_le {a b : Int64} (low : -2 ^ 63 ≤ a.toInt - b.toInt)
    : (a - b).toInt ≤ a.toInt - b.toInt := by
  by_cases high : a.toInt - b.toInt < 2 ^ 63
  · exact (toInt_sub_of_range low high).le
  · have := (a - b).toInt_lt
    omega

omit [DecidableEq τ] in
/-- `next_timeout` is never later than what a pending arming has left. -/
theorem Stored.nextTimeout_le (stored : Stored clock history) (hw : UInt32)
    : ∀ arming ∈ history.pending,
        (clock.nextTimeout hw).toInt
        ≤ max 0 (arming.expiry - (history.now + (clock.elapsed hw).toInt)) := by
  intro arming member
  cases list : clock.timeoutList with
  | nil =>
      have nodes := stored.nodes
      rw [list] at nodes
      exact absurd (List.map_eq_nil_iff.mp nodes.symm) (List.ne_nil_of_mem member)
  | cons t rest =>
      have first : clock.first = some t := by rw [Clock.first, list]; rfl
      have notBefore : history.now + (t.dticks.toInt - 1) < arming.expiry :=
        stored.pending_later (by simp [list]) arming member
      have nonneg : 0 ≤ t.dticks.toInt :=
        stored.forward (t.node, t.dticks.toInt) (by simp [gaps, list])
      have high := (clock.elapsed hw).toInt_lt
      have left := toInt_sub_le (a := t.dticks) (b := (clock.elapsed hw).toInt64)
        (by rw [Int32.toInt_toInt64]; omega)
      rw [Int32.toInt_toInt64] at left
      have limit : intMax.toInt64.toInt = 2147483647 := by decide
      simp only [Clock.nextTimeout, first]
      split
      · rename_i far
        have far := Int64.lt_iff_toInt_lt.mp far
        have wait : maxWait.toInt = 2147483647 := by decide
        omega
      · rename_i near
        have near := Int64.le_iff_toInt_le.mp (Int64.not_lt.mp near)
        have larger := toInt_cMax 0 (t.dticks - (clock.elapsed hw).toInt64)
        have zero : (0 : Int64).toInt = 0 := rfl
        rw [toInt_toInt32_of_range (by omega) (by omega)]
        omega

/-- The driver is programmed to what it was told, and outside announcements no timeout expires
between then and its interrupt.
-/
structure Wakes (clock : Clock τ φ) (history : History τ) (wake : Wake) : Prop
    extends Tracks clock history where
  told : wake.due = wake.setAt + clock.programmed.toInt
  inTime
    : clock.callback = none → ∀ arming ∈ history.pending, wake.due ≤ max arming.expiry wake.setAt

variable {wake : Wake} {node : τ} {fn : φ} {timeout : KTimeout}

omit [DecidableEq τ] in
theorem Tracks.wakes_of_set (tracks : Tracks clock history)
    (programmed : clock.programmed = clock.nextTimeout hw)
    : Wakes clock history (.set clock history hw) := by
  refine { tracks with told := rfl, inTime := fun _ arming member => ?_ }
  have left := tracks.nextTimeout_le hw arming member
  rw [← programmed] at left
  simp only [Wake.set]
  omega

theorem zAddTimeout_programmed (added : clock.zAddTimeout node fn timeout hw = next)
    (finite : timeout ≠ kForever)
    : next.first.map Entry.node = some node ∧ next.programmed = next.nextTimeout hw
      ∨ next.first.map Entry.node ≠ some node
        ∧ next.programmed = clock.programmed
        ∧ next.callback = clock.callback := by
  simp only [Clock.zAddTimeout, finite, if_false] at added
  split at added
  · rename_i ahead
    subst added
    exact .inl ⟨ahead, rfl⟩
  · rename_i behind
    subst added
    exact .inr ⟨behind, rfl, rfl⟩

omit [DecidableEq τ] in
/-- A record behind the first one expires no earlier than that one. -/
theorem Wakes.behind (wakes : Wakes clock history wake) (tracks : Tracks next after)
    (old : ∀ arming ∈ after.pending, arming.node ≠ node → arming ∈ history.pending)
    (behind : next.first.map Entry.node ≠ some node)
    (programmed : next.programmed = clock.programmed) (callback : next.callback = clock.callback)
    : Wakes next after wake := by
  refine { tracks with told := programmed ▸ wakes.told, inTime := fun idle arming member => ?_ }
  have nodes := tracks.nodes
  have ordered := tracks.ordered
  cases pending : after.pending with
  | nil => simp [pending] at member
  | cons head others =>
      rw [pending] at nodes ordered member old
      have ahead : next.first.map Entry.node = some head.node := by
        rw [Clock.first, ← List.head?_map, nodes]
        rfl
      have early := wakes.inTime (callback ▸ idle) head
        (old head List.mem_cons_self fun same => behind (same ▸ ahead))
      rcases List.mem_cons.mp member with same | later
      · exact same ▸ early
      · have : head.expiry ≤ arming.expiry :=
          ((List.pairwise_cons.mp ordered).1 arming later).key_le
        omega

/-- A part of `sys_clock_announce` ends in a callback, or with the driver programmed. -/
theorem announceLoop_programmed (clock : Clock τ φ) (hw : UInt32)
    : (clock.announceLoop hw).callback = none
        ∧ (clock.announceLoop hw).programmed = (clock.announceLoop hw).nextTimeout hw
      ∨ (clock.announceLoop hw).callback ≠ none
        ∧ (clock.announceLoop hw).programmed = clock.programmed := by
  unfold Clock.announceLoop
  split
  · exact .inl ⟨rfl, rfl⟩
  · split
    · exact .inr ⟨Option.some_ne_none _, rfl⟩
    · exact .inl ⟨rfl, rfl⟩

theorem Wakes.announceLoop (wakes : Wakes clock history wake)
    (tracks : Tracks (next.announceLoop hw) after) (same : next.programmed = clock.programmed)
    : Wakes (next.announceLoop hw) after
        (if (next.announceLoop hw).callback.isNone then .set (next.announceLoop hw) after hw
        else wake) := by
  rcases announceLoop_programmed next hw with ⟨idle, programmed⟩ | ⟨running, kept⟩
  · rw [if_pos (by rw [idle]; rfl)]
    exact tracks.wakes_of_set programmed
  · rw [if_neg (by rwa [Option.isNone_iff_eq_none])]
    exact { tracks with
      told := by rw [kept, same]; exact wakes.told
      inTime := fun idle => absurd idle running }

theorem Wakes.step {call : Call τ φ} (wakes : Wakes clock history wake)
    (inRange : CallInRange clock call) (stepped : Timeout.step clock call = some next)
    : Wakes next (history.record clock next call)
        (wake.record next (history.record clock next call) call) := by
  have tracks := wakes.toTracks.step inRange stepped
  cases call with
  | addTimeout node fn timeout hw =>
      have added := Option.some.inj (Option.ite_none_left_eq_some.mp stepped).2
      by_cases forever : timeout = kForever
      · obtain rfl : clock = next := by simpa [forever, Clock.zAddTimeout] using added
        simpa [History.record, Wake.record, forever] using wakes
      rcases zAddTimeout_programmed added forever with ⟨ahead, programmed⟩ | ⟨behind, kept⟩
      · rw [Wake.record, if_pos ⟨forever, ahead⟩]
        exact tracks.wakes_of_set programmed
      · rw [Wake.record, if_neg fun both => behind both.2]
        refine wakes.behind tracks (fun arming member other => ?_) behind kept.1 kept.2
        simp only [History.record, forever, if_false] at member
        exact (mem_stableInsert.mp member).resolve_left fun same =>
          other (congrArg Arming.node same)
  | abortTimeout node =>
      have kept : next.programmed = clock.programmed ∧ next.callback = clock.callback := by
        obtain rfl := Option.some.inj stepped
        unfold Clock.zAbortTimeout
        split
        · exact ⟨rfl, rfl⟩
        · exact ⟨rfl, rfl⟩
      exact { tracks with
        told := kept.1 ▸ wakes.told
        inTime := fun idle arming member =>
          wakes.inTime (kept.2 ▸ idle) arming (List.mem_of_mem_filter member) }
  | announce ticks hw =>
      obtain rfl := Option.some.inj (Option.ite_none_left_eq_some.mp stepped).2
      exact wakes.announceLoop tracks rfl
  | callbackReturns hw =>
      obtain ⟨running, -, rfl⟩ := Option.map_eq_some_iff.mp stepped
      exact wakes.announceLoop tracks rfl

/-- In every run, outside announcements, the driver's interrupt is due by the expiry of every
pending timeout, or at once where that had passed when the driver was told.
-/
theorem driver_wakes_in_time
    (inRange : RunMeets wakeStep (fun state => CallInRange state.1.1) wakeStart calls)
    (ran : run wakeStep wakeStart calls = some ((clock, history), wake))
    : wake.due = wake.setAt + clock.programmed.toInt
      ∧ (clock.callback = none
          → ∀ arming ∈ history.pending, wake.due ≤ max arming.expiry wake.setAt) := by
  have start : Wakes ({} : Clock τ φ) ({} : History τ) {} :=
    { Tracks.initial with told := rfl, inTime := fun _ _ member => by cases member }
  have wakes := run_invariant_of_meets
    (fun state : (Clock τ φ × History τ) × Wake => Wakes state.1.1 state.1.2 state.2) ?_ start
    inRange ran
  · exact ⟨wakes.told, wakes.inTime⟩
  · intro state call next wakes inRange stepped
    obtain ⟨recorded, both, rfl⟩ := Option.map_eq_some_iff.mp stepped
    obtain ⟨clockNext, moved, rfl⟩ := Option.map_eq_some_iff.mp both
    exact wakes.step inRange moved

theorem deliveryCalls_wake_in_time
    : ∃ clock history wake,
        run wakeStep wakeStart deliveryCalls = some ((clock, history), wake)
        ∧ ∀ arming ∈ history.pending, wake.due ≤ max arming.expiry wake.setAt := by
  have inRange : RunMeets wakeStep (fun state => CallInRange state.1.1) wakeStart
      deliveryCalls := by decide
  obtain ⟨state, ran⟩ : ∃ state, run wakeStep wakeStart deliveryCalls = some state :=
    Option.isSome_iff_exists.mp (by decide)
  have ends : (run wakeStep wakeStart deliveryCalls).map (fun state => state.1.1.callback)
      = some none := by decide
  rw [ran] at ends
  exact ⟨state.1.1, state.1.2, state.2, ran,
    (driver_wakes_in_time inRange ran).2 (Option.some.inj ends)⟩

end Zephyr.Kernel.Timeout
