import Zephyr.Kernel.Timeout.Model

/-! What has happened to each timeout, recorded beside the running queue.
The record keeps an unbounded clock, numbers the calls that arm a timeout, and stores for
each of them the absolute expiry it was given.
-/

namespace Zephyr.Kernel.Timeout

open Zephyr.Library Zephyr.Library.DeltaList

variable {τ φ : Type}

/-- One successful `z_add_timeout`: the record, its number and its absolute expiry. -/
structure Arming (τ : Type) where
  node : τ
  seq : Nat
  expiry : Int
  deriving DecidableEq, Repr

/-- One callback: the arming it ends, when it ran, and how many armings there had been. -/
structure Firing (τ : Type) where
  arming : Arming τ
  now : Int
  tick : UInt64
  armed : Nat
  deriving DecidableEq, Repr

/-- `now` is `curr_tick` without its wrap; `announced` adds up the announced ticks. -/
structure History (τ : Type) where
  now : Int := 0
  announced : Int := 0
  armed : Nat := 0
  pending : List (Arming τ) := []
  aborted : List (Arming τ) := []
  fired : List (Firing τ) := []
  deriving DecidableEq, Repr

def Arming.Before : Arming τ → Arming τ → Prop :=
  Precedes Arming.expiry Arming.seq

def History.arm (history : History τ) (node : τ) (expiry : Int) : History τ :=
  { history with
    armed := history.armed + 1
    pending := stableInsert Arming.expiry ⟨node, history.armed, expiry⟩ history.pending }

variable [DecidableEq τ]

def History.abort (history : History τ) (node : τ) : History τ :=
  { history with
    pending := history.pending.filter (fun arming => arming.node ≠ node)
    aborted := history.aborted ++ history.pending.filter (fun arming => arming.node = node) }

def History.fire (history : History τ) (node : τ) (now : Int) (tick : UInt64) : History τ :=
  { history with
    now := now
    pending := history.pending.filter (fun arming => arming.node ≠ node)
    fired :=
      history.fired
      ++ (history.pending.filter (fun arming => arming.node = node)).map
          (fun arming => ⟨arming, now, tick, history.armed⟩) }

/-- The effect of a part of `sys_clock_announce` that moved `curr_tick` and either started a
callback or finished.
-/
def History.progress (history : History τ) (before after : Clock τ φ) : History τ :=
  let now := history.now + (after.currTick - before.currTick).toInt64.toInt
  match after.callback with
  | some running => history.fire running.node now after.currTick
  | none => { history with now := now }

def History.record (history : History τ) (before : Clock τ φ) (after : Clock τ φ)
    : Call τ φ → History τ
  | .addTimeout node _ timeout hw =>
      if timeout = kForever then history
      else history.arm node (history.now + (before.requestedTicks timeout hw).toInt)
  | .abortTimeout node => history.abort node
  | .announce ticks _ =>
      { history with announced := history.announced + ticks.toInt }.progress before after
  | .callbackReturns _ => history.progress before after

/-- A step of the queue together with its record. -/
def recordedStep (state : Clock τ φ × History τ) (call : Call τ φ)
    : Option (Clock τ φ × History τ) :=
  (step state.1 call).map (fun next => (next, state.2.record state.1 next call))

/-! ### The invariant that ties the queue to its record -/

omit [DecidableEq τ] in
/-- The queue stores exactly the pending armings, in serving order and with their expiries,
and each arming so far is pending, aborted or fired, exactly once.
-/
structure Stored (clock : Clock τ φ) (history : History τ) : Prop where
  tick : clock.currTick.toInt64 = Int64.ofInt history.now
  forward : Forward (gaps clock.timeoutList)
  positions
    : absolutes history.now (gaps clock.timeoutList)
      = history.pending.map (fun arming => (arming.node, arming.expiry))
  bounded : ∀ arming ∈ history.pending, arming.expiry < history.now + 2 ^ 63
  unique : (history.pending.map Arming.node).Nodup
  ordered : history.pending.Pairwise Arming.Before
  accounted
    : (history.pending.map Arming.seq
        ++ (history.aborted.map Arming.seq
          ++ history.fired.map (fun firing => firing.arming.seq))).Perm
        (List.range history.armed)
  firedOnTime
    : ∀ firing ∈ history.fired,
        firing.now = firing.arming.expiry ∧ firing.tick.toInt64 = Int64.ofInt firing.now
  firedArmed : ∀ firing ∈ history.fired, firing.armed ≤ history.armed
  firedFirst
    : ∀ firing ∈ history.fired,
        ∀ arming ∈ history.pending,
          arming.seq < firing.armed → firing.arming.Before arming
  firedOrdered
    : history.fired.Pairwise
        (fun first second =>
          second.arming.seq < first.armed → first.arming.Before second.arming)

omit [DecidableEq τ] in
/-- Outside an announcement all announced ticks have been counted and nothing pending is
due; inside a callback the rest of the announcement is still to come.
-/
structure Tracks (clock : Clock τ φ) (history : History τ) : Prop
    extends Stored clock history where
  remaining
    : match clock.callback with
      | none =>
          clock.announceRemaining = 0
          ∧ history.announced = history.now
          ∧ ∀ arming ∈ history.pending, history.now < arming.expiry
      | some running =>
          0 ≤ running.dt.toInt
          ∧ running.dt.toInt ≤ clock.announceRemaining.toInt
          ∧ history.announced
            = history.now + (clock.announceRemaining.toInt - running.dt.toInt)

end Zephyr.Kernel.Timeout

/-! Every call keeps the queue and its record in step.
The only arithmetic side conditions are those of `CallInRange`.
-/

namespace Zephyr.Kernel.Timeout

open Zephyr.Library Zephyr.Library.DeltaList

variable {τ φ : Type}

theorem Stored.seq_lt {clock : Clock τ φ} {history : History τ} (stored : Stored clock history)
    : ∀ arming ∈ history.pending, arming.seq < history.armed := by
  intro arming member
  have listed : arming.seq ∈ List.range history.armed :=
    stored.accounted.mem_iff.mp (List.mem_append_left _ (List.mem_map_of_mem member))
  exact List.mem_range.mp listed

theorem Stored.nodes {clock : Clock τ φ} {history : History τ} (stored : Stored clock history)
    : clock.timeoutList.map Entry.node = history.pending.map Arming.node := by
  have firsts := congrArg (List.map Prod.fst) stored.positions
  simpa [Function.comp_def] using firsts

theorem Stored.now_le {clock : Clock τ φ} {history : History τ} (stored : Stored clock history)
    : ∀ arming ∈ history.pending, history.now ≤ arming.expiry := by
  intro arming member
  refine stored.forward.base_le (arming.node, arming.expiry) ?_
  rw [stored.positions]
  exact List.mem_map_of_mem member

/-- Arming a record that is not linked keeps the queue and its record in step.
Witness: the walk inserts the new expiry behind all that are not later, and its number is
the largest so far.
-/
theorem Stored.arm {clock : Clock τ φ} {history : History τ} {node : τ} {fn : φ}
    {dticks : Int64} (stored : Stored clock history) (nonneg : 0 ≤ dticks.toInt)
    (fresh : node ∉ clock.timeoutList.map Entry.node) {added : Clock τ φ}
    (tick : added.currTick = clock.currTick)
    (list : added.timeoutList = insertTimeout node fn dticks clock.timeoutList)
    : Stored added (history.arm node (history.now + dticks.toInt)) := by
  have inserted := gaps_insertTimeout node fn dticks _ nonneg stored.forward
  have high := dticks.toInt_lt
  refine {
    tick := by rw [tick]; exact stored.tick
    forward := ?_
    positions := ?_
    bounded := ?_
    unique := ?_
    ordered := pairwise_stableInsert stored.ordered stored.seq_lt
    accounted := ?_
    firedOnTime := stored.firedOnTime
    firedArmed := fun firing fired => Nat.le_succ_of_le (stored.firedArmed firing fired)
    firedFirst := ?_
    firedOrdered := stored.firedOrdered
  }
  · rw [list, inserted]
    exact stored.forward.insertGap nonneg
  · rw [list, inserted, absolutes_insertGap]
    simp only [History.arm, stored.positions]
    exact (List.map_orderedInsert (fun left right => left.expiry < right.expiry)
      (fun left right => left.2 < right.2)
      (fun arming : Arming τ => (arming.node, arming.expiry)) history.pending
      ⟨node, history.armed, history.now + dticks.toInt⟩ (by simp) (by simp)).symm
  · intro arming member
    rcases mem_stableInsert.mp member with same | earlier
    · subst same
      simp only [History.arm]
      omega
    · exact stored.bounded arming earlier
  · rw [stored.nodes] at fresh
    have perm := (perm_stableInsert Arming.expiry
      ⟨node, history.armed, history.now + dticks.toInt⟩ history.pending).map Arming.node
    exact perm.nodup_iff.mpr (List.nodup_cons.mpr ⟨fresh, stored.unique⟩)
  · have perm := (perm_stableInsert Arming.expiry
      ⟨node, history.armed, history.now + dticks.toInt⟩ history.pending).map Arming.seq
    simp only [History.arm, List.range_succ]
    exact (perm.append_right _).trans
      ((stored.accounted.cons history.armed).trans (List.perm_append_singleton _ _).symm)
  · intro firing fired arming member older
    rcases mem_stableInsert.mp member with same | earlier
    · have armed := stored.firedArmed firing fired
      rw [same] at older
      exact absurd older (Nat.not_lt.mpr armed)
    · exact stored.firedFirst firing fired arming earlier older

variable [DecidableEq τ]

theorem pending_split (pending : List (Arming τ)) (node : τ) (rest : List Nat)
    : (pending.map Arming.seq ++ rest).Perm
        ((pending.filter (fun arming => arming.node ≠ node)).map Arming.seq
          ++ ((pending.filter (fun arming => arming.node = node)).map Arming.seq ++ rest)) := by
  have split := List.filter_append_perm (fun arming => decide (arming.node = node)) pending
  have seqs := (split.symm.trans List.perm_append_comm).map Arming.seq
  simpa using seqs.append_right rest

/-- Aborting a record keeps the queue and its record in step.
Witness: the successor absorbs the removed gap, so no other expiry moves.
-/
theorem Stored.abort {clock : Clock τ φ} {history : History τ} (node : τ)
    (stored : Stored clock history) {next : Clock τ φ}
    (tick : next.currTick = clock.currTick)
    (list : next.timeoutList = removeTimeout node clock.timeoutList)
    : Stored next (history.abort node) := by
  have kept : (history.pending.filter (fun arming => arming.node ≠ node)).Sublist
      history.pending := List.filter_sublist
  have removed : gaps next.timeoutList = removeGap node (gaps clock.timeoutList) := by
    rw [list]
    refine gaps_removeTimeout node history.now history.now _ le_rfl stored.forward ?_
    rw [stored.positions]
    simpa using stored.bounded
  have unique : ((gaps clock.timeoutList).map Prod.fst).Nodup := by
    rw [gaps_fst, stored.nodes]
    exact stored.unique
  refine {
    tick := by rw [tick]; exact stored.tick
    forward := by rw [removed]; exact stored.forward.removeGap
    positions := ?_
    bounded := fun arming member => stored.bounded arming (kept.subset member)
    unique := stored.unique.sublist (kept.map _)
    ordered := stored.ordered.sublist kept
    accounted := ?_
    firedOnTime := stored.firedOnTime
    firedArmed := stored.firedArmed
    firedFirst := fun firing fired arming member =>
      stored.firedFirst firing fired arming (kept.subset member)
    firedOrdered := stored.firedOrdered
  }
  · rw [removed, absolutes_removeGap _ _ _ unique, History.abort, stored.positions,
      List.filter_map]
    rfl
  · refine List.Perm.trans ?_ stored.accounted
    refine List.Perm.trans ?_ (pending_split history.pending node _).symm
    simp only [History.abort, List.map_append, List.append_assoc]
    exact (List.perm_append_left_iff _).mpr
      (by simpa only [← List.append_assoc] using List.perm_append_comm.append_right _)

omit [DecidableEq τ] in
/-- The clock part of an announcement: `curr_tick` and the unbounded clock move together. -/
theorem advance_elapsed (clock : Clock τ φ) (ticks : Int32)
    : ((clock.advance ticks).currTick - clock.currTick).toInt64.toInt = ticks.toInt := by
  have moved : clock.currTick + ticks.toInt64.toUInt64 - clock.currTick
      = ticks.toInt64.toUInt64 := by
    rw [UInt64.add_comm, UInt64.add_sub_cancel]
  simp [Clock.advance, moved]

omit [DecidableEq τ] in
theorem advance_tick {clock : Clock τ φ} {now : Int}
    (tick : clock.currTick.toInt64 = Int64.ofInt now) (ticks : Int32)
    : (clock.advance ticks).currTick.toInt64 = Int64.ofInt (now + ticks.toInt) := by
  rw [Int64.ofInt_add, ← tick, ← Int32.toInt_toInt64, Int64.ofInt_toInt]
  simp [Clock.advance]

end Zephyr.Kernel.Timeout
