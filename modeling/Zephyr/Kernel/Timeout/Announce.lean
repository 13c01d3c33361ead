import Zephyr.Kernel.Timeout.Tracking

/-! The loop of `sys_clock_announce` fires the first pending arming exactly at its expiry,
or moves the clock on when nothing is due.
-/

namespace Zephyr.Kernel.Timeout

open Zephyr.Library Zephyr.Library.DeltaList

variable {τ φ : Type} [DecidableEq τ]

omit [DecidableEq τ] in
theorem Stored.announceEnd {clock : Clock τ φ} {history : History τ} (hw : UInt32)
    (stored : Stored clock history)
    (notDue
      : ∀ t ∈ clock.timeoutList.head?, clock.announceRemaining.toInt < t.dticks.toInt)
    (bounded
      : ∀ arming ∈ history.pending,
          arming.expiry < history.now + clock.announceRemaining.toInt + 2 ^ 63)
    : Stored (clock.announceEnd hw)
        { history with now := history.now + clock.announceRemaining.toInt } := by
  have tick := advance_tick stored.tick clock.announceRemaining
  have positions := stored.positions
  have forward := stored.forward
  cases list : clock.timeoutList with
  | nil =>
      rw [list] at positions
      refine { stored with tick := ?_, forward := ?_, positions := ?_, bounded := bounded }
      · simpa [Clock.announceEnd, Clock.program] using tick
      · simp [Clock.announceEnd, Clock.program, list, gaps, Forward]
      · simpa [Clock.announceEnd, Clock.program, list, gaps, absolutes] using positions
  | cons t rest =>
      have later := notDue t (by simp [list])
      rw [list, gaps_cons, absolutes] at positions
      rw [list] at forward
      obtain ⟨arming, others, pending⟩ : ∃ arming others, history.pending = arming :: others := by
        cases pending : history.pending with
        | nil => simp [pending] at positions
        | cons arming others => exact ⟨arming, others, rfl⟩
      have expiry : history.now + t.dticks.toInt = arming.expiry := by
        rw [pending] at positions
        exact congrArg Prod.snd (List.cons.inj positions).1
      have high := bounded arming (by simp [pending])
      have exact' := toInt_sub_of_range (a := t.dticks) (b := clock.announceRemaining.toInt64)
        (by rw [Int32.toInt_toInt64]; omega) (by rw [Int32.toInt_toInt64]; omega)
      rw [Int32.toInt_toInt64] at exact'
      have moved : history.now + clock.announceRemaining.toInt
          + (t.dticks.toInt - clock.announceRemaining.toInt) = history.now + t.dticks.toInt := by
        omega
      refine { stored with tick := ?_, forward := ?_, positions := ?_, bounded := bounded }
      · simpa [Clock.announceEnd, Clock.program] using tick
      · intro entry member
        simp only [Clock.announceEnd, Clock.program, list, gaps_cons, List.mem_cons] at member
        rcases member with same | other
        · subst same
          rw [exact']
          omega
        · exact forward.tail entry other
      · simpa [Clock.announceEnd, Clock.program, list, gaps_cons, absolutes, exact', moved]
          using positions

omit [DecidableEq τ] in
/-- When the first record is further away than `ticks`, so is every pending arming. -/
theorem Stored.pending_later {clock : Clock τ φ} {history : History τ} {ticks : Int}
    (stored : Stored clock history)
    (notDue : ∀ t ∈ clock.timeoutList.head?, ticks < t.dticks.toInt)
    : ∀ arming ∈ history.pending, history.now + ticks < arming.expiry := by
  have positions := stored.positions
  have ordered := stored.ordered
  cases list : clock.timeoutList with
  | nil =>
      have none : history.pending = [] := by simpa [list, gaps, absolutes] using positions.symm
      simp [none]
  | cons t rest =>
      rw [list, gaps_cons, absolutes] at positions
      have later := notDue t (by simp [list])
      cases pending : history.pending with
      | nil => simp
      | cons first others =>
          rw [pending] at positions ordered
          have expiry : history.now + t.dticks.toInt = first.expiry :=
            congrArg Prod.snd (List.cons.inj positions).1
          intro arming member
          rcases List.mem_cons.mp member with same | other
          · rw [same]
            omega
          · have ordered' : first.expiry ≤ arming.expiry :=
              ((List.pairwise_cons.mp ordered).1 arming other).key_le
            omega

/-- Starting the callback of a due first record fires its arming at its expiry.
Witness: its gap is what the clock moves by, so the clock reaches the expiry exactly, and
the first arming comes before all others that are pending.
-/
theorem Stored.fire {clock : Clock τ φ} {history : History τ} {t : Entry τ φ}
    {rest : List (Entry τ φ)} {dt : Int32} (stored : Stored clock history)
    (list : clock.timeoutList = t :: rest) (gap : dt.toInt = t.dticks.toInt)
    {next : Clock τ φ} (moved : next.currTick = (clock.advance dt).currTick)
    (listNext : next.timeoutList = rest)
    : Stored next (history.fire t.node (history.now + dt.toInt) next.currTick) := by
  have positions := stored.positions
  have forward := stored.forward
  have unique := stored.unique
  have ordered := stored.ordered
  have accounted := stored.accounted
  have firedFirst := stored.firedFirst
  have bounded := stored.bounded
  have tick := advance_tick stored.tick dt
  rw [list, gaps_cons, absolutes] at positions
  rw [list] at forward
  have nonneg : 0 ≤ t.dticks.toInt := forward (t.node, t.dticks.toInt) (by simp [gaps])
  cases pending : history.pending with
  | nil => simp [pending] at positions
  | cons arming others =>
      rw [pending] at positions unique ordered accounted firedFirst bounded
      obtain ⟨first, later⟩ := List.cons.inj positions
      have node : t.node = arming.node := congrArg Prod.fst first
      have expiry : history.now + t.dticks.toInt = arming.expiry := congrArg Prod.snd first
      obtain ⟨fresh, uniqueOthers⟩ := List.nodup_cons.mp unique
      obtain ⟨firstBefore, orderedOthers⟩ := List.pairwise_cons.mp ordered
      have others' : ∀ other ∈ others, other.node ≠ t.node := by
        intro other member same
        exact fresh (node ▸ same ▸ List.mem_map_of_mem member)
      have kept : (arming :: others).filter (fun other => other.node ≠ t.node) = others := by
        rw [List.filter_cons_of_neg (by simp [node])]
        exact List.filter_eq_self.mpr (fun other member => decide_eq_true (others' other member))
      have taken : (arming :: others).filter (fun other => other.node = t.node) = [arming] := by
        rw [List.filter_cons_of_pos (by simp [node]), List.filter_eq_nil_iff.mpr]
        intro other member
        simpa using others' other member
      simp only [History.fire, pending, kept, taken, List.map_cons, List.map_nil]
      refine {
        tick := by rw [moved]; exact tick
        forward := by rw [listNext]; exact forward.tail
        positions := by rw [listNext, gap]; exact later
        bounded := ?_
        unique := uniqueOthers
        ordered := orderedOthers
        accounted := ?_
        firedOnTime := ?_
        firedArmed := ?_
        firedFirst := ?_
        firedOrdered := ?_
      }
      · intro other member
        have high := bounded other (by simp [member])
        simp only
        omega
      · refine List.Perm.trans ?_ accounted
        simp only [List.map_append, List.map_cons, List.map_nil, List.cons_append,
          ← List.append_assoc]
        exact List.perm_append_singleton _ _
      · intro firing member
        rcases List.mem_append.mp member with earlier | now
        · exact stored.firedOnTime firing earlier
        · rw [List.mem_singleton.mp now]
          exact ⟨by simp only; omega, by simp only; rw [moved]; exact tick⟩
      · intro firing member
        rcases List.mem_append.mp member with earlier | now
        · exact stored.firedArmed firing earlier
        · rw [List.mem_singleton.mp now]
      · intro firing member other pendingOther older
        rcases List.mem_append.mp member with earlier | now
        · exact firedFirst firing earlier other (by simp [pendingOther]) older
        · rw [List.mem_singleton.mp now]
          exact firstBefore other pendingOther
      · refine List.pairwise_append.mpr ⟨stored.firedOrdered, by simp, ?_⟩
        intro firing earlier last now
        rw [List.mem_singleton.mp now]
        exact firedFirst firing earlier arming (by simp)

omit [DecidableEq τ] in
/-- Clearing the `dticks` of the first record and removing it leaves the rest untouched. -/
theorem removeTimeout_head [DecidableEq τ] (t : Entry τ φ) (rest : List (Entry τ φ))
    : removeTimeout t.node ({ t with dticks := 0 } :: rest) = rest := by
  cases rest with
  | nil => simp [removeTimeout]
  | cons next later => simp [removeTimeout]

theorem Stored.announceLoop {clock : Clock τ φ} {history : History τ} (hw : UInt32)
    (stored : Stored clock history)
    (announced
      : history.announced = history.now + clock.announceRemaining.toInt)
    (bounded
      : ∀ arming ∈ history.pending,
          arming.expiry < history.now + clock.announceRemaining.toInt + 2 ^ 63)
    : Tracks (clock.announceLoop hw) (history.progress clock (clock.announceLoop hw)) := by
  have ends
      (notDue
        : ∀ t ∈ clock.timeoutList.head?, clock.announceRemaining.toInt < t.dticks.toInt)
      : Tracks (clock.announceEnd hw) (history.progress clock (clock.announceEnd hw)) := by
    have elapsed := advance_elapsed clock clock.announceRemaining
    have same : (clock.announceEnd hw).currTick
        = (clock.advance clock.announceRemaining).currTick := rfl
    have after : history.progress clock (clock.announceEnd hw)
        = { history with now := history.now + clock.announceRemaining.toInt } := by
      simp only [History.progress, same, elapsed]
      rfl
    rw [after]
    exact { stored.announceEnd hw notDue bounded with
      remaining := ⟨rfl, announced, stored.pending_later notDue⟩ }
  cases list : clock.timeoutList with
  | nil =>
      simp only [Clock.announceLoop, list]
      exact ends (by simp [list])
  | cons t rest =>
      by_cases due : t.dticks ≤ clock.announceRemaining.toInt64
      · have due' : t.dticks.toInt ≤ clock.announceRemaining.toInt := by
          simpa using Int64.le_iff_toInt_le.mp due
        have nonneg : 0 ≤ t.dticks.toInt :=
          stored.forward (t.node, t.dticks.toInt) (by simp [gaps, list])
        have high := clock.announceRemaining.toInt_lt
        have gap : t.dticks.toInt32.toInt = t.dticks.toInt :=
          toInt_toInt32_of_range (by omega) (by omega)
        have elapsed := advance_elapsed clock t.dticks.toInt32
        simp only [Clock.announceLoop, list, due, if_true, removeTimeout_head,
          History.progress, elapsed]
        refine { toStored := stored.fire list gap rfl rfl, remaining := ?_ }
        change 0 ≤ t.dticks.toInt32.toInt
          ∧ t.dticks.toInt32.toInt ≤ clock.announceRemaining.toInt
          ∧ history.announced = history.now + t.dticks.toInt32.toInt
            + (clock.announceRemaining.toInt - t.dticks.toInt32.toInt)
        omega
      · have notDue : clock.announceRemaining.toInt < t.dticks.toInt := by
          have less := Int64.not_le.mp due
          simpa using Int64.lt_iff_toInt_lt.mp less
        simp only [Clock.announceLoop, list, due, if_false]
        exact ends (by simpa [list] using notDue)

end Zephyr.Kernel.Timeout
