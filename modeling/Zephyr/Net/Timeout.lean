import Mathlib
import Zephyr.Library.Run

/-! Network timeouts (`net_timeout.c`): a lifetime in seconds is kept as a number of longest delays
and a residual, next to a rolling clock of 32 bits in milliseconds.
-/

namespace Zephyr.Net.Timeout

open Zephyr.Library

-----------------------------------------------------------------------------------------
-- The functions of the source
-----------------------------------------------------------------------------------------

/-- `NET_TIMEOUT_MAX_VALUE` -/
def netTimeoutMaxValue : UInt32 := 2147483647

/-- `struct net_timeout` without its list node. -/
structure NetTimeout where
  timerStart : UInt32
  timerTimeout : UInt32
  wrapCounter : UInt32
  deriving DecidableEq, Repr

def netTimeoutSet (lifetime now : UInt32) : NetTimeout :=
  if lifetime = 0 then ⟨now, 0, 0⟩
  else
    let expireTimeout : UInt64 := 1000 * lifetime.toUInt64
    let wrapCounter := (expireTimeout / netTimeoutMaxValue.toUInt64).toUInt32
    let timerTimeout :=
      (expireTimeout - netTimeoutMaxValue.toUInt64 * wrapCounter.toUInt64).toUInt32
    -- a residual of zero is what a timeout has that is over
    if timerTimeout = 0 then ⟨now, netTimeoutMaxValue, wrapCounter - 1⟩
    else ⟨now, timerTimeout, wrapCounter⟩

def netTimeoutDeadline (timeout : NetTimeout) (now : Int64) : Int64 :=
  let start := now.toUInt64 - (now.toUInt64.toUInt32 - timeout.timerStart).toUInt64
  let deadline := start + timeout.timerTimeout.toUInt64
  (deadline + netTimeoutMaxValue.toUInt64 * timeout.wrapCounter.toUInt64).toInt64

def netTimeoutEvaluate (timeout : NetTimeout) (now : UInt32) : NetTimeout × UInt32 :=
  let elapsed := now - timeout.timerStart
  let wraps := timeout.wrapCounter > 0
  let lastDelay := if wraps then netTimeoutMaxValue else timeout.timerTimeout
  let remains := (lastDelay - elapsed).toInt32
  if remains > 0 then (timeout, remains.toUInt32)
  else if ¬wraps then (timeout, 0)
  else
    let elapsed := elapsed - netTimeoutMaxValue
    let wrapCounter := timeout.wrapCounter - 1
    let timeout :=
      if timeout.timerTimeout > elapsed then
        ⟨now, timeout.timerTimeout - elapsed, wrapCounter⟩
      -- the counter is decremented once more, whether there is a wrap left or not
      else ⟨now, timeout.timerTimeout + (netTimeoutMaxValue - elapsed), wrapCounter - 1⟩
    (timeout, if timeout.wrapCounter = 0 then timeout.timerTimeout else netTimeoutMaxValue)

-----------------------------------------------------------------------------------------
-- A timeout that is evaluated again and again
-----------------------------------------------------------------------------------------

/-- What one evaluation did, at the full time `now` in milliseconds. -/
structure Evaluation where
  now : Nat
  before : NetTimeout
  after : NetTimeout
  ret : UInt32
  deriving DecidableEq, Repr

/-- A timeout, the time of its last evaluation, and the time that this one asked to be called at. -/
structure Watch where
  timeout : NetTimeout
  now : Nat
  due : Nat
  evaluations : List Evaluation := []
  deriving DecidableEq, Repr

/-- A timeout that has been set asks for what an evaluation at the same time would return. -/
def start (lifetime : UInt32) (now : Nat) : Watch :=
  let timeout := netTimeoutSet lifetime (.ofNat now)
  { timeout := timeout
    now := now
    due := now + (netTimeoutEvaluate timeout (.ofNat now)).2.toNat }

/-- An evaluation, before it is due or late by less than the longest delay. -/
def step (watch : Watch) (now : Nat) : Option Watch :=
  if watch.now ≤ now ∧ now < watch.due + netTimeoutMaxValue.toNat then
    let (timeout, ret) := netTimeoutEvaluate watch.timeout (.ofNat now)
    some {
      timeout := timeout
      now := now
      due := now + ret.toNat
      evaluations := ⟨now, watch.timeout, timeout, ret⟩ :: watch.evaluations }
  else none

/-- What an evaluation is to do for a timeout that ends at `deadline`. -/
structure Evaluation.Right (deadline : Nat) (evaluation : Evaluation) : Prop where
  ends : evaluation.ret = 0 ↔ deadline ≤ evaluation.now
  within : evaluation.ret ≠ 0 → evaluation.now + evaluation.ret.toNat ≤ deadline
  keeps
    : evaluation.ret ≠ 0
      → netTimeoutDeadline evaluation.after (.ofNat evaluation.now)
        = netTimeoutDeadline evaluation.before (.ofNat evaluation.now)

/-- The deadline is not reached, or it is, no wrap is left, and the difference to it is one that
32 bits tell from a time before it.
-/
def Timely (deadline : Nat) (watch : Watch) (now : Nat) : Prop :=
  now < deadline ∨ watch.timeout.wrapCounter = 0 ∧ (now - deadline) % 2 ^ 32 ≤ 2 ^ 31

instance (deadline : Nat) (watch : Watch) (now : Nat) : Decidable (Timely deadline watch now) :=
  inferInstanceAs (Decidable (_ ∨ _ ∧ _))

-----------------------------------------------------------------------------------------
-- What a timeout stands for
-----------------------------------------------------------------------------------------

/-- The timeout was set or reduced at the full time `since`, and ends at `deadline`. -/
structure NetTimeout.Holds (timeout : NetTimeout) (since deadline : Nat) : Prop where
  timerStart : timeout.timerStart = .ofNat since
  bounded : timeout.timerTimeout.toNat ≤ netTimeoutMaxValue.toNat
  residual : 0 < timeout.wrapCounter.toNat → 0 < timeout.timerTimeout.toNat
  deadline_eq
    : deadline
      = since + timeout.timerTimeout.toNat
        + netTimeoutMaxValue.toNat * timeout.wrapCounter.toNat

theorem netTimeoutMaxValue_toNat : netTimeoutMaxValue.toNat = 2147483647 :=
  rfl

/-- A lifetime is the longest delays that it has room for and a residual, of which one is taken for
the residual if nothing else is left.
-/
theorem netTimeoutSet_holds (lifetime : UInt32) (now : Nat)
    : (netTimeoutSet lifetime (.ofNat now)).Holds now (now + 1000 * lifetime.toNat) := by
  have range := lifetime.toNat_lt
  by_cases zero : lifetime = 0
  · subst zero
    exact ⟨rfl, by simp [netTimeoutSet], by simp [netTimeoutSet], by simp [netTimeoutSet]⟩
  have positive : 0 < lifetime.toNat :=
    Nat.pos_of_ne_zero fun none => zero (UInt32.toNat.inj none)
  have expire : (1000 * lifetime.toUInt64).toNat = 1000 * lifetime.toNat := by
    simp [UInt64.toNat_mul]
    omega
  simp only [netTimeoutSet, if_neg zero]
  generalize 1000 * lifetime.toUInt64 = expireTimeout at expire ⊢
  have wraps : (expireTimeout / netTimeoutMaxValue.toUInt64).toUInt32.toNat
      = 1000 * lifetime.toNat / 2147483647 := by
    simp [expire, netTimeoutMaxValue]
    omega
  generalize (expireTimeout / netTimeoutMaxValue.toUInt64).toUInt32 = wrapCounter at wraps ⊢
  have residual : (expireTimeout
        - netTimeoutMaxValue.toUInt64 * wrapCounter.toUInt64).toUInt32.toNat
      = 1000 * lifetime.toNat % 2147483647 := by
    simp only [UInt64.toNat_toUInt32, UInt64.toNat_sub, UInt64.toNat_mul, UInt32.toNat_toUInt64,
      expire, wraps, netTimeoutMaxValue_toNat]
    omega
  generalize (expireTimeout
    - netTimeoutMaxValue.toUInt64 * wrapCounter.toUInt64).toUInt32 = timerTimeout at residual ⊢
  split
  · rename_i none
    have exact : 1000 * lifetime.toNat % 2147483647 = 0 := by
      rw [← residual, none]
      rfl
    have less : (wrapCounter - 1).toNat = wrapCounter.toNat - 1 := by
      rw [UInt32.toNat_sub_of_le]
      · rfl
      · rw [UInt32.le_iff_toNat_le, wraps, UInt32.toNat_one]
        omega
    refine ⟨rfl, Nat.le_refl _, fun _ => netTimeoutMaxValue_toNat ▸ by decide, ?_⟩
    rw [less, wraps, netTimeoutMaxValue_toNat]
    omega
  · rename_i some
    have positive : 0 < timerTimeout.toNat :=
      Nat.pos_of_ne_zero fun none => some (UInt32.toNat.inj none)
    refine ⟨rfl, ?_, fun _ => positive, ?_⟩
    · rw [residual, netTimeoutMaxValue_toNat]
      omega
    · rw [residual, wraps, netTimeoutMaxValue_toNat]
      omega

theorem NetTimeout.Holds.elapsed {timeout : NetTimeout} {since deadline now : Nat}
    (holds : timeout.Holds since deadline) (later : since ≤ now)
    : (UInt32.ofNat now - timeout.timerStart).toNat = (now - since) % 2 ^ 32 := by
  rw [holds.timerStart]
  simp [UInt32.toNat_sub]
  omega

theorem NetTimeout.Holds.netTimeoutDeadline_eq {timeout : NetTimeout} {since deadline now : Nat}
    (holds : timeout.Holds since deadline) (later : since ≤ now) (recent : now - since < 2 ^ 32)
    : netTimeoutDeadline timeout (.ofNat now) = .ofNat deadline := by
  have elapsed := holds.elapsed later
  rw [Nat.mod_eq_of_lt recent] at elapsed
  have deadline_eq := holds.deadline_eq
  have wraps := timeout.wrapCounter.toNat_lt
  rw [netTimeoutMaxValue_toNat] at deadline_eq
  have same : (Int64.ofNat now).toUInt64 = .ofNat now := rfl
  have low : (UInt64.ofNat now).toUInt32 = .ofNat now :=
    UInt32.toNat.inj (by simp)
  have sum : (UInt64.ofNat now - (UInt32.ofNat now - timeout.timerStart).toUInt64
        + timeout.timerTimeout.toUInt64
        + netTimeoutMaxValue.toUInt64 * timeout.wrapCounter.toUInt64)
      = .ofNat deadline := by
    apply UInt64.toNat.inj
    simp only [UInt64.toNat_add, UInt64.toNat_sub, UInt64.toNat_mul, UInt32.toNat_toUInt64,
      UInt64.toNat_ofNat', elapsed, netTimeoutMaxValue_toNat]
    omega
  simp only [netTimeoutDeadline, same, low, sum]
  rfl

-----------------------------------------------------------------------------------------
-- One evaluation
-----------------------------------------------------------------------------------------

section

variable {timeout : NetTimeout} {since deadline now : Nat}

theorem toInt32_pos_iff (word : UInt32)
    : word.toInt32 > 0 ↔ 0 < word.toNat ∧ word.toNat < 2 ^ 31 := by
  have range := word.toNat_lt
  have signed : word.toInt32.toInt = (word.toNat : Int).bmod (2 ^ 32) :=
    BitVec.toInt_eq_toNat_bmod word.toBitVec
  rw [gt_iff_lt, Int32.lt_iff_toInt_lt, signed, Int32.toInt_zero, Int.bmod]
  split <;> omega

/-- The time that is left of a delay, as `remains` has it before it is taken as a signed number. -/
theorem NetTimeout.Holds.remains (holds : timeout.Holds since deadline) (later : since ≤ now)
    (delay : UInt32)
    : (delay - (UInt32.ofNat now - timeout.timerStart)).toNat
      = (2 ^ 32 - (now - since) % 2 ^ 32 + delay.toNat) % 2 ^ 32 := by
  rw [UInt32.toNat_sub, holds.elapsed later]

/-- Without a wrap an evaluation changes nothing, and returns what is left if that is a positive
number of 32 bits.
-/
theorem netTimeoutEvaluate_last (holds : timeout.Holds since deadline) (later : since ≤ now)
    (last : timeout.wrapCounter = 0)
    : (netTimeoutEvaluate timeout (.ofNat now)).1 = timeout
      ∧ (now < deadline
          → (netTimeoutEvaluate timeout (.ofNat now)).2.toNat = deadline - now)
      ∧ (deadline ≤ now
          → ((netTimeoutEvaluate timeout (.ofNat now)).2 = 0
            ↔ (now - deadline) % 2 ^ 32 ≤ 2 ^ 31)) := by
  have remains := holds.remains later timeout.timerTimeout
  obtain ⟨-, bounded, -, deadline_eq⟩ := holds
  rw [last, UInt32.toNat_zero, Nat.mul_zero, Nat.add_zero] at deadline_eq
  rw [netTimeoutMaxValue_toNat] at bounded
  have notWraps : ¬timeout.wrapCounter > 0 := by simp [last]
  simp only [netTimeoutEvaluate, notWraps, toInt32_pos_iff, not_false_eq_true, if_true, if_false]
  generalize timeout.timerTimeout - (UInt32.ofNat now - timeout.timerStart) = left at remains ⊢
  by_cases positive : 0 < left.toNat ∧ left.toNat < 2 ^ 31
  · rw [if_pos positive]
    refine ⟨rfl, fun before => ?_, fun reached => ?_⟩
    · simp only [UInt32.toUInt32_toInt32]
      omega
    · rw [UInt32.toUInt32_toInt32]
      refine iff_of_false (fun isZero => ?_) ?_
      · have none : left = 0 := isZero
        rw [none, UInt32.toNat_zero] at positive
        omega
      · omega
  · rw [if_neg positive]
    refine ⟨rfl, fun before => ?_, fun reached => ?_⟩
    · omega
    · refine iff_of_true rfl ?_
      omega

/-- Before the longest delay is over the rest of it is left. -/
theorem netTimeoutEvaluate_early (holds : timeout.Holds since deadline) (later : since ≤ now)
    (wraps : 0 < timeout.wrapCounter.toNat) (early : now < since + 2147483647)
    : (netTimeoutEvaluate timeout (.ofNat now)).1 = timeout
      ∧ (netTimeoutEvaluate timeout (.ofNat now)).2.toNat = since + 2147483647 - now := by
  have remains := holds.remains later netTimeoutMaxValue
  rw [netTimeoutMaxValue_toNat] at remains
  have isWraps : timeout.wrapCounter > 0 := UInt32.lt_iff_toNat_lt.mpr wraps
  simp only [netTimeoutEvaluate, if_pos isWraps, toInt32_pos_iff]
  generalize netTimeoutMaxValue - (UInt32.ofNat now - timeout.timerStart) = left at remains ⊢
  rw [if_pos (by omega)]
  refine ⟨rfl, ?_⟩
  simp only [UInt32.toUInt32_toInt32]
  omega

/-- The evaluation of a timeout whose longest delay is over: what the source does then. -/
theorem netTimeoutEvaluate_late (holds : timeout.Holds since deadline)
    (wraps : 0 < timeout.wrapCounter.toNat) (past : since + 2147483647 ≤ now)
    (late : now < since + 2 * 2147483647)
    : ∃ elapsed : UInt32,
        elapsed.toNat = now - since - 2147483647
        ∧ (netTimeoutEvaluate timeout (.ofNat now)).1
          = (if timeout.timerTimeout > elapsed then
              ⟨.ofNat now, timeout.timerTimeout - elapsed, timeout.wrapCounter - 1⟩
            else
              ⟨.ofNat now, timeout.timerTimeout + (netTimeoutMaxValue - elapsed),
                timeout.wrapCounter - 1 - 1⟩)
        ∧ (netTimeoutEvaluate timeout (.ofNat now)).2
          = if (netTimeoutEvaluate timeout (.ofNat now)).1.wrapCounter = 0 then
              (netTimeoutEvaluate timeout (.ofNat now)).1.timerTimeout
            else netTimeoutMaxValue := by
  have later : since ≤ now := by omega
  have remains := holds.remains later netTimeoutMaxValue
  have elapsed := holds.elapsed later
  rw [netTimeoutMaxValue_toNat] at remains
  have isWraps : timeout.wrapCounter > 0 := UInt32.lt_iff_toNat_lt.mpr wraps
  have notPositive
      : ¬(netTimeoutMaxValue - (UInt32.ofNat now - timeout.timerStart)).toInt32 > 0 := by
    rw [toInt32_pos_iff]
    omega
  refine ⟨UInt32.ofNat now - timeout.timerStart - netTimeoutMaxValue, ?_, ?_, ?_⟩
  · rw [UInt32.toNat_sub, elapsed, netTimeoutMaxValue_toNat]
    omega
  all_goals
    simp only [netTimeoutEvaluate, isWraps, if_true, notPositive, if_false, not_true_eq_false]

/-- Once it is over the timeout is reduced by the time since it was set. -/
theorem netTimeoutEvaluate_reduced (holds : timeout.Holds since deadline)
    (wraps : 0 < timeout.wrapCounter.toNat) (past : since + 2147483647 ≤ now)
    (late : now < since + 2 * 2147483647) (before : now < deadline)
    : (netTimeoutEvaluate timeout (.ofNat now)).1.Holds now deadline
      ∧ 0 < (netTimeoutEvaluate timeout (.ofNat now)).1.timerTimeout.toNat := by
  obtain ⟨elapsed, elapsed_eq, after, -⟩ := netTimeoutEvaluate_late holds wraps past late
  obtain ⟨-, bounded, residual, deadline_eq⟩ := holds
  rw [netTimeoutMaxValue_toNat] at bounded deadline_eq
  have positive := residual wraps
  have range := timeout.wrapCounter.toNat_lt
  have one : (timeout.wrapCounter - 1).toNat = timeout.wrapCounter.toNat - 1 := by
    rw [UInt32.toNat_sub, UInt32.toNat_one]
    omega
  rw [after]
  split
  · rename_i more
    have more := UInt32.lt_iff_toNat_lt.mp more
    have less : (timeout.timerTimeout - elapsed).toNat
        = timeout.timerTimeout.toNat - elapsed.toNat := by
      rw [UInt32.toNat_sub]
      omega
    refine ⟨⟨rfl, ?_, ?_, ?_⟩, ?_⟩
    all_goals
      simp only [less, one, netTimeoutMaxValue_toNat]
      omega
  · rename_i notMore
    have notMore : ¬elapsed.toNat < timeout.timerTimeout.toNat :=
      fun more => notMore (UInt32.lt_iff_toNat_lt.mpr more)
    -- the deadline is later, so there is another wrap to take
    have two : 2 ≤ timeout.wrapCounter.toNat := by omega
    have rest : (timeout.timerTimeout + (netTimeoutMaxValue - elapsed)).toNat
        = timeout.timerTimeout.toNat + 2147483647 - elapsed.toNat := by
      rw [UInt32.toNat_add, UInt32.toNat_sub, netTimeoutMaxValue_toNat]
      omega
    have less : (timeout.wrapCounter - 1 - 1).toNat = timeout.wrapCounter.toNat - 2 := by
      rw [UInt32.toNat_sub, one, UInt32.toNat_one]
      omega
    refine ⟨⟨rfl, ?_, ?_, ?_⟩, ?_⟩
    all_goals
      simp only [rest, less, netTimeoutMaxValue_toNat]
      omega

/-- With one wrap left, an evaluation at the deadline takes another one and does not end. -/
theorem netTimeoutEvaluate_missed (holds : timeout.Holds since deadline)
    (wraps : 0 < timeout.wrapCounter.toNat) (late : now < since + 2 * 2147483647)
    (reached : deadline ≤ now)
    : (netTimeoutEvaluate timeout (.ofNat now)).2 = netTimeoutMaxValue := by
  obtain ⟨-, -, -, deadline_eq⟩ := id holds
  rw [netTimeoutMaxValue_toNat] at deadline_eq
  have past : since + 2147483647 ≤ now := by
    have : 2147483647 ≤ 2147483647 * timeout.wrapCounter.toNat := Nat.le_mul_of_pos_right _ wraps
    omega
  obtain ⟨elapsed, elapsed_eq, after, ret⟩ := netTimeoutEvaluate_late holds wraps past late
  have single : timeout.wrapCounter = 1 := UInt32.toNat.inj (by rw [UInt32.toNat_one]; omega)
  have notMore : ¬timeout.timerTimeout > elapsed := by
    rw [gt_iff_lt, UInt32.lt_iff_toNat_lt]
    rw [single, UInt32.toNat_one] at deadline_eq
    omega
  rw [if_neg notMore, single] at after
  rw [ret, after]
  rfl

end

-----------------------------------------------------------------------------------------
-- All evaluations of a run
-----------------------------------------------------------------------------------------

/-- The timeout stands for `deadline`, and while a wrap is left it is due when the longest delay is
over.
-/
structure Watch.Follows (watch : Watch) (since deadline : Nat) : Prop where
  holds : watch.timeout.Holds since deadline
  since_le : since ≤ watch.now
  due : 0 < watch.timeout.wrapCounter.toNat → watch.due = since + 2147483647

theorem start_follows (lifetime : UInt32) (now : Nat)
    : (start lifetime now).Follows now (now + 1000 * lifetime.toNat) := by
  have holds := netTimeoutSet_holds lifetime now
  refine ⟨holds, Nat.le_refl _, fun wraps => ?_⟩
  have early := netTimeoutEvaluate_early holds (Nat.le_refl _) wraps (by omega)
  simp only [start, early.2]
  omega

theorem step_eq {watch next : Watch} {now : Nat} (stepped : step watch now = some next)
    : watch.now ≤ now
      ∧ now < watch.due + 2147483647
      ∧ next
        = { timeout := (netTimeoutEvaluate watch.timeout (.ofNat now)).1
            now := now
            due := now + (netTimeoutEvaluate watch.timeout (.ofNat now)).2.toNat
            evaluations :=
              ⟨now, watch.timeout, (netTimeoutEvaluate watch.timeout (.ofNat now)).1,
                (netTimeoutEvaluate watch.timeout (.ofNat now)).2⟩
              :: watch.evaluations } := by
  simp only [step] at stepped
  split at stepped
  · rename_i guard
    exact ⟨guard.1, guard.2, (Option.some.inj stepped).symm⟩
  · cases stepped

section

variable {watch next : Watch} {since deadline now : Nat}

/-- What an evaluation returns is the time to the deadline, or a part of it. -/
theorem right_of_positive {before after : NetTimeout} {ret : UInt32} (waits : now < deadline)
    (positive : 0 < ret.toNat) (within : now + ret.toNat ≤ deadline)
    (same
      : netTimeoutDeadline after (.ofNat now) = netTimeoutDeadline before (.ofNat now))
    : Evaluation.Right deadline ⟨now, before, after, ret⟩ where
  ends := by
    refine iff_of_false (fun isZero => ?_) (Nat.not_le.mpr waits)
    have none : ret = 0 := isZero
    rw [none] at positive
    exact absurd positive (Nat.lt_irrefl 0)
  within := fun _ => within
  keeps := fun _ => same

/-- An evaluation that is timely is right, and the timeout stands for the same deadline. -/
theorem Watch.Follows.step_right (follows : watch.Follows since deadline)
    (stepped : step watch now = some next) (timely : Timely deadline watch now)
    : (∃ since', next.Follows since' deadline)
      ∧ ∃ evaluation,
          next.evaluations = evaluation :: watch.evaluations ∧ evaluation.Right deadline := by
  obtain ⟨holds, since_le, due⟩ := follows
  obtain ⟨later, notTooLate, rfl⟩ := step_eq stepped
  have after : since ≤ now := Nat.le_trans since_le later
  have bounded := holds.bounded
  have deadline_eq := holds.deadline_eq
  rw [netTimeoutMaxValue_toNat] at bounded deadline_eq
  by_cases last : watch.timeout.wrapCounter = 0
  · obtain ⟨same, before, reached⟩ := netTimeoutEvaluate_last holds after last
    refine ⟨⟨since, ?_⟩, _, rfl, ?_⟩
    · refine ⟨same.symm ▸ holds, after, fun wraps => ?_⟩
      rw [same, last] at wraps
      exact absurd wraps (Nat.lt_irrefl 0)
    · rcases Nat.lt_or_ge now deadline with waits | ended
      · have left := before waits
        exact right_of_positive waits (by omega) (by omega) (by rw [same])
      · have isZero := (reached ended).mpr (timely.resolve_left (Nat.not_lt.mpr ended)).2
        exact ⟨iff_of_true isZero ended, absurd isZero, absurd isZero⟩
  · have wraps : 0 < watch.timeout.wrapCounter.toNat :=
      Nat.pos_of_ne_zero fun none => last (UInt32.toNat.inj none)
    have waits : now < deadline := timely.resolve_right fun ended => last ended.1
    have isDue := due wraps
    by_cases early : now < since + 2147483647
    · obtain ⟨same, left⟩ := netTimeoutEvaluate_early holds after wraps early
      have wrapped : 2147483647 ≤ 2147483647 * watch.timeout.wrapCounter.toNat :=
        Nat.le_mul_of_pos_right _ wraps
      refine ⟨⟨since, same.symm ▸ holds, after, fun _ => ?_⟩, _, rfl,
        right_of_positive waits (by omega) (by omega) (by rw [same])⟩
      simp only [left]
      omega
    · have past : since + 2147483647 ≤ now := Nat.not_lt.mp early
      have late : now < since + 2 * 2147483647 := by omega
      obtain ⟨reduced, positive⟩ := netTimeoutEvaluate_reduced holds wraps past late waits
      obtain ⟨-, -, -, ret⟩ := netTimeoutEvaluate_late holds wraps past late
      have reduced_eq := reduced.deadline_eq
      rw [netTimeoutMaxValue_toNat] at reduced_eq
      have same : netTimeoutDeadline (netTimeoutEvaluate watch.timeout (.ofNat now)).1 (.ofNat now)
          = netTimeoutDeadline watch.timeout (.ofNat now) := by
        rw [reduced.netTimeoutDeadline_eq (Nat.le_refl _) (by omega),
          holds.netTimeoutDeadline_eq after (by omega)]
      by_cases none : (netTimeoutEvaluate watch.timeout (.ofNat now)).1.wrapCounter = 0
      · rw [if_pos none] at ret
        rw [none, UInt32.toNat_zero] at reduced_eq
        refine ⟨⟨now, reduced, Nat.le_refl _, fun more => ?_⟩, _, rfl,
          right_of_positive waits (ret ▸ positive) (by rw [ret]; omega) same⟩
        rw [none] at more
        exact absurd more (Nat.lt_irrefl 0)
      · rw [if_neg none] at ret
        have more : 0 < (netTimeoutEvaluate watch.timeout (.ofNat now)).1.wrapCounter.toNat :=
          Nat.pos_of_ne_zero fun isZero => none (UInt32.toNat.inj isZero)
        have wrapped := Nat.le_mul_of_pos_right 2147483647 more
        refine ⟨⟨now, reduced, Nat.le_refl _, fun _ => ?_⟩, _, rfl,
          right_of_positive waits (by rw [ret, netTimeoutMaxValue_toNat]; omega)
            (by rw [ret, netTimeoutMaxValue_toNat]; omega) same⟩
        simp only [ret, netTimeoutMaxValue_toNat]

/-- An evaluation that is not timely is not right. -/
theorem Watch.Follows.step_wrong (follows : watch.Follows since deadline)
    (stepped : step watch now = some next) (untimely : ¬Timely deadline watch now)
    : ∃ evaluation ∈ next.evaluations, ¬evaluation.Right deadline := by
  obtain ⟨holds, since_le, due⟩ := follows
  obtain ⟨later, notTooLate, rfl⟩ := step_eq stepped
  have after : since ≤ now := Nat.le_trans since_le later
  have reached : deadline ≤ now := Nat.not_lt.mp fun waits => untimely (.inl waits)
  refine ⟨_, List.mem_cons_self, fun right => ?_⟩
  have isZero := right.ends.mpr reached
  by_cases last : watch.timeout.wrapCounter = 0
  · have small := ((netTimeoutEvaluate_last holds after last).2.2 reached).mp isZero
    exact untimely (.inr ⟨last, small⟩)
  · have wraps : 0 < watch.timeout.wrapCounter.toNat :=
      Nat.pos_of_ne_zero fun none => last (UInt32.toNat.inj none)
    have isDue := due wraps
    have missed := netTimeoutEvaluate_missed holds wraps (by omega) reached
    exact absurd (missed.symm.trans isZero) (by decide)

end

theorem evaluations_kept {watch final : Watch} {calls : List Nat} {evaluation : Evaluation}
    (made : evaluation ∈ watch.evaluations) (ran : run step watch calls = some final)
    : evaluation ∈ final.evaluations := by
  refine run_invariant (fun later : Watch => evaluation ∈ later.evaluations) ?_ made ran
  intro state call next kept stepped
  obtain ⟨-, -, rfl⟩ := step_eq stepped
  exact List.mem_cons_of_mem _ kept

theorem Watch.Follows.right_iff {watch final : Watch} {since deadline : Nat} {calls : List Nat}
    (follows : watch.Follows since deadline)
    (sofar : ∀ evaluation ∈ watch.evaluations, evaluation.Right deadline)
    (ran : run step watch calls = some final)
    : (∀ evaluation ∈ final.evaluations, evaluation.Right deadline)
      ↔ RunMeets step (Timely deadline) watch calls := by
  induction calls generalizing watch since with
  | nil =>
      rw [← Option.some.inj ran]
      exact iff_of_true sofar trivial
  | cons now rest ih =>
      obtain ⟨next, stepped, continued⟩ := run_cons.mp ran
      rw [RunMeets, stepped]
      by_cases timely : Timely deadline watch now
      · obtain ⟨⟨since', follows'⟩, evaluation, made, right⟩ := follows.step_right stepped timely
        have sofar' : ∀ evaluation ∈ next.evaluations, evaluation.Right deadline := by
          rw [made]
          exact List.forall_mem_cons.mpr ⟨right, sofar⟩
        rw [ih follows' sofar' continued]
        exact (and_iff_right timely).symm
      · obtain ⟨evaluation, made, wrong⟩ := follows.step_wrong stepped timely
        refine iff_of_false (fun right => ?_) (fun met => timely met.1)
        exact wrong (right evaluation (evaluations_kept made continued))

/-- Of the evaluations of a timeout all are right exactly if each one is timely: it is made before
the deadline, or when no wrap is left and at most `2 ^ 31` milliseconds, up to a multiple of
`2 ^ 32`, after the deadline.
-/
theorem evaluations_right_iff (lifetime : UInt32) (now : Nat) {calls : List Nat} {watch : Watch}
    (ran : run step (start lifetime now) calls = some watch)
    : (∀ evaluation ∈ watch.evaluations,
        evaluation.Right (now + 1000 * lifetime.toNat))
      ↔ RunMeets step (Timely (now + 1000 * lifetime.toNat)) (start lifetime now) calls :=
  (start_follows lifetime now).right_iff (fun _ made => absurd made List.not_mem_nil) ran

theorem evaluations_in_time_right
    : ∃ watch,
        run step (start 2147484 0) [1000, 2147483647, 2147484000, 2147484100] = some watch
        ∧ ∀ evaluation ∈ watch.evaluations, evaluation.Right 2147484000 := by
  have ran : ∃ watch,
      run step (start 2147484 0) [1000, 2147483647, 2147484000, 2147484100] = some watch :=
    Option.isSome_iff_exists.mp (by decide +kernel)
  obtain ⟨watch, ran⟩ := ran
  exact ⟨watch, ran, (evaluations_right_iff 2147484 0 ran).mpr (by decide +kernel)⟩

/-- The timeout of 353 milliseconds more than the longest delay is evaluated 400 milliseconds after
that delay: the last wrap is taken twice, and the timeout goes on for `2 ^ 32` of them.
-/
theorem late_evaluation_goes_on
    : ∃ watch,
        run step (start 2147484 0) [2147484047] = some watch
        ∧ watch.timeout.wrapCounter = 4294967295
        ∧ ∃ evaluation ∈ watch.evaluations,
            evaluation.ret = netTimeoutMaxValue ∧ ¬evaluation.Right 2147484000 := by
  refine ⟨_, rfl, by decide +kernel, _, List.mem_cons_self, by decide +kernel, fun right => ?_⟩
  have ended := right.ends.mpr (by decide)
  exact absurd ended (by decide +kernel)

end Zephyr.Net.Timeout
