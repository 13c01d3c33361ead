import Mathlib

/-! The conversions between time units of `include/zephyr/sys/time_units.h`, and the exact
quotients that they stand for.
-/

namespace Zephyr.Time

/-! ### The macros -/

/-- `CONFIG_SYS_CLOCK_MAX_TIMEOUT_DAYS`. The timeout in cycles of every source frequency, rounded up
as the macros do it, is a 64-bit number.
-/
structure Config where
  maxTimeoutDays : UInt64
  fits : maxTimeoutDays.toNat * 86400 * (2 ^ 32 - 1) + (2 ^ 32 - 2) < 2 ^ 64

def uint32Max : UInt32 := 0xffffffff

def divRoundUp (n d : UInt64) : UInt64 :=
  (n + d - 1) / d

def zTmcvtUseFastAlgo (config : Config) (fromHz toHz : UInt32) : Bool :=
  divRoundUp (config.maxTimeoutDays * 24 * 3600 * fromHz.toUInt64) uint32Max.toUInt64
    * toHz.toUInt64 ≤ uint32Max.toUInt64

def zTmcvtIsIdentity (fromHz toHz : UInt32) : Bool :=
  toHz = fromHz

def zTmcvtIsIntMul (fromHz toHz : UInt32) : Bool :=
  toHz > fromHz && toHz % fromHz = 0

def zTmcvtIsIntDiv (fromHz toHz : UInt32) : Bool :=
  fromHz > toHz && fromHz % toHz = 0

def zTmcvtOffDiv (fromHz toHz : UInt32) (roundUp roundOff : Bool) : UInt32 :=
  if roundOff then fromHz / toHz / 2 else if roundUp then fromHz / toHz - 1 else 0

def zTmcvtDivisor (a b : UInt32) : UInt32 :=
  if a / b ≠ 0 then a / b else 1

def zTmcvtOffGen (fromHz : UInt32) (roundUp roundOff : Bool) : UInt32 :=
  if roundOff then fromHz / 2 else if roundUp then fromHz - 1 else 0

def zTmcvtIntDiv32 (t : UInt64) (fromHz toHz : UInt32) (roundUp roundOff : Bool) : UInt32 :=
  let off := zTmcvtOffDiv fromHz toHz roundUp roundOff
  if t ≤ (0xffffffff - off).toUInt64 then
    (t + off.toUInt64).toUInt32 / zTmcvtDivisor fromHz toHz
  else
    ((t + off.toUInt64) / (zTmcvtDivisor fromHz toHz).toUInt64).toUInt32

def zTmcvtIntMul32 (t : UInt64) (fromHz toHz : UInt32) : UInt32 :=
  t.toUInt32 * (toHz / fromHz)

def zTmcvtGen32 (t : UInt64) (fromHz toHz : UInt32) (roundUp roundOff : Bool) : UInt32 :=
  ((t * toHz.toUInt64 + (zTmcvtOffGen fromHz roundUp roundOff).toUInt64)
    / fromHz.toUInt64).toUInt32

def zTmcvtIntDiv64 (t : UInt64) (fromHz toHz : UInt32) (roundUp roundOff : Bool) : UInt64 :=
  (t + (zTmcvtOffDiv fromHz toHz roundUp roundOff).toUInt64)
    / (zTmcvtDivisor fromHz toHz).toUInt64

def zTmcvtIntMul64 (t : UInt64) (fromHz toHz : UInt32) : UInt64 :=
  t * (toHz / fromHz).toUInt64

def zTmcvtGen64Fast (t : UInt64) (fromHz toHz : UInt32) (roundUp roundOff : Bool) : UInt64 :=
  (t * toHz.toUInt64 + (zTmcvtOffGen fromHz roundUp roundOff).toUInt64) / fromHz.toUInt64

def zTmcvtGen64Slow (t : UInt64) (fromHz toHz : UInt32) (roundUp roundOff : Bool) : UInt64 :=
  t / fromHz.toUInt64 * toHz.toUInt64
    + (t % fromHz.toUInt64 * toHz.toUInt64 + (zTmcvtOffGen fromHz roundUp roundOff).toUInt64)
      / fromHz.toUInt64

def zTmcvtGen64 (config : Config) (t : UInt64) (fromHz toHz : UInt32) (roundUp roundOff : Bool)
    : UInt64 :=
  if zTmcvtUseFastAlgo config fromHz toHz then zTmcvtGen64Fast t fromHz toHz roundUp roundOff
  else zTmcvtGen64Slow t fromHz toHz roundUp roundOff

def zTmcvt32 (t : UInt64) (fromHz toHz : UInt32) (constHz roundUp roundOff : Bool) : UInt32 :=
  if constHz then
    if zTmcvtIsIdentity fromHz toHz then t.toUInt32
    else if zTmcvtIsIntDiv fromHz toHz then zTmcvtIntDiv32 t fromHz toHz roundUp roundOff
    else if zTmcvtIsIntMul fromHz toHz then zTmcvtIntMul32 t fromHz toHz
    else zTmcvtGen32 t fromHz toHz roundUp roundOff
  else zTmcvtGen32 t fromHz toHz roundUp roundOff

def zTmcvt64 (config : Config) (t : UInt64) (fromHz toHz : UInt32)
    (constHz roundUp roundOff : Bool) : UInt64 :=
  if constHz then
    if zTmcvtIsIdentity fromHz toHz then t
    else if zTmcvtIsIntDiv fromHz toHz then zTmcvtIntDiv64 t fromHz toHz roundUp roundOff
    else if zTmcvtIsIntMul fromHz toHz then zTmcvtIntMul64 t fromHz toHz
    else zTmcvtGen64 config t fromHz toHz roundUp roundOff
  else zTmcvtGen64Slow t fromHz toHz roundUp roundOff

def zTmcvt (config : Config) (t : UInt64) (fromHz toHz : UInt32)
    (constHz result32 roundUp roundOff : Bool) : UInt64 :=
  if result32 then (zTmcvt32 t fromHz toHz constHz roundUp roundOff).toUInt64
  else zTmcvt64 config t fromHz toHz constHz roundUp roundOff

/-! ### Rounding -/

inductive Rounding where
  | down
  | up
  | nearest
  deriving DecidableEq, Repr

namespace Rounding

def roundUp : Rounding → Bool
  | up => true
  | _ => false

def roundOff : Rounding → Bool
  | nearest => true
  | _ => false

/-- The integer that a quotient is rounded to; halves go up. -/
def round (quotient : ℚ) : Rounding → ℕ
  | down => ⌊quotient⌋₊
  | up => ⌈quotient⌉₊
  | nearest => ⌊quotient + 1 / 2⌋₊

/-- What is added to a numerator before the division that truncates. -/
def offset (divisor : ℕ) : Rounding → ℕ
  | down => 0
  | up => divisor - 1
  | nearest => divisor / 2

theorem offset_lt {divisor : ℕ} (positive : 0 < divisor) (mode : Rounding)
    : mode.offset divisor < divisor := by
  cases mode
  · exact positive
  · exact Nat.sub_lt positive Nat.one_pos
  · exact Nat.div_lt_self positive Nat.one_lt_two

theorem floor_add_half {divisor : ℕ} (positive : 0 < divisor) (numerator : ℕ)
    : ⌊(numerator : ℚ) / divisor + 1 / 2⌋₊ = (numerator + divisor / 2) / divisor := by
  have doubled : (numerator : ℚ) / divisor + 1 / 2
      = ((2 * numerator + divisor : ℕ) : ℚ) / ((divisor * 2 : ℕ) : ℚ) := by
    have nonzero : (divisor : ℚ) ≠ 0 := Nat.cast_ne_zero.mpr positive.ne'
    push_cast
    field_simp
  rw [doubled, Nat.floor_div_eq_div, Nat.mul_comm divisor, ← Nat.div_div_eq_div_mul]
  congr 1
  omega

theorem round_div {divisor : ℕ} (positive : 0 < divisor) (numerator : ℕ) (mode : Rounding)
    : mode.round ((numerator : ℚ) / divisor) = (numerator + mode.offset divisor) / divisor := by
  cases mode with
  | down => exact Nat.floor_div_eq_div ..
  | up =>
      have ceiling : ⌈(numerator : ℚ) / divisor⌉₊ = numerator ⌈/⌉ divisor := by
        refine eq_of_forall_ge_iff fun bound => ?_
        have nonneg : (0 : ℚ) < divisor := Nat.cast_pos.mpr positive
        rw [Nat.ceil_le, div_le_iff₀ nonneg, ceilDiv_le_iff_le_mul positive, Nat.mul_comm divisor]
        exact_mod_cast Iff.rfl
      rw [round, ceiling, Nat.ceilDiv_eq_add_pred_div, offset, Nat.add_sub_assoc positive]
  | nearest => exact floor_add_half positive numerator

theorem round_natCast (number : ℕ) (mode : Rounding) : mode.round (number : ℚ) = number := by
  have whole := round_div Nat.one_pos number mode
  have none : mode.offset 1 = 0 := Nat.lt_one_iff.mp (offset_lt Nat.one_pos mode)
  rwa [Nat.cast_one, div_one, none, Nat.add_zero, Nat.div_one] at whole

end Rounding

/-! ### The formulas and the exact quotient -/

section

variable {t : UInt64} {fromHz toHz : UInt32} (mode : Rounding)

theorem round_general (positive : 0 < fromHz.toNat)
    : mode.round ((t.toNat : ℚ) * toHz.toNat / fromHz.toNat)
      = (t.toNat * toHz.toNat + mode.offset fromHz.toNat) / fromHz.toNat := by
  rw [← Rounding.round_div positive, Nat.cast_mul]

theorem round_intDiv {ratio : ℕ} (positive : 0 < toHz.toNat)
    (isRatio : fromHz.toNat = ratio * toHz.toNat) (ratioPos : 0 < ratio)
    : mode.round ((t.toNat : ℚ) * toHz.toNat / fromHz.toNat)
      = (t.toNat + mode.offset ratio) / ratio := by
  have nonzero : (toHz.toNat : ℚ) ≠ 0 := Nat.cast_ne_zero.mpr positive.ne'
  rw [isRatio, Nat.cast_mul, mul_div_mul_right _ _ nonzero, Rounding.round_div ratioPos]

theorem round_intMul {ratio : ℕ} (positive : 0 < fromHz.toNat)
    (isRatio : toHz.toNat = ratio * fromHz.toNat)
    : mode.round ((t.toNat : ℚ) * toHz.toNat / fromHz.toNat) = t.toNat * ratio := by
  have nonzero : (fromHz.toNat : ℚ) ≠ 0 := Nat.cast_ne_zero.mpr positive.ne'
  rw [isRatio, Nat.cast_mul, ← mul_assoc, mul_div_assoc, div_self nonzero, mul_one,
    ← Nat.cast_mul, Rounding.round_natCast]

theorem toNat_offGen (positive : 0 < fromHz.toNat)
    : (zTmcvtOffGen fromHz mode.roundUp mode.roundOff).toNat = mode.offset fromHz.toNat := by
  cases mode with
  | down => rfl
  | up => exact UInt32.toNat_sub_of_le _ _ (UInt32.le_iff_toNat_le.mpr positive)
  | nearest => exact UInt32.toNat_div ..

theorem toNat_offDiv (ratioPos : 0 < fromHz.toNat / toHz.toNat)
    : (zTmcvtOffDiv fromHz toHz mode.roundUp mode.roundOff).toNat
      = mode.offset (fromHz.toNat / toHz.toNat) := by
  have ratio : (fromHz / toHz).toNat = fromHz.toNat / toHz.toNat := UInt32.toNat_div ..
  cases mode with
  | down => rfl
  | up =>
      have some : 1 ≤ fromHz / toHz := UInt32.le_iff_toNat_le.mpr (ratio ▸ ratioPos)
      exact (UInt32.toNat_sub_of_le _ _ some).trans (by rw [ratio]; rfl)
  | nearest => exact (UInt32.toNat_div ..).trans (by rw [ratio]; rfl)

theorem toNat_divisor (ratioPos : 0 < fromHz.toNat / toHz.toNat)
    : (zTmcvtDivisor fromHz toHz).toNat = fromHz.toNat / toHz.toNat := by
  have ratio : (fromHz / toHz).toNat = fromHz.toNat / toHz.toNat := UInt32.toNat_div ..
  have nonzero : fromHz / toHz ≠ 0 := by
    intro zero
    rw [← ratio, zero] at ratioPos
    exact absurd ratioPos (by decide)
  rw [zTmcvtDivisor, if_pos nonzero, ratio]

theorem exists_ratio {big small : UInt32} (below : small < big) (divides : big % small = 0)
    : 0 < big.toNat / small.toNat ∧ big.toNat = big.toNat / small.toNat * small.toNat := by
  have whole : big.toNat % small.toNat = 0 := by
    rw [← UInt32.toNat_mod, divides]
    rfl
  have exact := Nat.div_add_mod' big.toNat small.toNat
  have less := UInt32.lt_iff_toNat_lt.mp below
  refine ⟨Nat.pos_of_ne_zero fun zero => ?_, by omega⟩
  rw [zero, Nat.zero_mul] at exact
  omega

theorem toNat_numerator (positive : 0 < fromHz.toNat)
    (small : t.toNat * toHz.toNat ≤ (2 ^ 32 - 1) * (2 ^ 32 - 1))
    : (t * toHz.toUInt64
        + (zTmcvtOffGen fromHz mode.roundUp mode.roundOff).toUInt64).toNat
      = t.toNat * toHz.toNat + mode.offset fromHz.toNat := by
  have below := mode.offset_lt positive
  have fromLt := fromHz.toNat_lt
  rw [UInt64.toNat_add, UInt64.toNat_mul, UInt32.toNat_toUInt64, UInt32.toNat_toUInt64,
    toNat_offGen mode positive, Nat.mod_eq_of_lt (a := t.toNat * toHz.toNat) (by omega),
    Nat.mod_eq_of_lt (by omega)]

theorem toNat_gen32 (positive : 0 < fromHz.toNat) (range : t.toNat < 2 ^ 32)
    : (zTmcvtGen32 t fromHz toHz mode.roundUp mode.roundOff).toNat
      = mode.round ((t.toNat : ℚ) * toHz.toNat / fromHz.toNat) % 2 ^ 32 := by
  have small : t.toNat * toHz.toNat ≤ (2 ^ 32 - 1) * (2 ^ 32 - 1) :=
    Nat.mul_le_mul (by omega) (by have := toHz.toNat_lt; omega)
  rw [round_general mode positive, zTmcvtGen32, UInt64.toNat_toUInt32, UInt64.toNat_div,
    toNat_numerator mode positive small, UInt32.toNat_toUInt64]

theorem toNat_intDiv32 (positive : 0 < toHz.toNat) (range : t.toNat < 2 ^ 32)
    (ratioPos : 0 < fromHz.toNat / toHz.toNat)
    (isRatio : fromHz.toNat = fromHz.toNat / toHz.toNat * toHz.toNat)
    : (zTmcvtIntDiv32 t fromHz toHz mode.roundUp mode.roundOff).toNat
      = mode.round ((t.toNat : ℚ) * toHz.toNat / fromHz.toNat) % 2 ^ 32 := by
  have below := mode.offset_lt ratioPos
  have ratioLe : fromHz.toNat / toHz.toNat ≤ fromHz.toNat := Nat.div_le_self ..
  have fromLt := fromHz.toNat_lt
  have off := toNat_offDiv mode ratioPos
  have sum : (t + (zTmcvtOffDiv fromHz toHz mode.roundUp mode.roundOff).toUInt64).toNat
      = t.toNat + mode.offset (fromHz.toNat / toHz.toNat) := by
    rw [UInt64.toNat_add, UInt32.toNat_toUInt64, off, Nat.mod_eq_of_lt (by omega)]
  have room : (0xffffffff - zTmcvtOffDiv fromHz toHz mode.roundUp mode.roundOff).toNat
      = 2 ^ 32 - 1 - mode.offset (fromHz.toNat / toHz.toNat) := by
    have within : zTmcvtOffDiv fromHz toHz mode.roundUp mode.roundOff ≤ 0xffffffff := by
      rw [UInt32.le_iff_toNat_le, off]
      exact Nat.le_of_lt_succ (Nat.lt_trans below (Nat.lt_of_le_of_lt ratioLe fromLt))
    rw [UInt32.toNat_sub_of_le _ _ within, off]
    rfl
  rw [round_intDiv mode positive isRatio ratioPos]
  simp only [zTmcvtIntDiv32]
  split
  · rename_i small
    have space := UInt64.le_iff_toNat_le.mp small
    rw [UInt32.toNat_toUInt64, room] at space
    rw [UInt32.toNat_div, UInt64.toNat_toUInt32, sum, toNat_divisor ratioPos,
      Nat.mod_eq_of_lt (a := t.toNat + _) (by omega),
      Nat.mod_eq_of_lt (Nat.lt_of_le_of_lt (Nat.div_le_self ..) (by omega))]
  · rw [UInt64.toNat_toUInt32, UInt64.toNat_div, sum, UInt32.toNat_toUInt64,
      toNat_divisor ratioPos]

theorem toNat_gen64Slow (positive : 0 < fromHz.toNat)
    : (zTmcvtGen64Slow t fromHz toHz mode.roundUp mode.roundOff).toNat
      = mode.round ((t.toNat : ℚ) * toHz.toNat / fromHz.toNat) % 2 ^ 64 := by
  have below := mode.offset_lt positive
  have fromLt := fromHz.toNat_lt
  have rest := Nat.mod_lt t.toNat positive
  have product : t.toNat % fromHz.toNat * toHz.toNat ≤ (2 ^ 32 - 2) * (2 ^ 32 - 1) :=
    Nat.mul_le_mul (by omega) (by have := toHz.toNat_lt; omega)
  -- the quotient is split at the whole periods of the source frequency
  have split : (t.toNat * toHz.toNat + mode.offset fromHz.toNat) / fromHz.toNat
      = t.toNat / fromHz.toNat * toHz.toNat
        + (t.toNat % fromHz.toNat * toHz.toNat + mode.offset fromHz.toNat) / fromHz.toNat := by
    rw [← Nat.mul_add_div positive, ← Nat.add_assoc, ← Nat.mul_assoc, ← Nat.add_mul,
      Nat.div_add_mod]
  rw [round_general mode positive, split, zTmcvtGen64Slow, UInt64.toNat_add, UInt64.toNat_mul,
    UInt64.toNat_div, UInt64.toNat_div, UInt64.toNat_add, UInt64.toNat_mul, UInt64.toNat_mod]
  simp only [UInt32.toNat_toUInt64, toNat_offGen mode positive]
  rw [Nat.mod_eq_of_lt (a := t.toNat % fromHz.toNat * toHz.toNat) (by omega),
    Nat.mod_eq_of_lt (a := t.toNat % fromHz.toNat * toHz.toNat + _) (by omega), Nat.mod_add_mod]

theorem toNat_longest (config : Config) (fromHz : UInt32)
    : (config.maxTimeoutDays * 24 * 3600 * fromHz.toUInt64).toNat
        = config.maxTimeoutDays.toNat * 86400 * fromHz.toNat
      ∧ config.maxTimeoutDays.toNat * 86400 * fromHz.toNat + (2 ^ 32 - 2) < 2 ^ 64 := by
  have fits := config.fits
  have most : config.maxTimeoutDays.toNat * 86400 * fromHz.toNat
      ≤ config.maxTimeoutDays.toNat * 86400 * (2 ^ 32 - 1) :=
    Nat.mul_le_mul_left _ (Nat.le_sub_one_of_lt fromHz.toNat_lt)
  have seconds : (config.maxTimeoutDays * 24 * 3600).toNat
      = config.maxTimeoutDays.toNat * 86400 := by
    rw [UInt64.toNat_mul, UInt64.toNat_mul]
    simp only [UInt64.reduceToNat]
    omega
  refine ⟨?_, by omega⟩
  rw [UInt64.toNat_mul, seconds, UInt32.toNat_toUInt64, Nat.mod_eq_of_lt (by omega)]

theorem toNat_divRoundUp {cycles : UInt64} (fits : cycles.toNat + (2 ^ 32 - 2) < 2 ^ 64)
    : (divRoundUp cycles uint32Max.toUInt64).toNat
      = (cycles.toNat + (2 ^ 32 - 2)) / (2 ^ 32 - 1) := by
  have limit : uint32Max.toUInt64.toNat = 2 ^ 32 - 1 := rfl
  have sum : (cycles + uint32Max.toUInt64 - 1).toNat = cycles.toNat + (2 ^ 32 - 2) := by
    rw [UInt64.toNat_sub, UInt64.toNat_add, limit, UInt64.toNat_one]
    omega
  rw [divRoundUp, UInt64.toNat_div, sum, limit]

/-- The fast formula is chosen only if the longest timeout times the target frequency is below the
square of the largest 32-bit number.
-/
theorem product_le {config : Config} (fast : zTmcvtUseFastAlgo config fromHz toHz = true)
    (range : t.toNat ≤ config.maxTimeoutDays.toNat * 86400 * fromHz.toNat)
    : t.toNat * toHz.toNat ≤ (2 ^ 32 - 1) * (2 ^ 32 - 1) := by
  obtain ⟨longest, fits⟩ := toNat_longest config fromHz
  rw [← longest] at fits range
  have chosen := UInt64.le_iff_toNat_le.mp (of_decide_eq_true fast)
  rw [UInt64.toNat_mul, toNat_divRoundUp fits, UInt32.toNat_toUInt64] at chosen
  generalize (config.maxTimeoutDays * 24 * 3600 * fromHz.toUInt64).toNat = cycles at *
  generalize isFactor : (cycles + (2 ^ 32 - 2)) / (2 ^ 32 - 1) = factor at *
  have fit : factor * toHz.toNat ≤ 2 ^ 32 - 1 := by
    have most : factor * toHz.toNat ≤ (2 ^ 32 + 1) * (2 ^ 32 - 1) :=
      Nat.mul_le_mul (by omega) (Nat.le_sub_one_of_lt toHz.toNat_lt)
    rwa [Nat.mod_eq_of_lt (by omega)] at chosen
  calc
    t.toNat * toHz.toNat ≤ factor * (2 ^ 32 - 1) * toHz.toNat :=
      Nat.mul_le_mul_right _ (by omega)
    _ = factor * toHz.toNat * (2 ^ 32 - 1) := Nat.mul_right_comm ..
    _ ≤ (2 ^ 32 - 1) * (2 ^ 32 - 1) := Nat.mul_le_mul_right _ fit

theorem toNat_gen64 {config : Config} (positive : 0 < fromHz.toNat)
    (range : t.toNat ≤ config.maxTimeoutDays.toNat * 86400 * fromHz.toNat)
    : (zTmcvtGen64 config t fromHz toHz mode.roundUp mode.roundOff).toNat
      = mode.round ((t.toNat : ℚ) * toHz.toNat / fromHz.toNat) % 2 ^ 64 := by
  unfold zTmcvtGen64
  split
  · rename_i fast
    have small := product_le fast range
    have quotient : (t.toNat * toHz.toNat + mode.offset fromHz.toNat) / fromHz.toNat < 2 ^ 64 := by
      have below := mode.offset_lt positive
      have fromLt := fromHz.toNat_lt
      exact Nat.lt_of_le_of_lt (Nat.div_le_self ..) (by omega)
    rw [round_general mode positive, Nat.mod_eq_of_lt quotient, zTmcvtGen64Fast,
      UInt64.toNat_div, toNat_numerator mode positive small, UInt32.toNat_toUInt64]
  · exact toNat_gen64Slow mode positive

theorem toNat_intDiv64 {config : Config} (positive : 0 < toHz.toNat)
    (range : t.toNat ≤ config.maxTimeoutDays.toNat * 86400 * fromHz.toNat)
    (ratioPos : 0 < fromHz.toNat / toHz.toNat)
    (isRatio : fromHz.toNat = fromHz.toNat / toHz.toNat * toHz.toNat)
    : (zTmcvtIntDiv64 t fromHz toHz mode.roundUp mode.roundOff).toNat
      = mode.round ((t.toNat : ℚ) * toHz.toNat / fromHz.toNat) % 2 ^ 64 := by
  have below := mode.offset_lt ratioPos
  have ratioLe : fromHz.toNat / toHz.toNat ≤ fromHz.toNat := Nat.div_le_self ..
  have fromLt := fromHz.toNat_lt
  have fits := (toNat_longest config fromHz).2
  have sum : (t + (zTmcvtOffDiv fromHz toHz mode.roundUp mode.roundOff).toUInt64).toNat
      = t.toNat + mode.offset (fromHz.toNat / toHz.toNat) := by
    rw [UInt64.toNat_add, UInt32.toNat_toUInt64, toNat_offDiv mode ratioPos,
      Nat.mod_eq_of_lt (by omega)]
  rw [round_intDiv mode positive isRatio ratioPos, zTmcvtIntDiv64, UInt64.toNat_div, sum,
    UInt32.toNat_toUInt64, toNat_divisor ratioPos,
    Nat.mod_eq_of_lt (Nat.lt_of_le_of_lt (Nat.div_le_self ..) (by omega))]

theorem round_identity (positive : 0 < fromHz.toNat)
    : mode.round ((t.toNat : ℚ) * fromHz.toNat / fromHz.toNat) = t.toNat := by
  rw [round_intMul mode positive (Nat.one_mul _).symm, Nat.mul_one]

theorem zTmcvt32_rounds (fromPos : 0 < fromHz.toNat) (toPos : 0 < toHz.toNat) (constHz : Bool)
    (range : t.toNat < 2 ^ 32)
    : (zTmcvt32 t fromHz toHz constHz mode.roundUp mode.roundOff).toNat
      = mode.round ((t.toNat : ℚ) * toHz.toNat / fromHz.toNat) % 2 ^ 32 := by
  have general := @toNat_gen32 t fromHz toHz mode fromPos range
  unfold zTmcvt32
  split
  · split
    · rename_i same
      obtain rfl : toHz = fromHz := of_decide_eq_true same
      rw [round_identity mode fromPos, UInt64.toNat_toUInt32]
    · split
      · rename_i isDiv
        rw [zTmcvtIsIntDiv, Bool.and_eq_true] at isDiv
        obtain ⟨ratioPos, isRatio⟩ :=
          exists_ratio (of_decide_eq_true isDiv.1) (of_decide_eq_true isDiv.2)
        exact toNat_intDiv32 mode toPos range ratioPos isRatio
      · split
        · rename_i isMul
          rw [zTmcvtIsIntMul, Bool.and_eq_true] at isMul
          obtain ⟨-, isRatio⟩ :=
            exists_ratio (of_decide_eq_true isMul.1) (of_decide_eq_true isMul.2)
          rw [round_intMul mode fromPos isRatio, zTmcvtIntMul32, UInt32.toNat_mul,
            UInt64.toNat_toUInt32, UInt32.toNat_div, Nat.mod_mul_mod]
        · exact general
  · exact general

theorem zTmcvt64_rounds {config : Config} (fromPos : 0 < fromHz.toNat) (toPos : 0 < toHz.toNat)
    (constHz : Bool) (range : t.toNat ≤ config.maxTimeoutDays.toNat * 86400 * fromHz.toNat)
    : (zTmcvt64 config t fromHz toHz constHz mode.roundUp mode.roundOff).toNat
      = mode.round ((t.toNat : ℚ) * toHz.toNat / fromHz.toNat) % 2 ^ 64 := by
  unfold zTmcvt64
  split
  · split
    · rename_i same
      obtain rfl : toHz = fromHz := of_decide_eq_true same
      rw [round_identity mode fromPos, Nat.mod_eq_of_lt t.toNat_lt]
    · split
      · rename_i isDiv
        rw [zTmcvtIsIntDiv, Bool.and_eq_true] at isDiv
        obtain ⟨ratioPos, isRatio⟩ :=
          exists_ratio (of_decide_eq_true isDiv.1) (of_decide_eq_true isDiv.2)
        exact toNat_intDiv64 mode toPos range ratioPos isRatio
      · split
        · rename_i isMul
          rw [zTmcvtIsIntMul, Bool.and_eq_true] at isMul
          obtain ⟨-, isRatio⟩ :=
            exists_ratio (of_decide_eq_true isMul.1) (of_decide_eq_true isMul.2)
          rw [round_intMul mode fromPos isRatio, zTmcvtIntMul64, UInt64.toNat_mul,
            UInt32.toNat_toUInt64, UInt32.toNat_div]
        · exact toNat_gen64 mode fromPos range
  · exact toNat_gen64Slow mode fromPos

end

/-- The configured longest timeout bounds the durations of the 64-bit conversions, and the word
size those of the 32-bit ones.
-/
def InRange (config : Config) (t : UInt64) (fromHz : UInt32) (result32 : Bool) : Prop :=
  if result32 then t.toNat < 2 ^ 32
  else t.toNat ≤ config.maxTimeoutDays.toNat * 86400 * fromHz.toNat

/-- Every conversion rounds the exact quotient, up to the size of its result. -/
theorem conversion_rounds (config : Config) (mode : Rounding) {t : UInt64} {fromHz toHz : UInt32}
    (fromPos : 0 < fromHz) (toPos : 0 < toHz) (constHz : Bool) {result32 : Bool}
    (range : InRange config t fromHz result32)
    : (zTmcvt config t fromHz toHz constHz result32 mode.roundUp mode.roundOff).toNat
      = mode.round ((t.toNat : ℚ) * toHz.toNat / fromHz.toNat)
        % 2 ^ (if result32 then 32 else 64) := by
  have fromPos := UInt32.lt_iff_toNat_lt.mp fromPos
  have toPos := UInt32.lt_iff_toNat_lt.mp toPos
  unfold InRange at range
  unfold zTmcvt
  split
  · rename_i isShort
    rw [if_pos isShort] at range
    rw [UInt32.toNat_toUInt64, zTmcvt32_rounds mode fromPos toPos constHz range]
  · rename_i isLong
    rw [if_neg isLong] at range
    exact zTmcvt64_rounds mode fromPos toPos constHz range

/-- A year, as the build configures it. -/
def yearConfig : Config :=
  ⟨365, by decide⟩

/-- Half a tick of 10 kHz, rounded to the nearest at 96 MHz. -/
theorem nearest_tick_rounds
    : InRange yearConfig 4800 96000000 false
      ∧ (zTmcvt yearConfig 4800 96000000 10000 true false false true).toNat
        = Rounding.nearest.round (((4800 : UInt64).toNat : ℚ) * (10000 : UInt32).toNat
            / (96000000 : UInt32).toNat) % 2 ^ 64 := by
  have range : InRange yearConfig 4800 96000000 false := by
    unfold InRange
    decide
  exact ⟨range, conversion_rounds yearConfig .nearest (by decide) (by decide) true range⟩

end Zephyr.Time
