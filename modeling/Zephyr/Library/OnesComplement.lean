import Mathlib

/-! Sums of words of sixteen bits in one's complement, where a carry is added at the other end.
Such a sum is a number modulo `2 ^ 16 - 1`, except that zero is only the sum of zeros.
-/

namespace Zephyr.Library

/-- The two numbers stand for the same value: folding their carries leads to the same word. -/
structure Alike (n m : Nat) : Prop where
  zero : n = 0 ↔ m = 0
  modulo : n % 65535 = m % 65535

/-- The sum of two words with the carry added at the other end. -/
def onesAdd (n m : Nat) : Nat :=
  if n + m < 65536 then n + m else n + m - 65535

/-- The sum of a start value and of bytes as big-endian words, the last one padded with zero. -/
def onesSum (start : Nat) : List UInt8 → Nat
  | [] => start
  | [last] => onesAdd start (256 * last.toNat)
  | high :: low :: rest => onesSum (onesAdd start (256 * high.toNat + low.toNat)) rest

/-- The sum of the same words without any carry. -/
def wordsSum : List UInt8 → Nat
  | [] => 0
  | [last] => 256 * last.toNat
  | high :: low :: rest => 256 * high.toNat + low.toNat + wordsSum rest

namespace Alike

variable {n m k l : Nat}

theorem refl (n : Nat) : Alike n n :=
  ⟨Iff.rfl, rfl⟩

theorem symm (alike : Alike n m) : Alike m n :=
  ⟨alike.zero.symm, alike.modulo.symm⟩

theorem trans (first : Alike n m) (second : Alike m k) : Alike n k :=
  ⟨first.zero.trans second.zero, first.modulo.trans second.modulo⟩

theorem add (left : Alike n m) (right : Alike k l) : Alike (n + k) (m + l) where
  zero := by
    have leftZero := left.zero
    have rightZero := right.zero
    omega
  modulo := by
    have leftModulo := left.modulo
    have rightModulo := right.modulo
    omega

/-- Multiplying by the weight of the upper byte swaps the bytes. -/
theorem shift (alike : Alike n m) : Alike (256 * n) (256 * m) where
  zero := by
    have := alike.zero
    omega
  modulo := by
    have := alike.modulo
    omega

/-- A carry may be added at the other end. -/
theorem carry (low high : Nat) : Alike (low + 65536 * high) (low + high) where
  zero := by omega
  modulo := by omega

/-- A word is determined by the value that it stands for. -/
theorem word_eq (alike : Alike n m) (left : n < 65536) (right : m < 65536) : n = m := by
  have zero := alike.zero
  have modulo := alike.modulo
  omega

end Alike

theorem onesAdd_lt {n m : Nat} (left : n < 65536) (right : m < 65536) : onesAdd n m < 65536 := by
  unfold onesAdd
  split <;> omega

theorem onesAdd_alike {n m : Nat} : Alike (onesAdd n m) (n + m) := by
  unfold onesAdd
  split
  · exact .refl _
  · exact ⟨by omega, by omega⟩

theorem word_lt (high low : UInt8) : 256 * high.toNat + low.toNat < 65536 := by
  have := high.toNat_lt
  have := low.toNat_lt
  omega

/-- The sum is a word, and the words without carries add up to the same value. -/
theorem onesSum_spec (bytes : List UInt8) {start : Nat} (word : start < 65536)
    : onesSum start bytes < 65536 ∧ Alike (onesSum start bytes) (start + wordsSum bytes) := by
  -- over the words; the accumulated sum is the start value of the rest
  induction bytes using wordsSum.induct generalizing start with
  | case1 => exact ⟨word, .refl _⟩
  | case2 last =>
      have := last.toNat_lt
      exact ⟨onesAdd_lt word (by omega), onesAdd_alike⟩
  | case3 high low rest ih =>
      obtain ⟨isWord, alike⟩ := ih (onesAdd_lt word (word_lt high low))
      refine ⟨isWord, ?_⟩
      rw [wordsSum, ← Nat.add_assoc]
      exact alike.trans (onesAdd_alike.add (.refl _))

/-- Words go on behind an even number of bytes. -/
theorem wordsSum_append_even {bytes : List UInt8} (even : bytes.length % 2 = 0)
    (more : List UInt8)
    : wordsSum (bytes ++ more) = wordsSum bytes + wordsSum more := by
  induction bytes using wordsSum.induct with
  | case1 => simp [wordsSum]
  | case2 last => simp at even
  | case3 high low rest ih =>
      have even : rest.length % 2 = 0 := by
        simp only [List.length_cons] at even
        omega
      simp only [List.cons_append, wordsSum, ih even]
      omega

/-- Behind an odd number of bytes the next one is the lower byte of the last word. -/
theorem wordsSum_append_odd {bytes : List UInt8} (odd : bytes.length % 2 = 1) (next : UInt8)
    (more : List UInt8)
    : wordsSum (bytes ++ next :: more) = wordsSum bytes + next.toNat + wordsSum more := by
  induction bytes using wordsSum.induct with
  | case1 => simp at odd
  | case2 last => simp [wordsSum]
  | case3 high low rest ih =>
      have odd : rest.length % 2 = 1 := by
        simp only [List.length_cons] at odd
        omega
      simp only [List.cons_append, wordsSum, ih odd]
      omega

end Zephyr.Library
