import Zephyr.Heap.Allocating

/-! Alignment arguments with a rewind in their lowest bit, and aligned allocation. -/

namespace Zephyr.Heap

open Library

variable {h : ZHeap} {base last : Nat} {tiles : Tiles Bool}

/-! ### Bits of an alignment argument -/

theorem exists_lowest {align : Nat} (positive : align ≠ 0)
    : ∃ j q, align = 2 ^ (j + 1) * q + 2 ^ j := by
  obtain ⟨j, m, ⟨q, rfl⟩, rfl⟩ := Nat.exists_eq_two_pow_mul_odd positive
  refine ⟨j, q, ?_⟩
  rw [Nat.mul_add, Nat.mul_one, ← Nat.mul_assoc, Nat.pow_succ]

/-- The bits of a number with lowest bit `j`, and those of its predecessor. -/
theorem testBit_lowest (j q i : Nat)
    : ((2 ^ (j + 1) * q + 2 ^ j).testBit i
        = if i < j + 1 then decide (j = i) else q.testBit (i - (j + 1)))
      ∧ ((2 ^ (j + 1) * q + (2 ^ j - 1)).testBit i
        = if i < j + 1 then decide (i < j) else q.testBit (i - (j + 1))) := by
  have less : 2 ^ j < 2 ^ (j + 1) := Nat.pow_lt_pow_right (by decide) (Nat.lt_succ_self j)
  rw [Nat.testBit_two_pow_mul_add _ less, Nat.testBit_two_pow_mul_add _ (by omega),
    Nat.testBit_two_pow, Nat.testBit_two_pow_sub_one]
  exact ⟨rfl, rfl⟩

theorem rewind_eq {j q : Nat} (small : 2 ^ (j + 1) * q + 2 ^ j < 2 ^ 32)
    : ZHeap.rewind (2 ^ (j + 1) * q + 2 ^ j) = 2 ^ j := by
  have positive : 0 < 2 ^ j := Nat.two_pow_pos j
  have below : j < 32 := by
    by_contra ge
    have := Nat.pow_le_pow_right (show 0 < 2 by decide) (Nat.le_of_not_lt ge)
    omega
  have pred : 2 ^ 32 - (2 ^ (j + 1) * q + 2 ^ j)
      = 2 ^ 32 - ((2 ^ (j + 1) * q + (2 ^ j - 1)) + 1) := by omega
  refine Nat.eq_of_testBit_eq fun i => ?_
  rw [ZHeap.rewind, Nat.testBit_and, pred, Nat.testBit_two_pow_sub_succ (by omega),
    (testBit_lowest j q i).1, (testBit_lowest j q i).2, Nat.testBit_two_pow]
  by_cases low : i < j + 1
  · rw [if_pos low, if_pos low]
    by_cases isJ : j = i
    · subst isJ
      simp [below]
    · simp [isJ]
  · rw [if_neg low, if_neg low]
    have ne : j ≠ i := by omega
    cases q.testBit (i - (j + 1)) <;> simp [ne]

theorem exists_two_pow {align : Nat} (positive : align ≠ 0) (single : align &&& (align - 1) = 0)
    : ∃ k, align = 2 ^ k := by
  obtain ⟨j, q, rfl⟩ := exists_lowest positive
  by_cases only : q = 0
  · exact ⟨j, by rw [only, Nat.mul_zero, Nat.zero_add]⟩
  · obtain ⟨i, set⟩ := Nat.exists_testBit_of_ne_zero only
    have power : 0 < 2 ^ j := Nat.two_pow_pos j
    have pred : 2 ^ (j + 1) * q + 2 ^ j - 1 = 2 ^ (j + 1) * q + (2 ^ j - 1) := by omega
    have bit := congrArg (Nat.testBit · (i + (j + 1))) single
    simp only [pred, Nat.testBit_and, (testBit_lowest j q _).1, (testBit_lowest j q _).2,
      Nat.zero_testBit] at bit
    rw [if_neg (by omega), if_neg (by omega), Nat.add_sub_cancel, set] at bit
    simp at bit

/-! ### Aligned allocation -/

/-- The alignment without its rewind. -/
def alignment (align : Nat) : Nat :=
  if align ≠ ZHeap.rewind align then align - ZHeap.rewind align else align

/-- The rewind, if the argument has one. -/
def rewindBytes (align : Nat) : Nat :=
  if align ≠ ZHeap.rewind align then ZHeap.rewind align else 0

/-- A `size_t` that passes the assertion of `sys_heap_aligned_alloc`. -/
def AlignAccepted (align : Nat) : Prop :=
  align < 2 ^ 32 ∧ alignment align &&& (alignment align - 1) = 0

/-- An address that has the requested alignment after its rewind. -/
def AlignedTo (align mem : Nat) : Prop :=
  align = 0 ∨ alignment align ∣ mem + rewindBytes align

/-- The size that `alloc_chunk` is asked for is counted without wrapping around and has a
bucket, on each path of `sys_heap_aligned_alloc`.
-/
def AlignedInRange (last align bytes : Nat) : Prop :=
  if align ≠ ZHeap.rewind align then
    PaddedInRange last bytes (align - ZHeap.rewind align)
      (min (ZHeap.rewind align) (chunkHeaderBytes last))
  else if align ≤ chunkHeaderBytes last then
    InRange last bytes (bytesToChunksz last bytes)
  else
    PaddedInRange last bytes align (chunkHeaderBytes last)

instance (last align bytes : Nat) : Decidable (AlignedInRange last align bytes) :=
  inferInstanceAs
    (Decidable
      (if align ≠ ZHeap.rewind align then PaddedInRange ..
        else if align ≤ chunkHeaderBytes last then InRange ..
        else PaddedInRange ..))

theorem chunkHeaderBytes_pow (last : Nat) : ∃ k, chunkHeaderBytes last = 2 ^ k ∧ k ≤ 3 := by
  rw [chunkHeaderBytes]
  split
  · exact ⟨3, rfl, Nat.le_refl _⟩
  · exact ⟨2, rfl, by decide⟩

theorem pow_dvd_of_le {j k : Nat} (le : 2 ^ j ≤ 2 ^ k) : 2 ^ j ∣ 2 ^ k :=
  Nat.pow_dvd_pow 2 ((Nat.pow_le_pow_iff_right (by decide)).mp le)

theorem rewind_divides {align : Nat} (accepted : AlignAccepted align)
    (split : align ≠ ZHeap.rewind align)
    : 0 < align - ZHeap.rewind align
      ∧ min (ZHeap.rewind align) (chunkHeaderBytes last) ∣ align - ZHeap.rewind align
      ∧ min (ZHeap.rewind align) (chunkHeaderBytes last) ∣ ZHeap.rewind align
      ∧ min (ZHeap.rewind align) (chunkHeaderBytes last) ∣ chunkHeaderBytes last := by
  have nonzero : align ≠ 0 := by
    rintro rfl
    exact split rfl
  obtain ⟨small, single⟩ := accepted
  rw [alignment, if_pos split] at single
  obtain ⟨j, q, rfl⟩ := exists_lowest nonzero
  rw [rewind_eq small] at *
  rw [Nat.add_sub_cancel] at *
  have positive : 0 < 2 ^ (j + 1) * q := by
    refine Nat.pos_of_ne_zero fun zero => split ?_
    rw [zero, Nat.zero_add]
  obtain ⟨e, header, -⟩ := chunkHeaderBytes_pow last
  have lowest : 2 ^ j ∣ 2 ^ (j + 1) * q :=
    Nat.dvd_trans (Nat.pow_dvd_pow 2 (Nat.le_succ j)) (Nat.dvd_mul_right _ _)
  rw [header]
  rcases Nat.le_total (2 ^ j) (2 ^ e) with le | ge
  · rw [Nat.min_eq_left le]
    exact ⟨positive, lowest, Nat.dvd_refl _, pow_dvd_of_le le⟩
  · rw [Nat.min_eq_right ge]
    exact ⟨positive, Nat.dvd_trans (pow_dvd_of_le ge) lowest, pow_dvd_of_le ge, Nat.dvd_refl _⟩

theorem sysHeapAlignedAlloc_answered {align bytes : Nat} (sizes : Sizes last)
    (shape : Shape h base last tiles ∅) (aligned : 8 ∣ base) (accepted : AlignAccepted align)
    (inRange : AlignedInRange last align bytes)
    : Answered base last h tiles bytes (AlignedTo align)
        (h.sysHeapAlignedAlloc align bytes) := by
  obtain ⟨lists, represented⟩ := id shape
  obtain ⟨e, header, few⟩ := chunkHeaderBytes_pow last
  unfold AlignedInRange at inRange
  rw [ZHeap.sysHeapAlignedAlloc, represented.endChunk]
  by_cases split : align ≠ ZHeap.rewind align
  · rw [if_pos split] at inRange
    rw [if_pos split]
    obtain ⟨positive, gapAlign, gapRew, gapHeader⟩ := rewind_divides accepted split
    refine (allocPadded_answered sizes shape aligned positive gapAlign gapRew gapHeader
      inRange).imp fun mem multiple => .inr ?_
    rw [alignment, rewindBytes, if_pos split, if_pos split]
    exact multiple
  · rw [if_neg split] at inRange
    rw [if_neg split]
    have single := accepted.2
    rw [alignment, if_neg split] at single
    have noRewind : ∀ mem, align ∣ mem → AlignedTo align mem := by
      intro mem multiple
      rw [AlignedTo, alignment, rewindBytes, if_neg split, if_neg split]
      exact .inr multiple
    by_cases small : align ≤ chunkHeaderBytes last
    · rw [if_pos small] at inRange ⊢
      refine (sysHeapAlloc_answered sizes shape inRange).imp fun mem ⟨c, isMem⟩ => ?_
      by_cases zero : align = 0
      · exact .inl zero
      · obtain ⟨k, rfl⟩ := exists_two_pow zero single
        refine noRewind mem ?_
        rw [header] at small isMem
        have toHeader : 2 ^ k ∣ 2 ^ e := pow_dvd_of_le small
        have toUnit : 2 ^ k ∣ 8 := Nat.dvd_trans toHeader (Nat.pow_dvd_pow 2 few)
        rw [isMem]
        exact Nat.dvd_add (Nat.dvd_add (Nat.dvd_trans toUnit aligned)
          (Nat.dvd_trans toUnit (Nat.dvd_mul_right 8 c))) toHeader
    · rw [if_neg small] at inRange ⊢
      obtain ⟨k, rfl⟩ := exists_two_pow (by omega) single
      have gapAlign : chunkHeaderBytes last ∣ 2 ^ k := by
        rw [header] at small ⊢
        exact pow_dvd_of_le (by omega)
      exact (allocPadded_answered sizes shape aligned (Nat.two_pow_pos k) gapAlign
        (Nat.dvd_zero _) (Nat.dvd_refl _) inRange).imp fun mem multiple => noRewind mem multiple

end Zephyr.Heap
