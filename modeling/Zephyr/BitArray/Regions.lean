import Zephyr.BitArray.Model

/-! `match_region` and `set_region` read and change the bits of a region, whatever bundles it lies
in.
-/

namespace Zephyr.BitArray

open Zephyr.Library.PackedBits

variable {bitarray : SysBitarray} {offset numBits number : Nat} {matchSet toSet : Bool}

/-! ### Masks of a region -/

/-- The bits from an offset on. -/
def InRegion (offset numBits number : Nat) : Prop :=
  offset ≤ number ∧ number < offset + numBits

instance : Decidable (InRegion offset numBits number) :=
  inferInstanceAs (Decidable (_ ∧ _))

theorem offEnd_eq (pos : 1 ≤ numBits) (fits : offset + numBits < 2 ^ 32)
    : offEnd offset numBits = offset + numBits - 1 := by
  rw [offEnd]
  omega

theorem getLsbD_from {soff place : Nat} (start : soff < 32) (inWord : place < 32)
    : (~~~(cBit soff - 1#32)).getLsbD place = decide (soff ≤ place) := by
  rw [BitVec.getLsbD_not, cBit, getLsbD_shiftLeft_one_sub_one start]
  simp only [inWord, decide_true, Bool.true_and, ← decide_not, Nat.not_lt]

theorem getLsbD_upTo {eoff place : Nat} (inWordEnd : eoff < 32)
    : ((cBit eoff - 1#32) ||| cBit eoff).getLsbD place = decide (place ≤ eoff) := by
  rw [BitVec.getLsbD_or, cBit, getLsbD_shiftLeft_one_sub_one inWordEnd, getLsbD_shiftLeft_one,
    ← Bool.decide_or, decide_eq_decide]
  omega

theorem smask_spec (pos : 1 ≤ numBits) (fits : offset + numBits < 2 ^ 32) {place : Nat}
    (inWord : place < 32)
    : (setupBundleData offset numBits).smask.getLsbD place
      = decide (InRegion offset numBits (32 * (setupBundleData offset numBits).sidx + place)) := by
  simp only [setupBundleData, offEnd_eq pos fits, InRegion]
  split
  · rw [BitVec.getLsbD_and, getLsbD_from (by omega) inWord, getLsbD_upTo (by omega),
      ← Bool.decide_and, decide_eq_decide]
    omega
  · rw [getLsbD_from (by omega) inWord, decide_eq_decide]
    omega

/-- The mask of the last bundle does so when it is another one. -/
theorem emask_spec (pos : 1 ≤ numBits) (fits : offset + numBits < 2 ^ 32) {place : Nat}
    (inWord : place < 32)
    (other : (setupBundleData offset numBits).sidx ≠ (setupBundleData offset numBits).eidx)
    : (setupBundleData offset numBits).emask.getLsbD place
      = decide (InRegion offset numBits (32 * (setupBundleData offset numBits).eidx + place)) := by
  simp only [setupBundleData, offEnd_eq pos fits, InRegion] at *
  rw [getLsbD_upTo (by omega), decide_eq_decide]
  omega

theorem bundles_of_region (pos : 1 ≤ numBits) (fits : offset + numBits < 2 ^ 32)
    : (setupBundleData offset numBits).sidx = offset / 32
      ∧ (setupBundleData offset numBits).eidx = (offset + numBits - 1) / 32 := by
  simp only [setupBundleData, offEnd_eq pos fits, and_self]

/-! ### Matching -/

theorem SysBitarray.bit_bundle (bitarray : SysBitarray) (idx : Nat) {place : Nat} (inWord : place < 32)
    : bitarray.bit (32 * idx + place) = (bitarray.bundle idx).getLsbD place :=
  bitAt_word _ _ inWord

theorem getLsbD_matchBundle (bundle : BitVec 32) {place : Nat} (inWord : place < 32)
    : (matchBundle matchSet bundle).getLsbD place = (bundle.getLsbD place == matchSet) := by
  cases matchSet <;> simp [matchBundle, inWord]

theorem mismatchBit_spec {bundle : BitVec 32} {idx : Nat} (nonzero : bundle ≠ 0#32)
    (inside : 32 * idx + 31 < 2 ^ 32)
    : ∃ place < 32, bundle.getLsbD place ∧ mismatchBit bundle idx = 32 * idx + place := by
  obtain ⟨inWord, set, _⟩ := lowestSet_spec nonzero
  refine ⟨lowestSet bundle, inWord, set, ?_⟩
  rw [mismatchBit, findLsbSet, if_neg nonzero]
  omega

theorem mismatch_masked {mask : BitVec 32} {idx : Nat}
    (spec
      : ∀ place < 32, mask.getLsbD place = decide (InRegion offset numBits (32 * idx + place)))
    (missing : matchBundle matchSet (bitarray.bundle idx) &&& mask ≠ mask)
    (inside : 32 * idx + 31 < 2 ^ 32)
    : InRegion offset numBits
        (mismatchBit (~~~matchBundle matchSet (bitarray.bundle idx) &&& mask) idx)
      ∧ bitarray.bit (mismatchBit (~~~matchBundle matchSet (bitarray.bundle idx) &&& mask) idx)
        ≠ matchSet := by
  have nonzero : ~~~matchBundle matchSet (bitarray.bundle idx) &&& mask ≠ 0#32 := by
    intro zero
    refine missing (and_eq_iff.mpr fun place inWord masked => ?_)
    have clear := eq_zero_iff.mp zero place inWord
    rw [BitVec.getLsbD_and, BitVec.getLsbD_not, masked] at clear
    simpa [inWord] using clear
  obtain ⟨place, inWord, set, found⟩ := mismatchBit_spec nonzero inside
  rw [BitVec.getLsbD_and, BitVec.getLsbD_not, Bool.and_eq_true, Bool.and_eq_true,
    getLsbD_matchBundle _ inWord, ← bitarray.bit_bundle idx inWord, spec place inWord] at set
  rw [found]
  exact ⟨of_decide_eq_true set.2, by simpa using set.1.2⟩

theorem same_masked {mask : BitVec 32} {idx : Nat}
    (spec
      : ∀ place < 32, mask.getLsbD place = decide (InRegion offset numBits (32 * idx + place)))
    (contained : matchBundle matchSet (bitarray.bundle idx) &&& mask = mask)
    (inside : InRegion offset numBits number) (here : number / 32 = idx)
    : bitarray.bit number = matchSet := by
  have inWord : number % 32 < 32 := Nat.mod_lt _ (by decide)
  have whole : 32 * idx + number % 32 = number := by omega
  have same := and_eq_iff.mp contained (number % 32) inWord
    (by rw [spec _ inWord, whole]; exact decide_eq_true inside)
  rw [getLsbD_matchBundle _ inWord, ← bitarray.bit_bundle idx inWord, whole] at same
  simpa using same

theorem matchBetween_spec (bitarray : SysBitarray) (matchSet : Bool) (left idx : Nat)
    (inside : 32 * (idx + left) ≤ 2 ^ 32)
    : (matchBetween bitarray matchSet left idx = none
        → ∀ number, 32 * idx ≤ number → number < 32 * (idx + left)
          → bitarray.bit number = matchSet)
      ∧ ∀ mismatch, matchBetween bitarray matchSet left idx = some mismatch
          → 32 * idx ≤ mismatch
            ∧ mismatch < 32 * (idx + left)
            ∧ bitarray.bit mismatch ≠ matchSet := by
  induction left generalizing idx with
  | zero =>
      refine ⟨fun _ number low high => ?_, nofun⟩
      omega
  | succ left ih =>
      obtain ⟨restSame, restOther⟩ := ih (idx + 1) (by omega)
      have flipped (place : Nat) (inWord : place < 32)
          : (if matchSet then ~~~bitarray.bundle idx else bitarray.bundle idx).getLsbD place
            = (bitarray.bit (32 * idx + place) != matchSet) := by
        rw [bitarray.bit_bundle idx inWord]
        cases matchSet <;> simp [inWord]
      simp only [matchBetween]
      generalize (if matchSet then ~~~bitarray.bundle idx else bitarray.bundle idx) = bundle
        at flipped ⊢
      by_cases zero : bundle = 0#32
      · have same (place : Nat) (inWord : place < 32)
            : bitarray.bit (32 * idx + place) = matchSet := by
          have clear := eq_zero_iff.mp zero place inWord
          rw [flipped place inWord] at clear
          simpa using clear
        rw [if_neg (not_not.mpr zero)]
        refine ⟨fun none number low high => ?_, fun mismatch found => ?_⟩
        · rcases Nat.lt_or_ge number (32 * (idx + 1)) with here | later
          · have := same (number - 32 * idx) (by omega)
            rwa [Nat.add_sub_cancel' low] at this
          · exact restSame none number later (by omega)
        · obtain ⟨low, high, differs⟩ := restOther mismatch found
          exact ⟨by omega, by omega, differs⟩
      · rw [if_pos zero]
        refine ⟨nofun, fun mismatch found => ?_⟩
        obtain ⟨place, inWord, set, same⟩ :=
          mismatchBit_spec zero (show 32 * idx + 31 < 2 ^ 32 by omega)
        rw [flipped place inWord, ← same, Option.some.inj found] at set
        rw [Option.some.inj found] at same
        exact ⟨by omega, by omega, by simpa using set⟩

/-- `match_region` tells whether all bits of the region match, and else names one that does not. -/
theorem matchRegion_spec (matchSet : Bool) (pos : 1 ≤ numBits)
    (fits : offset + numBits ≤ bitarray.numBits)
    : (matchRegion bitarray offset numBits matchSet).1 = setupBundleData offset numBits
      ∧ ((matchRegion bitarray offset numBits matchSet).2 = none
          → ∀ number, InRegion offset numBits number → bitarray.bit number = matchSet)
      ∧ ∀ mismatch, (matchRegion bitarray offset numBits matchSet).2 = some mismatch
          → InRegion offset numBits mismatch ∧ bitarray.bit mismatch ≠ matchSet := by
  have limit := bitarray.numBits_lt
  have fits' : offset + numBits < 2 ^ 32 := by omega
  obtain ⟨sidx, eidx⟩ := bundles_of_region pos fits'
  have start (place : Nat) (inWord : place < 32) := smask_spec pos fits' inWord
  have emask_spec' (place : Nat) (inWord : place < 32) := emask_spec pos fits' inWord
  simp only [matchRegion]
  generalize setupBundleData offset numBits = bd at *
  by_cases startMissing : matchBundle matchSet (bitarray.bundle bd.sidx) &&& bd.smask ≠ bd.smask
  · have other := mismatch_masked start startMissing (by omega)
    rw [if_pos startMissing]
    refine ⟨rfl, nofun, fun mismatch found => ?_⟩
    rwa [← Option.some.inj found]
  · have startSame {number : Nat} (inside : InRegion offset numBits number)
        (here : number / 32 = bd.sidx) : bitarray.bit number = matchSet :=
      same_masked start (not_not.mp startMissing) inside here
    rw [if_neg startMissing]
    by_cases one : bd.sidx = bd.eidx
    · rw [if_pos one]
      refine ⟨rfl, fun _ number inside => startSame inside ?_, nofun⟩
      unfold InRegion at inside
      omega
    · have last (place : Nat) (inWord : place < 32) := emask_spec' place inWord one
      rw [if_neg one]
      by_cases lastMissing
          : matchBundle matchSet (bitarray.bundle bd.eidx) &&& bd.emask ≠ bd.emask
      · have other := mismatch_masked last lastMissing (by omega)
        rw [if_pos lastMissing]
        refine ⟨rfl, nofun, fun mismatch found => ?_⟩
        rwa [← Option.some.inj found]
      · obtain ⟨betweenSame, betweenOther⟩ := matchBetween_spec bitarray matchSet
          (bd.eidx - (bd.sidx + 1)) (bd.sidx + 1) (by omega)
        rw [if_neg lastMissing]
        generalize matchBetween _ _ _ _ = found at *
        refine ⟨rfl, fun none number inside => ?_, fun mismatch some => ?_⟩
        · by_cases first : number / 32 = bd.sidx
          · exact startSame inside first
          · by_cases final : number / 32 = bd.eidx
            · exact same_masked last (not_not.mp lastMissing) inside final
            · unfold InRegion at inside
              exact betweenSame none number (by omega) (by omega)
        · obtain ⟨low, high, differs⟩ := betweenOther mismatch some
          refine ⟨?_, differs⟩
          unfold InRegion
          omega

/-! ### Changing a region -/

theorem SysBitarray.bit_setBundle {idx : Nat} (inside : idx < bitarray.bundles.length)
    (bundle : BitVec 32) (number : Nat)
    : (bitarray.setBundle idx bundle).bit number
      = if number / 32 = idx then bundle.getLsbD (number % 32) else bitarray.bit number :=
  bitAt_set inside bundle number

theorem getLsbD_changeBundle (mask bundle : BitVec 32) {place : Nat} (inWord : place < 32)
    : (changeBundle toSet mask bundle).getLsbD place
      = if mask.getLsbD place then toSet else bundle.getLsbD place := by
  cases toSet with
  | false =>
      simp only [changeBundle, Bool.false_eq_true, if_false, BitVec.getLsbD_and, BitVec.getLsbD_not,
        inWord, decide_true, Bool.true_and]
      cases mask.getLsbD place <;> simp
  | true =>
      simp only [changeBundle, if_true, BitVec.getLsbD_or]
      cases mask.getLsbD place <;> simp

theorem bit_changeBundle {mask : BitVec 32} {idx : Nat}
    (spec
      : ∀ place < 32, mask.getLsbD place = decide (InRegion offset numBits (32 * idx + place)))
    (stored : idx < bitarray.bundles.length)
    : (bitarray.setBundle idx (changeBundle toSet mask (bitarray.bundle idx))).bit number
      = if number / 32 = idx ∧ InRegion offset numBits number then toSet
        else bitarray.bit number := by
  have inWord : number % 32 < 32 := Nat.mod_lt _ (by decide)
  rw [SysBitarray.bit_setBundle stored]
  by_cases here : number / 32 = idx
  · have whole : 32 * idx + number % 32 = number := by omega
    rw [if_pos here, getLsbD_changeBundle _ _ inWord, spec _ inWord, whole,
      ← bitarray.bit_bundle idx inWord, whole]
    simp only [here, true_and, decide_eq_true_eq]
  · rw [if_neg here, if_neg (fun both => here both.1)]

theorem setBetween_spec (toSet : Bool) (left idx : Nat) (bitarray : SysBitarray)
    (stored : idx + left ≤ bitarray.bundles.length)
    : (setBetween toSet left idx bitarray).numBits = bitarray.numBits
      ∧ ∀ number,
          (setBetween toSet left idx bitarray).bit number
          = if idx ≤ number / 32 ∧ number / 32 < idx + left then toSet
            else bitarray.bit number := by
  induction left generalizing idx bitarray with
  | zero =>
      refine ⟨rfl, fun number => ?_⟩
      rw [if_neg (by omega)]
      rfl
  | succ left ih =>
      have length : (bitarray.setBundle idx (if toSet then ~~~0#32 else 0#32)).bundles.length
          = bitarray.bundles.length := List.length_set
      obtain ⟨size, rest⟩ := ih (idx + 1)
        (bitarray.setBundle idx (if toSet then ~~~0#32 else 0#32)) (by omega)
      refine ⟨size, fun number => ?_⟩
      have inWord : number % 32 < 32 := Nat.mod_lt _ (by decide)
      have filled : (if toSet then ~~~0#32 else 0#32 : BitVec 32).getLsbD (number % 32) = toSet := by
        cases toSet with
        | false => exact BitVec.getLsbD_zero
        | true =>
            simp only [if_true, BitVec.getLsbD_not, BitVec.getLsbD_zero, inWord, decide_true,
              Bool.not_false, Bool.and_self]
      rw [setBetween, rest number, SysBitarray.bit_setBundle (by omega), filled]
      by_cases here : number / 32 = idx
      · rw [if_neg (by omega), if_pos here, if_pos (by omega)]
      · rw [if_neg here]
        by_cases later : idx + 1 ≤ number / 32 ∧ number / 32 < idx + 1 + left
        · rw [if_pos later, if_pos (by omega)]
        · rw [if_neg later, if_neg (by omega)]

/-- `set_region` changes the bits of the region and no other ones. -/
theorem setRegion_spec (toSet : Bool) (pos : 1 ≤ numBits)
    (fits : offset + numBits ≤ bitarray.numBits)
    : (setRegion bitarray toSet (setupBundleData offset numBits)).numBits = bitarray.numBits
      ∧ ∀ number,
          (setRegion bitarray toSet (setupBundleData offset numBits)).bit number
          = if InRegion offset numBits number then toSet else bitarray.bit number := by
  have limit := bitarray.numBits_lt
  have length := bitarray.length_eq
  have fits' : offset + numBits < 2 ^ 32 := by omega
  obtain ⟨sidx, eidx⟩ := bundles_of_region pos fits'
  have start (place : Nat) (inWord : place < 32) := smask_spec pos fits' inWord
  have emask_spec' (place : Nat) (inWord : place < 32) := emask_spec pos fits' inWord
  simp only [setRegion]
  generalize setupBundleData offset numBits = bd at *
  have started (number : Nat)
      : (bitarray.setBundle bd.sidx
          (changeBundle toSet bd.smask (bitarray.bundle bd.sidx))).bit number
        = if number / 32 = bd.sidx ∧ InRegion offset numBits number then toSet
          else bitarray.bit number :=
    bit_changeBundle start (show bd.sidx < bitarray.bundles.length by omega)
  have startedSize : (bitarray.setBundle bd.sidx
      (changeBundle toSet bd.smask (bitarray.bundle bd.sidx))).numBits = bitarray.numBits := rfl
  have startedLength := (bitarray.setBundle bd.sidx
    (changeBundle toSet bd.smask (bitarray.bundle bd.sidx))).length_eq
  generalize bitarray.setBundle bd.sidx
    (changeBundle toSet bd.smask (bitarray.bundle bd.sidx)) = first at *
  by_cases one : bd.sidx = bd.eidx
  · rw [if_pos one]
    refine ⟨startedSize, fun number => ?_⟩
    rw [started number]
    refine if_congr ⟨fun both => both.2, fun inside => ⟨?_, inside⟩⟩ rfl rfl
    unfold InRegion at inside
    omega
  · rw [if_neg one]
    have ended (number : Nat)
        : (first.setBundle bd.eidx (changeBundle toSet bd.emask (first.bundle bd.eidx))).bit number
          = if number / 32 = bd.eidx ∧ InRegion offset numBits number then toSet
            else first.bit number :=
      bit_changeBundle (fun place inWord => emask_spec' place inWord one)
        (show bd.eidx < first.bundles.length by omega)
    have endedSize : (first.setBundle bd.eidx
        (changeBundle toSet bd.emask (first.bundle bd.eidx))).numBits = first.numBits := rfl
    have endedLength := (first.setBundle bd.eidx
      (changeBundle toSet bd.emask (first.bundle bd.eidx))).length_eq
    generalize first.setBundle bd.eidx
      (changeBundle toSet bd.emask (first.bundle bd.eidx)) = second at *
    obtain ⟨size, between⟩ := setBetween_spec toSet (bd.eidx - (bd.sidx + 1)) (bd.sidx + 1) second
      (by omega)
    refine ⟨size.trans (endedSize.trans startedSize), fun number => ?_⟩
    rw [between number, ended number, started number]
    unfold InRegion at *
    grind

end Zephyr.BitArray
