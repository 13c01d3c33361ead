import Zephyr.BitArray.Regions

/-! `sys_bitarray_alloc` takes the first region of clear bits that is long enough, and
`sys_bitarray_free` gives it back.
-/

namespace Zephyr.BitArray

open Zephyr.Library.PackedBits

variable {bitarray : SysBitarray} {offset numBits : Nat}

/-! ### The search -/

/-- A region of the array whose bits are all clear. -/
def SysBitarray.ClearRun (bitarray : SysBitarray) (numBits offset : Nat) : Prop :=
  offset + numBits ≤ bitarray.numBits
  ∧ ∀ number, InRegion offset numBits number → bitarray.bit number = false

/-- The first loop stops at a bit with only allocated bits before it.
The counter wraps around when all bundles of the largest arrays are full; the search then starts
from zero.
-/
theorem firstFree_spec (bitarray : SysBitarray) (bundles : List (BitVec 32)) (done bitIdx : Nat)
    (rest : bitarray.bundles.drop done = bundles) (counted : bitIdx ≤ 32 * done)
    (full : ∀ number < 32 * done, bitarray.bit number = true)
    : ∀ number < firstFree bundles bitIdx, bitarray.bit number = true := by
  induction bundles generalizing done bitIdx with
  | nil =>
      intro number before
      exact full number (Nat.lt_of_lt_of_le before counted)
  | cons bundle later ih =>
      have here : bitarray.bundle done = bundle := by
        have first := congrArg List.head? rest
        rw [List.head?_drop, List.head?_cons] at first
        rw [SysBitarray.bundle, List.getD_eq_getElem?_getD, first, Option.getD_some]
      have bits (place : Nat) (inWord : place < 32) (clear : (~~~bundle).getLsbD place = false)
          : bitarray.bit (32 * done + place) = true := by
        rw [bitarray.bit_bundle done inWord, here]
        simpa [inWord] using clear
      rw [firstFree]
      by_cases all : ~~~bundle = 0#32
      · rw [if_pos all]
        refine ih (done + 1) _ ?_ (by omega) ?_
        · rw [← List.drop_drop, rest, List.drop_one, List.tail_cons]
        · intro number before
          rcases Nat.lt_or_ge number (32 * done) with earlier | now
          · exact full number earlier
          · have set := bits (number - 32 * done) (by omega)
              (eq_zero_iff.mp all _ (by omega))
            rwa [Nat.add_sub_cancel' now] at set
      · rw [if_neg all]
        split
        · obtain ⟨inWord, _, below⟩ := lowestSet_spec all
          have found : findLsbSet (~~~bundle) - 1 = lowestSet (~~~bundle) := by
            rw [findLsbSet, if_neg all, Nat.add_sub_cancel]
          intro number before
          rw [found] at before
          rcases Nat.lt_or_ge number (32 * done) with earlier | now
          · exact full number earlier
          · have upTo : number < bitIdx + lowestSet (~~~bundle) :=
              Nat.lt_of_lt_of_le before (Nat.mod_le ..)
            have set := bits (number - 32 * done) (by omega) (below _ (by omega))
            rwa [Nat.add_sub_cancel' now] at set
        · intro number before
          exact full number (Nat.lt_of_lt_of_le before counted)

theorem allocLoop_spec (pos : 1 ≤ numBits) (le : numBits ≤ bitarray.numBits) {turns bitIdx : Nat}
    (enough : bitarray.numBits < turns + bitIdx) (turn : 1 ≤ turns)
    (before : ∀ earlier < bitIdx, ¬bitarray.ClearRun numBits earlier)
    : (∃ offset,
        bitarray.ClearRun numBits offset
        ∧ (∀ earlier < offset, ¬bitarray.ClearRun numBits earlier)
        ∧ allocLoop bitarray numBits (bitarray.numBits - numBits) turns bitIdx
          = some (0, some offset, setRegion bitarray true (setupBundleData offset numBits)))
      ∨ (∀ offset, ¬bitarray.ClearRun numBits offset)
        ∧ allocLoop bitarray numBits (bitarray.numBits - numBits) turns bitIdx
          = some (-enospc, none, bitarray) := by
  have limit := bitarray.numBits_lt
  induction turns generalizing bitIdx with
  | zero => exact absurd turn (by decide)
  | succ turns ih =>
      by_cases inside : bitIdx ≤ bitarray.numBits - numBits
      · obtain ⟨setup, same, other⟩ := matchRegion_spec false pos
          (show bitIdx + numBits ≤ bitarray.numBits by omega)
        rw [allocLoop, if_pos inside]
        generalize matchRegion bitarray bitIdx numBits false = result at *
        obtain ⟨bd, found⟩ := result
        cases found with
        | none =>
            dsimp only at setup
            refine .inl ⟨bitIdx, ⟨by omega, same rfl⟩, before, ?_⟩
            rw [setup]
        | some mismatch =>
            obtain ⟨⟨low, high⟩, set⟩ := other mismatch rfl
            have next : (mismatch + 1) % 2 ^ 32 = mismatch + 1 := Nat.mod_eq_of_lt (by omega)
            dsimp only
            rw [next]
            refine ih (by omega) (by omega) fun earlier upTo fitting => ?_
            rcases Nat.lt_or_ge earlier bitIdx with past | later
            · exact before earlier past fitting
            · exact set (fitting.2 mismatch ⟨by omega, by omega⟩)
      · rw [allocLoop, if_neg inside]
        refine .inr ⟨fun offset fitting => ?_, rfl⟩
        exact before offset (by have := fitting.1; omega) fitting

theorem free_setRegion (pos : 1 ≤ numBits) (clear : bitarray.ClearRun numBits offset)
    : sysBitarrayFree (setRegion bitarray true (setupBundleData offset numBits)) numBits offset
      = (0, bitarray) := by
  have limit := bitarray.numBits_lt
  have fits := clear.1
  obtain ⟨size, bits⟩ := setRegion_spec true pos fits
  generalize setRegion bitarray true (setupBundleData offset numBits) = taken at *
  have fits' : offset + numBits ≤ taken.numBits := by omega
  have last := offEnd_eq pos (show offset + numBits < 2 ^ 32 by omega)
  obtain ⟨setup, _, other⟩ := matchRegion_spec true pos fits'
  obtain ⟨sizeBack, bitsBack⟩ := setRegion_spec false pos fits'
  rw [sysBitarrayFree, if_neg (by omega)]
  generalize matchRegion taken offset numBits true = result at *
  obtain ⟨bd, found⟩ := result
  cases found with
  | some mismatch =>
      obtain ⟨inside, differs⟩ := other mismatch rfl
      rw [bits mismatch, if_pos inside] at differs
      exact absurd rfl differs
  | none =>
      dsimp only at setup ⊢
      rw [setup]
      generalize setRegion taken false (setupBundleData offset numBits) = back at *
      have same : back = bitarray := by
        refine SysBitarray.ext (sizeBack.trans size) (words_ext ?_ fun number => ?_)
        · rw [back.length_eq, bitarray.length_eq, sizeBack, size]
        · have number' := bitsBack number
          rw [bits number] at number'
          by_cases inside : InRegion offset numBits number
          · rw [if_pos inside] at number'
            exact number'.trans (clear.2 number inside).symm
          · rw [if_neg inside, if_neg inside] at number'
            exact number'
      rw [same]

/-- Forty bits, the first four of them and the sixth allocated. -/
def fortyBits : SysBitarray :=
  ⟨40, [0x2f#32, 0#32], by decide, by decide, by decide⟩

end Zephyr.BitArray
