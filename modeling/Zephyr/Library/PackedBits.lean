import Mathlib.Data.List.GetD
import Mathlib.Tactic.Common

/-! Bits packed into words: the bit with a number, masks, and the lowest set bit of a word. -/

namespace Zephyr.Library.PackedBits

variable {w : Nat}

/-- The bit with a number; behind the last word there is nothing. -/
def bitAt (words : List (BitVec w)) (number : Nat) : Bool :=
  (words.getD (number / w) 0).getLsbD (number % w)

theorem bitAt_word (words : List (BitVec w)) (index : Nat) {place : Nat} (inWord : place < w)
    : bitAt words (w * index + place) = (words.getD index 0).getLsbD place := by
  rw [bitAt, Nat.mul_add_div (by omega), Nat.div_eq_of_lt inWord, Nat.add_zero,
    Nat.mul_add_mod, Nat.mod_eq_of_lt inWord]

theorem words_ext {left right : List (BitVec w)} (length : left.length = right.length)
    (bits : ∀ number, bitAt left number = bitAt right number)
    : left = right := by
  refine List.ext_getElem length fun index inLeft inRight => ?_
  refine BitVec.eq_of_getLsbD_eq fun place inWord => ?_
  have same := bits (w * index + place)
  rw [bitAt_word _ _ inWord, bitAt_word _ _ inWord] at same
  simpa only [List.getD_eq_getElem _ _ inLeft, List.getD_eq_getElem _ _ inRight] using same

theorem bitAt_set {words : List (BitVec w)} {index : Nat} (inside : index < words.length)
    (word : BitVec w) (number : Nat)
    : bitAt (words.set index word) number
      = if number / w = index then word.getLsbD (number % w) else bitAt words number := by
  unfold bitAt
  split
  · rename_i same
    rw [same, List.getD_eq_getElem _ _ (by rwa [List.length_set]), List.getElem_set_self]
  · rename_i other
    rw [List.getD_eq_getElem?_getD, List.getD_eq_getElem?_getD,
      List.getElem?_set_ne (Ne.symm other)]

/-! ### Masks -/

theorem getLsbD_shiftLeft_one_sub_one {n : Nat} (inWord : n < w) (place : Nat)
    : ((1#w <<< n) - 1#w).getLsbD place = decide (place < n) := by
  have one : 1 < 2 ^ w := Nat.one_lt_two_pow (by omega)
  have power : 2 ^ n < 2 ^ w := Nat.pow_lt_pow_right (by omega) inWord
  have low := Nat.one_le_two_pow (n := n)
  have value : ((1#w <<< n) - 1#w).toNat = 2 ^ n - 1 := by
    rw [BitVec.toNat_sub, BitVec.toNat_shiftLeft, BitVec.toNat_ofNat, Nat.mod_eq_of_lt one,
      Nat.one_shiftLeft, Nat.mod_eq_of_lt power]
    have split : 2 ^ w - 1 + 2 ^ n = 2 ^ n - 1 + 2 ^ w := by omega
    rw [split, Nat.add_mod_right, Nat.mod_eq_of_lt (by omega)]
  rw [BitVec.getLsbD, value, Nat.testBit_two_pow_sub_one]

theorem getLsbD_shiftLeft_one (n place : Nat)
    : (1#w <<< n).getLsbD place = decide (place < w ∧ place = n) := by
  rw [← BitVec.twoPow_eq, BitVec.getLsbD_twoPow]
  by_cases inWord : n < w
  · by_cases same : n = place
    · subst same
      simp [inWord]
    · simp [inWord, same, Ne.symm same]
  · simp only [inWord, decide_false, Bool.false_and, Bool.false_eq, decide_eq_false_iff_not]
    omega

theorem bitAt_replicate_zero (length number : Nat)
    : bitAt (List.replicate length (0 : BitVec w)) number = false := by
  unfold bitAt
  by_cases inside : number / w < length
  · rw [List.getD_replicate _ inside]
    exact BitVec.getLsbD_zero
  · rw [List.getD_eq_default _ _ (by rw [List.length_replicate]; omega)]
    exact BitVec.getLsbD_zero

theorem place_eq_iff {left right : Nat} (word : left / w = right / w)
    : left % w = right % w ↔ left = right := by
  constructor
  · intro place
    rw [← Nat.div_add_mod left w, ← Nat.div_add_mod right w, word, place]
  · rintro rfl
    rfl

theorem bitAt_setBit {words : List (BitVec w)} {number : Nat} (pos : 0 < w)
    (inside : number / w < words.length) (other : Nat)
    : bitAt (words.set (number / w) (words.getD (number / w) 0 ||| 1#w <<< (number % w))) other
      = (decide (other = number) || bitAt words other) := by
  rw [bitAt_set inside]
  by_cases word : other / w = number / w
  · rw [if_pos word, BitVec.getLsbD_or, getLsbD_shiftLeft_one, ← word, ← bitAt, Bool.or_comm]
    congr 1
    simp only [Nat.mod_lt other pos, place_eq_iff word, true_and]
  · have different : other ≠ number := by
      rintro rfl
      exact word rfl
    simp [word, different]

theorem bitAt_clearBit {words : List (BitVec w)} {number : Nat} (pos : 0 < w)
    (inside : number / w < words.length) (other : Nat)
    : bitAt (words.set (number / w) (words.getD (number / w) 0 &&& ~~~(1#w <<< (number % w))))
          other
      = (!decide (other = number) && bitAt words other) := by
  rw [bitAt_set inside]
  by_cases word : other / w = number / w
  · rw [if_pos word, BitVec.getLsbD_and, BitVec.getLsbD_not, getLsbD_shiftLeft_one, ← word,
      ← bitAt, Bool.and_comm]
    congr 1
    simp only [Nat.mod_lt other pos, place_eq_iff word, true_and, decide_true, Bool.true_and]
  · have different : other ≠ number := by
      rintro rfl
      exact word rfl
    simp [word, different]

theorem and_eq_iff {word mask : BitVec w}
    : word &&& mask = mask ↔ ∀ place < w, mask.getLsbD place → word.getLsbD place := by
  constructor
  · intro same place inWord masked
    have bit := congrArg (fun word => word.getLsbD place) same
    simp only [BitVec.getLsbD_and, masked, Bool.and_true] at bit
    exact bit
  · intro contained
    refine BitVec.eq_of_getLsbD_eq fun place inWord => ?_
    rw [BitVec.getLsbD_and]
    cases masked : mask.getLsbD place with
    | false => simp
    | true => simp [contained place inWord masked]

theorem eq_zero_iff {word : BitVec w}
    : word = 0#w ↔ ∀ place < w, word.getLsbD place = false := by
  constructor
  · rintro rfl place _
    exact BitVec.getLsbD_zero
  · intro clear
    refine BitVec.eq_of_getLsbD_eq fun place inWord => ?_
    rw [clear place inWord, BitVec.getLsbD_zero]

/-! ### The lowest set bit -/

/-- The lowest place of a word that is set, or the width when none is. -/
def lowestSet (word : BitVec w) : Nat :=
  ((List.range w).find? fun place => word.getLsbD place).getD w

theorem lowestSet_spec {word : BitVec w} (nonzero : word ≠ 0#w)
    : lowestSet word < w
      ∧ word.getLsbD (lowestSet word)
      ∧ ∀ place < lowestSet word, word.getLsbD place = false := by
  obtain ⟨place, inWord, set⟩ : ∃ place, place < w ∧ word.getLsbD place = true := by
    by_contra none
    refine nonzero (eq_zero_iff.mpr fun place inWord => ?_)
    by_contra set
    exact none ⟨place, inWord, by simpa using set⟩
  unfold lowestSet
  cases found : (List.range w).find? fun place => word.getLsbD place with
  | none =>
      have clear := List.find?_eq_none.mp found place (List.mem_range.mpr inWord)
      exact absurd set clear
  | some first =>
      have inRange := List.mem_range.mp (List.mem_of_find?_eq_some found)
      refine ⟨inRange, List.find?_some found, fun earlier before => ?_⟩
      have clear := (List.find?_range_eq_some.mp found).2.2 earlier before
      simpa using clear

end Zephyr.Library.PackedBits
