import Zephyr.Qsort

/-! The binary search of `bsearch.c` in an array that `qsort_r` could have left. -/

namespace Zephyr.Qsort

/-- The loop of `bsearch`; `cmp` compares the key with an element. -/
def Call.bsearchLoop (q : Call) (mem : Nat → UInt8) (cmp : List UInt8 → Int)
    : Nat → Nat → Nat → Option Nat
  | 0, _, _ => none
  | fuel + 1, low, high =>
      if low < high then
        let index := low + (high - low) / 2
        let result := cmp (q.elem mem index)
        if result = 0 then some (q.addr index)
        else if result > 0 then q.bsearchLoop mem cmp fuel (index + 1) high
        else q.bsearchLoop mem cmp fuel low index
      else none

def Call.bsearch (q : Call) (mem : Nat → UInt8) (cmp : List UInt8 → Int) : Option Nat :=
  q.bsearchLoop mem cmp q.nmemb 0 q.nmemb

/-- The key goes after all elements before one it goes after, and before all after one it goes
before.
-/
def Call.Places (q : Call) (cmp : List UInt8 → Int) : Prop :=
  ∀ x y, q.Le x y → (0 < cmp y → 0 < cmp x) ∧ (cmp x < 0 → cmp y < 0)

variable {q : Call} {mem : Nat → UInt8} {cmp : List UInt8 → Int}

/-- The key goes between the elements before `low` and those from `high` on. -/
structure Between (q : Call) (mem : Nat → UInt8) (cmp : List UInt8 → Int) (low high : Nat)
    : Prop where
  isArray : high ≤ q.nmemb
  before : ∀ i < low, 0 < cmp (q.elem mem i)
  behind : ∀ i < q.nmemb, high ≤ i → cmp (q.elem mem i) < 0

theorem Between.absent {low high : Nat} (between : Between q mem cmp low high)
    (isClosed : high ≤ low)
    : ∀ i < q.nmemb, cmp (q.elem mem i) ≠ 0 := by
  intro i isBelow
  rcases Nat.lt_or_ge i low with isBefore | isBehind
  · exact (between.before i isBefore).ne'
  · exact (between.behind i isBelow (isClosed.trans isBehind)).ne

theorem bsearchLoop_finds {fuel low high : Nat} (places : q.Places cmp)
    (sorted : ∀ j < q.nmemb, ∀ i ≤ j, q.Le (q.elem mem i) (q.elem mem j))
    (enough : high ≤ fuel + low) (between : Between q mem cmp low high)
    : (∃ i < q.nmemb,
        q.bsearchLoop mem cmp fuel low high = some (q.addr i) ∧ cmp (q.elem mem i) = 0)
      ∨ q.bsearchLoop mem cmp fuel low high = none
        ∧ ∀ i < q.nmemb, cmp (q.elem mem i) ≠ 0 := by
  induction fuel generalizing low high with
  | zero => exact .inr ⟨rfl, between.absent (by omega)⟩
  | succ fuel ih =>
      have isArray := between.isArray
      unfold Call.bsearchLoop
      by_cases isOpen : low < high
      · have isInside : low + (high - low) / 2 < q.nmemb := by omega
        rw [if_pos isOpen]
        dsimp only
        split_ifs with isFound isGreater
        · exact .inl ⟨_, isInside, rfl, isFound⟩
        · refine ih (by omega) { between with before := fun i isBefore => ?_ }
          exact (places _ _ (sorted _ isInside i (by omega))).1 isGreater
        · refine ih (by omega) ⟨by omega, between.before, fun i isBelow isFrom => ?_⟩
          exact (places _ _ (sorted i isBelow _ isFrom)).2 (by omega)
      · rw [if_neg isOpen]
        exact .inr ⟨rfl, between.absent (by omega)⟩

/-- In a sorted array `bsearch` returns the address of an element that compares equal to the key,
and `NULL` exactly when there is none.
-/
theorem bsearch_finds_sorted (places : q.Places cmp)
    (sorted : ∀ j < q.nmemb, ∀ i ≤ j, q.Le (q.elem mem i) (q.elem mem j))
    : (∀ found, q.bsearch mem cmp = some found
        → ∃ i < q.nmemb, found = q.addr i ∧ cmp (q.elem mem i) = 0)
      ∧ (q.bsearch mem cmp = none ↔ ∀ i < q.nmemb, cmp (q.elem mem i) ≠ 0) := by
  have between : Between q mem cmp 0 q.nmemb :=
    ⟨le_rfl, fun i isBefore => absurd isBefore (by omega),
      fun i isBelow isFrom => absurd isBelow (by omega)⟩
  unfold Call.bsearch
  have enough : q.nmemb ≤ q.nmemb + 0 := Nat.le_refl _
  rcases bsearchLoop_finds places sorted enough between with
    ⟨i, isBelow, isFound, isEqual⟩ | ⟨isNone, absent⟩
  · rw [isFound]
    refine ⟨fun found same => ⟨i, isBelow, (Option.some.inj same).symm, isEqual⟩, ?_⟩
    exact iff_of_false (Option.some_ne_none _) fun absent => absent i isBelow isEqual
  · rw [isNone]
    exact ⟨fun found same => absurd same.symm (Option.some_ne_none _), iff_of_true rfl absent⟩

/-- The key `6` is found in the second of three sorted elements. -/
theorem three_elements_searched
    : let mem : Nat → UInt8 := fun x => [0, 0, 0, 0, 5, 2, 6, 3, 7, 1].getD x 0
      threeElements.bsearch mem (byFirstByte [6]) = some 6
      ∧ ∃ i < 3, 6 = threeElements.addr i ∧ byFirstByte [6] (threeElements.elem mem i) = 0 := by
  intro mem
  have places : threeElements.Places (byFirstByte [6]) := by
    intro x y isLe
    simp only [Call.Le, threeElements, byFirstByte] at isLe ⊢
    omega
  have found : threeElements.bsearch mem (byFirstByte [6]) = some 6 := by decide
  exact ⟨found, (bsearch_finds_sorted places (by unfold Call.Le; decide)).1 6 found⟩

end Zephyr.Qsort
