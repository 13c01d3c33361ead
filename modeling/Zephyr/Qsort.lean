import Zephyr.Library.HeapOrder

/-! `qsort_r` of the minimal C library: a heap sort in place over elements of any size.

The memory is a function of addresses. `int` values are natural numbers, as there are fewer than
2^30 elements.
-/

namespace Zephyr.Qsort

open Zephyr.Library

/-- `byteswp` -/
def byteswp : Nat → Nat → Nat → (Nat → UInt8) → (Nat → UInt8)
  | 0, _, _, mem => mem
  | size + 1, aa, bb, mem =>
      let t := mem aa
      byteswp size (aa + 1) (bb + 1) (Function.update (Function.update mem aa (mem bb)) bb t)

/-- The arguments of `qsort_r` -/
structure Call where
  base : Nat
  nmemb : Nat
  size : Nat
  /-- What the comparison function returns for the bytes of two elements. -/
  comp : List UInt8 → List UInt8 → Int

/-- `A(k)` -/
def Call.addr (q : Call) (k : Nat) : Nat :=
  q.base + q.size * k

/-- The bytes of an element. -/
def Call.elem (q : Call) (mem : Nat → UInt8) (k : Nat) : List UInt8 :=
  (List.range q.size).map fun off => mem (q.addr k + off)

def Call.compare (q : Call) (mem : Nat → UInt8) (i j : Nat) : Int :=
  q.comp (q.elem mem i) (q.elem mem j)

def Call.swap (q : Call) (i j : Nat) (mem : Nat → UInt8) : Nat → UInt8 :=
  byteswp q.size (q.addr i) (q.addr j) mem

/-- Which place the root is exchanged with in a turn of `sift_down`, or the root itself -/
def Call.swapPlace (q : Call) (mem : Nat → UInt8) (last root : Nat) : Nat :=
  let child := 2 * root + 1
  let swap := if q.compare mem root child < 0 then child else root
  if child + 1 < last ∧ q.compare mem swap (child + 1) < 0 then child + 1 else swap

/-- The loop of `sift_down` -/
def Call.siftDown (q : Call) (last : Nat) : Nat → Nat → (Nat → UInt8) → (Nat → UInt8)
  | 0, _, mem => mem
  | fuel + 1, root, mem =>
      if 2 * root + 1 < last then
        let swap := q.swapPlace mem last root
        if swap = root then mem else q.siftDown last fuel swap (q.swap root swap mem)
      else mem

/-- The loop of `heapify`, from the place below the argument down to the first one -/
def Call.heapifyLoop (q : Call) : Nat → (Nat → UInt8) → (Nat → UInt8)
  | 0, mem => mem
  | start + 1, mem => q.heapifyLoop start (q.siftDown q.nmemb q.nmemb start mem)

/-- `heapify`; there is no turn if `parent(nmemb - 1)` is negative -/
def Call.heapify (q : Call) (mem : Nat → UInt8) : Nat → UInt8 :=
  q.heapifyLoop (((q.nmemb : Int) - 2) / 2 + 1).toNat mem

/-- The loop of `heap_sort` -/
def Call.sortLoop (q : Call) : Nat → (Nat → UInt8) → (Nat → UInt8)
  | 0, mem => mem
  | last + 1, mem =>
      q.sortLoop last (q.siftDown (last + 1) (last + 1) 0 (q.swap (last + 1) 0 mem))

/-- `qsort_r` -/
def Call.qsortR (q : Call) (mem : Nat → UInt8) : Nat → UInt8 :=
  q.sortLoop (q.nmemb - 1) (q.heapify mem)

/-- The comparison function orders elements by a total preorder. -/
structure TotalPreorder (comp : List UInt8 → List UInt8 → Int) : Prop where
  swap : ∀ x y, comp x y < 0 ↔ 0 < comp y x
  trans : ∀ x y z, comp x y ≤ 0 → comp y z ≤ 0 → comp x z ≤ 0

-----------------------------------------------------------------------------------------
-- Exchanging elements
-----------------------------------------------------------------------------------------

theorem byteswp_apply {size a b : Nat} {mem : Nat → UInt8} (apart : a + size ≤ b ∨ b + size ≤ a)
    (x : Nat)
    : byteswp size a b mem x
        = if a ≤ x ∧ x < a + size then mem (b + (x - a))
          else if b ≤ x ∧ x < b + size then mem (a + (x - b)) else mem x := by
  induction size generalizing a b mem with
  | zero => rw [byteswp, if_neg (by omega), if_neg (by omega)]
  | succ size fromSize =>
      rw [byteswp, fromSize (by omega)]
      simp only [Function.update_apply]
      split_ifs
      all_goals
        first
        | rfl
        | omega
        | (congr 1; omega)

variable {q : Call} {mem mem' : Nat → UInt8} {i j k root last start : Nat}

theorem addr_apart (q : Call) (isDifferent : i ≠ j)
    : q.addr i + q.size ≤ q.addr j ∨ q.addr j + q.size ≤ q.addr i := by
  unfold Call.addr
  rcases Nat.lt_or_gt_of_ne isDifferent with isLess | isMore
  · have := Nat.mul_le_mul_left q.size (Nat.succ_le_of_lt isLess)
    rw [Nat.mul_succ] at this
    omega
  · have := Nat.mul_le_mul_left q.size (Nat.succ_le_of_lt isMore)
    rw [Nat.mul_succ] at this
    omega

theorem elem_swap (isDifferent : i ≠ j)
    : q.elem (q.swap i j mem) = q.elem mem ∘ Equiv.swap i j := by
  funext k
  rw [Function.comp_apply]
  refine List.map_congr_left fun off member => ?_
  have isInside := List.mem_range.mp member
  have apart := addr_apart q isDifferent
  rw [Call.swap, byteswp_apply apart]
  by_cases isFirst : k = i
  · subst isFirst
    rw [Equiv.swap_apply_left, if_pos (by omega)]
    congr 1
    omega
  · by_cases isSecond : k = j
    · subst isSecond
      rw [Equiv.swap_apply_right, if_neg (by omega), if_pos (by omega)]
      congr 1
      omega
    · have apart' := addr_apart q isFirst
      have apart'' := addr_apart q isSecond
      rw [Equiv.swap_apply_of_ne_of_ne isFirst isSecond, if_neg (by omega), if_neg (by omega)]

/-- Nothing outside the array has changed. -/
def SameOutside (q : Call) (mem mem' : Nat → UInt8) : Prop :=
  ∀ x, x < q.base ∨ q.base + q.size * q.nmemb ≤ x → mem' x = mem x

theorem SameOutside.trans {mem'' : Nat → UInt8} (first : SameOutside q mem mem')
    (second : SameOutside q mem' mem'')
    : SameOutside q mem mem'' :=
  fun x isOutside => (second x isOutside).trans (first x isOutside)

theorem sameOutside_swap (isDifferent : i ≠ j) (isBelow : i < q.nmemb) (isBelow' : j < q.nmemb)
    : SameOutside q mem (q.swap i j mem) := by
  intro x isOutside
  have ends : ∀ k, k < q.nmemb → q.addr k + q.size ≤ q.base + q.size * q.nmemb := by
    intro k isBelow
    have := Nat.mul_le_mul_left q.size (Nat.succ_le_of_lt isBelow)
    rw [Nat.mul_succ] at this
    unfold Call.addr
    omega
  have endI := ends i isBelow
  have endJ := ends j isBelow'
  have begins : ∀ k, q.base ≤ q.addr k := fun k => Nat.le_add_right _ _
  have beginI := begins i
  have beginJ := begins j
  rw [Call.swap, byteswp_apply (addr_apart q isDifferent), if_neg (by omega), if_neg (by omega)]

-----------------------------------------------------------------------------------------
-- Sifting down
-----------------------------------------------------------------------------------------

/-- One element is not after another one. -/
def Call.Le (q : Call) (x y : List UInt8) : Prop :=
  q.comp x y ≤ 0

section

variable (preorder : TotalPreorder q.comp)

include preorder

theorem le_refl (x : List UInt8) : q.Le x x := by
  have := preorder.swap x x
  unfold Call.Le
  omega

theorem le_of_not_less {x y : List UInt8} (notLess : ¬q.comp x y < 0) : q.Le y x := by
  have := preorder.swap x y
  unfold Call.Le
  omega

theorem le_trans {x y z : List UInt8} (first : q.Le x y) (second : q.Le y z) : q.Le x z :=
  preorder.trans x y z first second

/-- The place is the root or a child of it, and the largest of the three. -/
theorem swapPlace_facts (mem : Nat → UInt8) (hasChild : 2 * root + 1 < last)
    : (q.swapPlace mem last root = root
        ∨ q.swapPlace mem last root < last ∧ IsChild (q.swapPlace mem last root) root)
      ∧ q.Le (q.elem mem root) (q.elem mem (q.swapPlace mem last root))
      ∧ ∀ j, j < last → IsChild j root
        → q.Le (q.elem mem j) (q.elem mem (q.swapPlace mem last root)) := by
  -- The larger of the root and its left child
  generalize isLarger : (if q.compare mem root (2 * root + 1) < 0 then 2 * root + 1 else root)
    = larger
  have facts : (larger = root ∨ larger = 2 * root + 1)
      ∧ q.Le (q.elem mem root) (q.elem mem larger)
      ∧ q.Le (q.elem mem (2 * root + 1)) (q.elem mem larger) := by
    rw [← isLarger]
    split_ifs with isLess
    · exact ⟨.inr rfl, isLess.le, le_refl preorder _⟩
    · exact ⟨.inl rfl, le_refl preorder _, le_of_not_less preorder isLess⟩
  obtain ⟨isPlace, notRoot, notLeft⟩ := facts
  unfold Call.swapPlace
  dsimp only
  rw [isLarger]
  split_ifs with isRight
  · have isLess : q.Le (q.elem mem larger) (q.elem mem (2 * root + 1 + 1)) := isRight.2.le
    refine ⟨.inr ⟨isRight.1, .inr rfl⟩, le_trans preorder notRoot isLess, fun j _ isChild => ?_⟩
    rcases isChild with rfl | rfl
    · exact le_trans preorder notLeft isLess
    · exact le_refl preorder _
  · refine ⟨?_, notRoot, fun j isBelow isChild => ?_⟩
    · exact isPlace.imp_right fun isLeft => ⟨isLeft.trans_lt hasChild, .inl isLeft⟩
    · rcases isChild with rfl | rfl
      · exact notLeft
      · exact le_of_not_less preorder fun isLess => isRight ⟨isBelow, isLess⟩

/-- Sifting down makes a heap and only rearranges the elements below the limit. -/
theorem siftDown_orders {fuel : Nat} (isArray : last ≤ q.nmemb) (enough : last ≤ fuel + root)
    (sifting : Sifting q.Le (q.elem mem) start last root)
    : HeapOrdered q.Le (q.elem (q.siftDown last fuel root mem)) start last
      ∧ Rearranged last (q.elem mem) (q.elem (q.siftDown last fuel root mem))
      ∧ SameOutside q mem (q.siftDown last fuel root mem) := by
  induction fuel generalizing root mem with
  | zero =>
      refine ⟨sifting.finish fun j isBelow isChild => ?_, .refl _ _, fun _ _ => rfl⟩
      unfold IsChild at isChild
      omega
  | succ fuel fromFuel =>
      unfold Call.siftDown
      by_cases hasChild : 2 * root + 1 < last
      · obtain ⟨isPlace, notRoot, largest⟩ := swapPlace_facts preorder mem hasChild
        rw [if_pos hasChild]
        dsimp only
        generalize q.swapPlace mem last root = swap at isPlace notRoot largest
        by_cases isRoot : swap = root
        · rw [if_pos isRoot]
          rw [isRoot] at largest
          exact ⟨sifting.finish largest, .refl _ _, fun _ _ => rfl⟩
        · rw [if_neg isRoot]
          obtain ⟨isBelow, isChild⟩ := isPlace.resolve_left isRoot
          have isLater : root < swap := by
            unfold IsChild at isChild
            omega
          have moved := sifting.move isBelow isChild largest notRoot
          rw [← elem_swap (Ne.symm isRoot)] at moved
          obtain ⟨ordered, rearranged, outside⟩ := fromFuel (by omega) moved
          refine ⟨ordered, .trans ?_ rearranged, .trans ?_ outside⟩
          · rw [elem_swap (Ne.symm isRoot)]
            exact .swap (by omega) isBelow
          · exact sameOutside_swap (Ne.symm isRoot) (by omega) (by omega)
      · rw [if_neg hasChild]
        refine ⟨sifting.finish fun j isBelow isChild => ?_, .refl _ _, fun _ _ => rfl⟩
        unfold IsChild at isChild
        omega

-----------------------------------------------------------------------------------------
-- Sorting
-----------------------------------------------------------------------------------------

theorem heapifyLoop_orders (ordered : HeapOrdered q.Le (q.elem mem) start q.nmemb)
    : HeapOrdered q.Le (q.elem (q.heapifyLoop start mem)) 0 q.nmemb
      ∧ Rearranged q.nmemb (q.elem mem) (q.elem (q.heapifyLoop start mem))
      ∧ SameOutside q mem (q.heapifyLoop start mem) := by
  induction start generalizing mem with
  | zero => exact ⟨ordered, .refl _ _, fun _ _ => rfl⟩
  | succ start fromStart =>
      obtain ⟨ordered', rearranged, outside⟩ := siftDown_orders preorder le_rfl
        (Nat.le_add_right _ _) ordered.sifting
      obtain ⟨ordered'', rearranged', outside'⟩ := fromStart ordered'
      exact ⟨ordered'', rearranged.trans rearranged', outside.trans outside'⟩

/-- The places from the limit on are sorted, and nothing before them is after one of them. -/
structure SortedFrom (q : Call) (a : Nat → List UInt8) (limit : Nat) : Prop where
  sorted : ∀ i j, limit ≤ i → i ≤ j → j < q.nmemb → q.Le (a i) (a j)
  behind : ∀ i j, i < limit → limit ≤ j → j < q.nmemb → q.Le (a i) (a j)

omit preorder in
theorem SortedFrom.congr {a b : Nat → List UInt8} {limit : Nat} (sorted : SortedFrom q a limit)
    (rearranged : Rearranged limit a b)
    : SortedFrom q b limit where
  sorted i j isFrom isBefore isBelow := by
    rw [rearranged.eq_behind isFrom, rearranged.eq_behind (isFrom.trans isBefore)]
    exact sorted.sorted i j isFrom isBefore isBelow
  behind i j isBefore isFrom isBelow := by
    rw [rearranged.eq_behind isFrom]
    exact rearranged.forall_below (fun x => q.Le x (a j))
      (fun k isBefore => sorted.behind k j isBefore isFrom isBelow) isBefore

/-- The largest element is put in front of the sorted ones. -/
theorem SortedFrom.swap {a : Nat → List UInt8} {last : Nat} (sorted : SortedFrom q a (last + 1))
    (ordered : HeapOrdered q.Le a 0 (last + 1)) (isLater : 0 < last)
    : SortedFrom q (a ∘ Equiv.swap last 0) last := by
  have isLast : (a ∘ Equiv.swap last 0) last = a 0 := by simp
  have behind : ∀ k, last < k → (a ∘ Equiv.swap last 0) k = a k := fun k isBehind => by
    rw [Function.comp_apply, Equiv.swap_apply_of_ne_of_ne (by omega) (by omega)]
  have largest : ∀ k, k < last + 1 → q.Le ((a ∘ Equiv.swap last 0) k) (a 0) := by
    intro k isBelow
    refine (Rearranged.swap (Nat.lt_succ_self last) (Nat.succ_pos last)).forall_below
      (fun x => q.Le x (a 0)) (fun k isBelow => ?_) isBelow
    exact ordered.le_first (le_refl preorder) (fun _ _ _ => le_trans preorder) isBelow
  refine ⟨fun i j isFrom isBefore isBelow => ?_, fun i j isBefore isFrom isBelow => ?_⟩
  · rcases Nat.eq_or_lt_of_le isFrom with rfl | isBehind
    · rw [isLast]
      rcases Nat.eq_or_lt_of_le isBefore with rfl | isBehind
      · rw [isLast]
        exact le_refl preorder _
      · rw [behind j isBehind]
        exact sorted.behind 0 j (Nat.succ_pos _) isBehind isBelow
    · rw [behind i isBehind, behind j (by omega)]
      exact sorted.sorted i j isBehind isBefore isBelow
  · rcases Nat.eq_or_lt_of_le isFrom with rfl | isBehind
    · rw [isLast]
      exact largest i (by omega)
    · rw [behind j isBehind]
      exact (Rearranged.swap (Nat.lt_succ_self last) (Nat.succ_pos last)).forall_below
        (fun x => q.Le x (a j))
        (fun k isBelow' => sorted.behind k j isBelow' isBehind isBelow) (by omega)

theorem SortedFrom.all {a : Nat → List UInt8} (sorted : SortedFrom q a 1) (isBefore : i ≤ j)
    (isBelow : j < q.nmemb)
    : q.Le (a i) (a j) := by
  rcases Nat.eq_zero_or_pos i with rfl | isLater
  · rcases Nat.eq_zero_or_pos j with rfl | isLater
    · exact le_refl preorder _
    · exact sorted.behind 0 j Nat.one_pos isLater isBelow
  · exact sorted.sorted i j isLater isBefore isBelow

theorem sortLoop_sorts {last : Nat} (isArray : last < q.nmemb)
    (ordered : HeapOrdered q.Le (q.elem mem) 0 (last + 1))
    (sorted : SortedFrom q (q.elem mem) (last + 1))
    : SortedFrom q (q.elem (q.sortLoop last mem)) 1
      ∧ Rearranged q.nmemb (q.elem mem) (q.elem (q.sortLoop last mem))
      ∧ SameOutside q mem (q.sortLoop last mem) := by
  induction last generalizing mem with
  | zero => exact ⟨sorted, .refl _ _, fun _ _ => rfl⟩
  | succ last fromLast =>
      have isDifferent : last + 1 ≠ 0 := Nat.succ_ne_zero last
      have swapped : q.elem (q.swap (last + 1) 0 mem) = _ := elem_swap isDifferent
      have heap := ordered.swap_ends
      have sorted' := sorted.swap preorder ordered (Nat.succ_pos last)
      rw [← swapped] at heap sorted'
      obtain ⟨ordered', rearranged, outside⟩ := siftDown_orders preorder isArray.le
        (Nat.le_add_right _ _) heap.sifting
      obtain ⟨sorted'', rearranged', outside'⟩ := fromLast (Nat.lt_of_succ_lt isArray) ordered'
        (sorted'.congr rearranged)
      refine ⟨sorted'', .trans ?_ rearranged', .trans ?_ outside'⟩
      · refine .trans ?_ (rearranged.mono isArray.le)
        rw [swapped]
        exact .swap isArray (Nat.zero_lt_of_lt isArray)
      · exact (sameOutside_swap isDifferent isArray (Nat.zero_lt_of_lt isArray)).trans outside

end

/-- The array is sorted by a rearrangement of its elements as a whole, and nothing else changes. -/
theorem qsortR_sorts (q : Call) (mem : Nat → UInt8) (_isSmall : q.nmemb < 2 ^ 30)
    (preorder : TotalPreorder q.comp)
    : (∀ i j, i ≤ j → j < q.nmemb
        → q.comp (q.elem (q.qsortR mem) i) (q.elem (q.qsortR mem) j) ≤ 0)
      ∧ ((List.range q.nmemb).map (q.elem (q.qsortR mem))).Perm
          ((List.range q.nmemb).map (q.elem mem))
      ∧ ∀ x, x < q.base ∨ q.base + q.size * q.nmemb ≤ x → q.qsortR mem x = mem x := by
  rcases Nat.eq_zero_or_pos q.nmemb with isEmpty | isPositive
  · have isSame : q.qsortR mem = mem := by
      unfold Call.qsortR Call.heapify
      rw [isEmpty]
      rfl
    rw [isSame]
    exact ⟨fun i j _ isBelow => absurd isBelow (by omega), .refl _, fun _ _ => rfl⟩
  · have half : HeapOrdered q.Le (q.elem mem) (((q.nmemb : Int) - 2) / 2 + 1).toNat q.nmemb :=
      .of_half (by omega)
    obtain ⟨ordered, rearranged, outside⟩ := heapifyLoop_orders preorder half
    have isLast : q.nmemb - 1 + 1 = q.nmemb := Nat.succ_pred_eq_of_pos isPositive
    have sorted : SortedFrom q (q.elem (q.heapify mem)) (q.nmemb - 1 + 1) :=
      ⟨fun i j isFrom isBefore isBelow => absurd isBelow (by omega),
        fun i j isBefore isFrom isBelow => absurd isBelow (by omega)⟩
    obtain ⟨sorted', rearranged', outside'⟩ := sortLoop_sorts preorder (by omega)
      (isLast.symm ▸ ordered) sorted
    exact ⟨fun i j => sorted'.all preorder, (rearranged.trans rearranged').perm,
      outside.trans outside'⟩

/-- The first bytes of elements, compared as numbers -/
def byFirstByte (x y : List UInt8) : Int :=
  ((x.headD 0).toNat : Int) - ((y.headD 0).toNat : Int)

theorem byFirstByte_totalPreorder : TotalPreorder byFirstByte where
  swap x y := by
    unfold byFirstByte
    omega
  trans x y z := by
    unfold byFirstByte
    omega

/-- Three elements of two bytes at address 4 -/
def threeElements : Call :=
  { base := 4, nmemb := 3, size := 2, comp := byFirstByte }

theorem three_elements_sorted
    : let mem : Nat → UInt8 := fun x => [0, 0, 0, 0, 7, 1, 5, 2, 6, 3, 9].getD x 0
      (List.range 12).map (threeElements.qsortR mem) = [0, 0, 0, 0, 5, 2, 6, 3, 7, 1, 9, 0]
      ∧ ∀ i j, i ≤ j → j < 3
        → byFirstByte (threeElements.elem (threeElements.qsortR mem) i)
            (threeElements.elem (threeElements.qsortR mem) j) ≤ 0 := by
  intro mem
  refine ⟨by decide +kernel, ?_⟩
  exact (qsortR_sorts threeElements mem (by decide) byFirstByte_totalPreorder).1

end Zephyr.Qsort
