import Mathlib

/-! Binary heaps in arrays: the order of a heap, what sifting down keeps of it, and rearrangements
of the first elements of an array.
-/

namespace Zephyr.Library

variable {α : Type*} {le : α → α → Prop} {a : Nat → α} {start limit root child : Nat}

def IsChild (child parent : Nat) : Prop :=
  child = 2 * parent + 1 ∨ child = 2 * parent + 2

/-- From `start` on, no parent is before a child of its that lies below the limit. -/
def HeapOrdered (le : α → α → Prop) (a : Nat → α) (start limit : Nat) : Prop :=
  ∀ i j, start ≤ i → j < limit → IsChild j i → le (a j) (a i)

/-- The heap is ordered but for the children of one place, which are in order with the parent of
that place.
-/
structure Sifting (le : α → α → Prop) (a : Nat → α) (start limit root : Nat) : Prop where
  begins : start ≤ root
  ordered : ∀ i j, start ≤ i → i ≠ root → j < limit → IsChild j i → le (a j) (a i)
  above : ∀ i j, start ≤ i → IsChild root i → j < limit → IsChild j root → le (a j) (a i)

/-- A new place in front of a heap. -/
theorem HeapOrdered.sifting (ordered : HeapOrdered le a (root + 1) limit)
    : Sifting le a root limit root where
  begins := le_rfl
  ordered i j isFrom notRoot isBelow isChild := by
    exact ordered i j (by omega) isBelow isChild
  above i j isFrom isParent _ _ := by
    unfold IsChild at isParent
    omega

theorem Sifting.finish (sifting : Sifting le a start limit root)
    (stops : ∀ j, j < limit → IsChild j root → le (a j) (a root))
    : HeapOrdered le a start limit := by
  intro i j isFrom isBelow isChild
  by_cases isRoot : i = root
  · subst isRoot
    exact stops j isBelow isChild
  · exact sifting.ordered i j isFrom isRoot isBelow isChild

/-- The place is exchanged with its largest child. -/
theorem Sifting.move (sifting : Sifting le a start limit root) (isBelow : child < limit)
    (isChild : IsChild child root)
    (largest : ∀ j, j < limit → IsChild j root → le (a j) (a child)) (less : le (a root) (a child))
    : Sifting le (a ∘ Equiv.swap root child) start limit child := by
  have isLater : root < child := by
    unfold IsChild at isChild
    omega
  have atRoot : (a ∘ Equiv.swap root child) root = a child := by simp
  have atChild : (a ∘ Equiv.swap root child) child = a root := by simp
  have elsewhere : ∀ k, k ≠ root → k ≠ child → (a ∘ Equiv.swap root child) k = a k := by
    intro k notRoot notChild
    rw [Function.comp_apply, Equiv.swap_apply_of_ne_of_ne notRoot notChild]
  refine ⟨by have := sifting.begins; omega, ?_, ?_⟩
  · intro i j isFrom notChild isBelow' isChild'
    by_cases isRoot : i = root
    · subst isRoot
      rw [atRoot]
      by_cases isSame : j = child
      · rw [isSame, atChild]
        exact less
      · have notRoot : j ≠ i := by
          unfold IsChild at isChild'
          omega
        rw [elsewhere j notRoot isSame]
        exact largest j isBelow' isChild'
    · rw [elsewhere i isRoot notChild]
      by_cases isSame : j = root
      · subst isSame
        rw [atRoot]
        exact sifting.above i child isFrom isChild' isBelow isChild
      · have notChild' : j ≠ child := by
          unfold IsChild at isChild isChild'
          omega
        rw [elsewhere j isSame notChild']
        exact sifting.ordered i j isFrom isRoot isBelow' isChild'
  · intro i j isFrom isParent isBelow' isChild'
    have isRoot : i = root := by
      unfold IsChild at isParent isChild
      omega
    have behind : j ≠ root ∧ j ≠ child := by
      unfold IsChild at isChild'
      omega
    rw [isRoot, atRoot, elsewhere j behind.1 behind.2]
    exact sifting.ordered child j (by have := sifting.begins; omega) (by omega) isBelow' isChild'

/-- Nothing in a heap is after its first element. -/
theorem HeapOrdered.le_first (ordered : HeapOrdered le a 0 limit) (refl : ∀ x, le x x)
    (trans : ∀ x y z, le x y → le y z → le x z) {i : Nat} (isBelow : i < limit)
    : le (a i) (a 0) := by
  induction i using Nat.strongRecOn with
  | ind i fromEarlier =>
      rcases Nat.eq_zero_or_pos i with rfl | isLater
      · exact refl _
      · have isChild : IsChild i ((i - 1) / 2) := by
          unfold IsChild
          omega
        exact trans _ _ _ (ordered _ i (Nat.zero_le _) isBelow isChild)
          (fromEarlier ((i - 1) / 2) (by omega) (by omega))

/-- Behind its first element, a heap is still one without its last element. -/
theorem HeapOrdered.swap_ends (ordered : HeapOrdered le a 0 (limit + 1))
    : HeapOrdered le (a ∘ Equiv.swap limit 0) 1 limit := by
  intro i j isFrom isBelow isChild
  have isBetween : i ≠ limit ∧ j ≠ 0 := by
    unfold IsChild at isChild
    omega
  rw [Function.comp_apply, Function.comp_apply,
    Equiv.swap_apply_of_ne_of_ne isBelow.ne isBetween.2,
    Equiv.swap_apply_of_ne_of_ne isBetween.1 (Nat.ne_of_gt isFrom)]
  exact ordered i j (Nat.zero_le i) (Nat.lt_succ_of_lt isBelow) isChild

/-- Arrays without children below the limit are heaps. -/
theorem HeapOrdered.of_half (isHalf : limit ≤ 2 * start + 1) : HeapOrdered le a start limit := by
  intro i j isFrom isBelow isChild
  unfold IsChild at isChild
  omega

/-- The first elements of an array are rearranged, and the others stay. -/
def Rearranged (limit : Nat) (a b : Nat → α) : Prop :=
  ∃ σ : Equiv.Perm Nat, (∀ k, limit ≤ k → σ k = k) ∧ b = a ∘ σ

variable {b c : Nat → α}

theorem Rearranged.refl (limit : Nat) (a : Nat → α) : Rearranged limit a a :=
  ⟨1, fun _ _ => rfl, rfl⟩

theorem Rearranged.trans (first : Rearranged limit a b) (second : Rearranged limit b c)
    : Rearranged limit a c := by
  obtain ⟨σ, fixed, rfl⟩ := first
  obtain ⟨τ, fixed', rfl⟩ := second
  refine ⟨τ.trans σ, fun k isBehind => ?_, rfl⟩
  rw [Equiv.trans_apply, fixed' k isBehind, fixed k isBehind]

theorem Rearranged.mono {more : Nat} (rearranged : Rearranged limit a b) (isMore : limit ≤ more)
    : Rearranged more a b := by
  obtain ⟨σ, fixed, isSame⟩ := rearranged
  exact ⟨σ, fun k isBehind => fixed k (isMore.trans isBehind), isSame⟩

theorem Rearranged.swap {i j : Nat} (isBelow : i < limit) (isBelow' : j < limit)
    : Rearranged limit a (a ∘ Equiv.swap i j) :=
  ⟨Equiv.swap i j, fun _ _ => Equiv.swap_apply_of_ne_of_ne (by omega) (by omega), rfl⟩

theorem Rearranged.eq_behind (rearranged : Rearranged limit a b) {k : Nat} (isBehind : limit ≤ k)
    : b k = a k := by
  obtain ⟨σ, fixed, rfl⟩ := rearranged
  rw [Function.comp_apply, fixed k isBehind]

theorem moved_below {σ : Equiv.Perm Nat} (fixed : ∀ k, limit ≤ k → σ k = k) {k : Nat}
    (isBelow : k < limit)
    : σ k < limit := by
  by_contra isBehind
  have isFixed : σ k = k := σ.injective (fixed _ (Nat.not_lt.mp isBehind))
  omega

/-- What holds of all of the first elements still does. -/
theorem Rearranged.forall_below (rearranged : Rearranged limit a b) (good : α → Prop)
    (allGood : ∀ k, k < limit → good (a k)) {k : Nat} (isBelow : k < limit)
    : good (b k) := by
  obtain ⟨σ, fixed, rfl⟩ := rearranged
  exact allGood (σ k) (moved_below fixed isBelow)

theorem Rearranged.perm (rearranged : Rearranged limit a b)
    : ((List.range limit).map b).Perm ((List.range limit).map a) := by
  obtain ⟨σ, fixed, rfl⟩ := rearranged
  have isPerm : ((List.range limit).map σ).Perm (List.range limit) := by
    refine (List.perm_ext_iff_of_nodup (List.nodup_range.map σ.injective) List.nodup_range).mpr
      fun k => ?_
    rw [List.mem_map, List.mem_range]
    constructor
    · rintro ⟨j, isMember, rfl⟩
      exact moved_below fixed (List.mem_range.mp isMember)
    · intro isBelow
      refine ⟨σ.symm k, List.mem_range.mpr ?_, σ.apply_symm_apply k⟩
      by_contra isBehind
      have isFixed := fixed _ (Nat.not_lt.mp isBehind)
      rw [σ.apply_symm_apply] at isFixed
      omega
  simpa only [List.map_map] using isPerm.map a

end Zephyr.Library
