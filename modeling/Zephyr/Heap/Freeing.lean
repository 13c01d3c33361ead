import Zephyr.Heap.Edits

/-! Freeing a chunk, cutting it and resizing it in place, with the used chunks that are left. -/

namespace Zephyr.Heap

open Library

variable {h : ZHeap} {base last : Nat} {tiles : Tiles Bool} {loose : Set Nat}

/-! ### Merging with the neighbours -/

/-- No free chunk starts where this one ends. -/
def RightTaken (tiles : Tiles Bool) (c size : Nat) : Prop :=
  ∀ size', tiles (c + size) ≠ some (size', false)

/-- No free chunk ends where this one starts. -/
def LeftTaken (tiles : Tiles Bool) (c : Nat) : Prop :=
  ∀ d size, tiles d = some (size, false) → d + size ≠ c

theorem Plan.taken {lists : Nat → List Nat} (plan : Plan last tiles lists loose) {c size : Nat}
    (tile : tiles c = some (size, false)) (tight : c ∉ loose)
    : (c + size ∉ loose → RightTaken tiles c size)
      ∧ ∀ {d size'}, tiles d = some (size', false) → d + size' = c → d ∈ loose := by
  constructor
  · intro tight' size' found
    exact (plan.coalesced tile found).elim tight tight'
  · rintro d size' found rfl
    exact (plan.coalesced found tile).elim id (fun inLoose => (tight inLoose).elim)

theorem mergeRight_edits {c size : Nat} (shape : Shape h base last tiles {c})
    (sizes : Sizes last) (tile : tiles c = some (size, false))
    : ∃ tiles' size',
        Edits base last ⟨h, tiles, {c}⟩ ⟨h.mergeRight c, tiles', {c}⟩
        ∧ tiles' c = some (size', false)
        ∧ RightTaken tiles' c size' := by
  obtain ⟨lists, shape⟩ := shape
  have positive := shape.plan.tiling.inside tile
  rw [ZHeap.mergeRight, shape.rightChunk tile]
  rcases shape.plan.right_cases tile with isLast | ⟨size', used, next⟩
  · rw [isLast, if_pos shape.chunkUsed_marker]
    refine ⟨tiles, size, .refl, tile, ?_⟩
    intro size' found
    have := shape.plan.tiling.inside found
    omega
  · rw [shape.chunkUsed next]
    cases used with
    | true =>
        rw [if_pos rfl]
        refine ⟨tiles, size, .refl, tile, ?_⟩
        simp [RightTaken, next]
    | false =>
        rw [if_neg Bool.false_ne_true]
        have apart : c + size ∉ ({c} : Set Nat) := by
          rw [Set.mem_singleton_iff]
          omega
        have positive' := shape.plan.tiling.inside next
        have right := (shape.plan.taken next apart).1 (by rw [Set.mem_singleton_iff]; omega)
        have unlisted : Edit base last ⟨h, tiles, {c}⟩ _ := .unlist shape next apart
        obtain ⟨lists', removed⟩ := unlisted.shape sizes
        have merged : Edit base last _ _ := .merge removed tile next (Set.mem_insert_of_mem _ rfl)
          (Set.mem_insert _ _)
        have loose : insert c (insert (c + size) ({c} : Set Nat) \ {c + size}) = {c} := by
          grind
        rw [loose] at merged
        simp only [removed.rightChunk tile]
        refine ⟨_, size + size', .tail (.single unlisted) merged, ?_, ?_⟩
        · exact Tiling.merge_eq_some.mpr (.inl ⟨rfl, rfl, rfl⟩)
        · intro size'' found
          rcases Tiling.merge_eq_some.mp found with ⟨same, -, -⟩ | ⟨-, -, old⟩
          · omega
          · exact right size'' (Nat.add_assoc c size size' ▸ old)

theorem mergeLeft_edits {c size : Nat} (shape : Shape h base last tiles {c})
    (sizes : Sizes last) (tile : tiles c = some (size, false)) (right : RightTaken tiles c size)
    : ∃ tiles' c' size',
        Edits base last ⟨h, tiles, {c}⟩ ⟨(h.mergeLeft c).1, tiles', {c'}⟩
        ∧ (h.mergeLeft c).2 = c'
        ∧ tiles' c' = some (size', false)
        ∧ RightTaken tiles' c' size'
        ∧ LeftTaken tiles' c' := by
  obtain ⟨lists, shape⟩ := shape
  have positive := shape.plan.tiling.inside tile
  have notFirst := shape.plan.free_ne_zero tile
  obtain ⟨d, size', used, before, rfl⟩ := shape.plan.left_exists tile notFirst
  have positive' := shape.plan.tiling.inside before
  rw [ZHeap.mergeLeft, shape.leftChunk before, shape.chunkUsed before]
  cases used with
  | true =>
      rw [if_pos rfl]
      refine ⟨tiles, d + size', size, .refl, rfl, tile, right, ?_⟩
      intro x sizeX found ends
      have same := shape.plan.tiling.left_unique found before ends
      subst same
      rw [before] at found
      cases found
  | false =>
      rw [if_neg Bool.false_ne_true]
      have apart : d ∉ ({d + size'} : Set Nat) := by
        rw [Set.mem_singleton_iff]
        omega
      have unlisted : Edit base last ⟨h, tiles, {d + size'}⟩ _ := .unlist shape before apart
      obtain ⟨lists', removed⟩ := unlisted.shape sizes
      have notFirst' := shape.plan.free_ne_zero before
      have merged : Edit base last _ _ := .merge removed before tile (Set.mem_insert _ _)
        (Set.mem_insert_of_mem _ rfl)
      have loose : insert d (insert d ({d + size'} : Set Nat) \ {d + size'}) = {d} := by
        grind
      rw [loose] at merged
      simp only [removed.leftChunk before]
      -- the code reads the left size of the chunk that is gone; the merge did not write there
      have gone : ((h.freeListRemove d).mergeChunks d (d + size')).leftChunk (d + size') = d := by
        have written := mergeChunks_reheaded sizes removed.endChunk (removed.chunkSize before)
          (removed.chunkSize tile) positive'.1 (removed.plan.behind before notFirst') (by omega)
        have field : ((h.freeListRemove d).mergeChunks d (d + size')).chunkField (d + size')
            .leftSize = size' := by
          refine (congrFun written.leftField _).trans ?_
          rw [Function.update_of_ne (by omega), removed.headers.left before]
        rw [ZHeap.leftChunk, field, Nat.add_sub_cancel]
      refine ⟨_, d, size' + size, .tail (.single unlisted) merged, gone, ?_, ?_, ?_⟩
      · exact Tiling.merge_eq_some.mpr (.inl ⟨rfl, rfl, rfl⟩)
      · intro size'' found
        rcases Tiling.merge_eq_some.mp found with ⟨same, -, -⟩ | ⟨-, -, old⟩
        · omega
        · exact right size'' (Nat.add_assoc d size' size ▸ old)
      · intro x sizeX found ends
        rcases Tiling.merge_eq_some.mp found with ⟨rfl, rfl, -⟩ | ⟨-, notNext, old⟩
        · omega
        · exact notNext ((shape.plan.taken before apart).2 old ends)

theorem freeChunk_edits {c size : Nat} (shape : Shape h base last tiles {c})
    (sizes : Sizes last) (tile : tiles c = some (size, false))
    : ∃ tiles', Edits base last ⟨h, tiles, {c}⟩ ⟨h.freeChunk c, tiles', ∅⟩ := by
  obtain ⟨tiles₁, size₁, edits₁, tile₁, right₁⟩ := mergeRight_edits shape sizes tile
  have shape₁ : Shape (h.mergeRight c) base last tiles₁ {c} := edits₁.shape sizes shape
  obtain ⟨tiles₂, c₂, size₂, edits₂, result, tile₂, right₂, left₂⟩ :=
    mergeLeft_edits shape₁ sizes tile₁ right₁
  have freed : h.freeChunk c = ((h.mergeRight c).mergeLeft c).1.freeListAdd c₂ := by
    rw [ZHeap.freeChunk, result]
  rw [freed]
  generalize ((h.mergeRight c).mergeLeft c).1 = merged at edits₂ ⊢
  obtain ⟨lists₂, shape₂⟩ := edits₂.shape sizes shape₁
  have added : Edit base last ⟨merged, tiles₂, {c₂}⟩ _ := .list shape₂ tile₂ rfl
    (fun found => (right₂ _ found).elim) (fun found ends => (left₂ _ _ found ends).elim)
  rw [single_without] at added
  exact ⟨tiles₂, (edits₁.trans edits₂).tail added⟩

/-- A used chunk is marked as free, counted and given back. -/
def Released (base last : Nat) (h : ZHeap) (tiles : Tiles Bool) (c size : Nat) (after : ZHeap)
    : Prop :=
  ∃ tiles',
    Edits base last
      ⟨(h.setChunkUsed c false).subAllocatedBytes (chunkszToBytes last size),
        Function.update tiles c (some (size, false)), {c}⟩
      ⟨after, tiles', ∅⟩

theorem Shape.counted (shape : Shape h base last tiles loose)
    (freeBytes allocatedBytes maxAllocatedBytes : BitVec 32)
    : Shape ⟨h.base, h.memory, freeBytes, allocatedBytes, maxAllocatedBytes⟩ base last tiles
        loose := by
  obtain ⟨lists, shape⟩ := shape
  exact ⟨lists, shape.counted ..⟩

theorem marked_free_shape {c size : Nat} (shape : Shape h base last tiles ∅)
    (sizes : Sizes last) (tile : tiles c = some (size, true)) (notFirst : c ≠ 0)
    : Shape (h.setChunkUsed c false) base last
        (Function.update tiles c (some (size, false))) {c} := by
  obtain ⟨lists, shape⟩ := shape
  have marked := shape.setChunkUsed sizes tile notFirst (.inl rfl) false
  simp only [Bool.false_eq_true, if_false, insert_empty_eq] at marked
  exact ⟨lists, marked⟩

theorem sysHeapFree_released {c size mem : Nat} (shape : Shape h base last tiles ∅)
    (sizes : Sizes last) (tile : tiles c = some (size, true)) (notFirst : c ≠ 0)
    (chunk : h.memToChunkid mem = c)
    : Released base last h tiles c size (h.sysHeapFree (some mem)) := by
  have marked := marked_free_shape shape sizes tile notFirst
  obtain ⟨lists, found⟩ := id marked
  have sized : (h.setChunkUsed c false).chunkSize c = size :=
    found.chunkSize (Function.update_self ..)
  simp only [ZHeap.sysHeapFree, chunk, found.endChunk, sized]
  exact freeChunk_edits (marked.counted ..) sizes (Function.update_self ..)

theorem Released.shape {c size : Nat} {after : ZHeap}
    (released : Released base last h tiles c size after) (shape : Shape h base last tiles ∅)
    (sizes : Sizes last) (tile : tiles c = some (size, true)) (notFirst : c ≠ 0)
    : ∃ tiles',
        Shape after base last tiles' ∅
        ∧ usedSizes tiles' = Function.update (usedSizes tiles) c none := by
  obtain ⟨tiles', edits⟩ := released
  have marked := (marked_free_shape shape sizes tile notFirst).counted
  refine ⟨tiles', edits.shape sizes (marked ..), ?_⟩
  rw [edits.used, usedSizes_mark]
  rfl

/-! ### Cutting a free chunk to size -/

theorem trimSuffix_edits {c size size' : Nat} (shape : Shape h base last tiles {c})
    (sizes : Sizes last) (tile : tiles c = some (size, false)) (right : RightTaken tiles c size)
    (positive : 0 < size') (within : size' ≤ size)
    : ∃ tiles',
        Edits base last ⟨h, tiles, {c}⟩ ⟨h.trimSuffix c (c + size'), tiles', {c}⟩
        ∧ tiles' c = some (size', false) := by
  obtain ⟨lists, shape⟩ := shape
  rw [ZHeap.trimSuffix, shape.rightChunk tile]
  by_cases whole : size' = size
  · subst whole
    rw [if_neg (by omega)]
    exact ⟨tiles, .refl, tile⟩
  · rw [if_pos (by omega)]
    obtain ⟨rest, rfl⟩ := Nat.exists_eq_add_of_lt (show size' < size by omega)
    have tile : tiles c = some (size' + (rest + 1), false) := tile
    have divided : Edit base last _ _ := .split shape tile rfl positive (Nat.succ_pos rest)
    obtain ⟨lists', cut⟩ := divided.shape sizes
    have second : Tiling.split tiles c size' (rest + 1) false false (c + size')
        = some (rest + 1, false) :=
      (Tiling.split_eq_some positive).mpr (.inr (.inl ⟨rfl, rfl, rfl⟩))
    have added : Edit base last _ _ := .list cut second (by simp)
      (by
        intro size'' found
        rcases (Tiling.split_eq_some positive).mp found
          with ⟨same, -, -⟩ | ⟨same, -, -⟩ | ⟨-, -, old⟩
        · omega
        · omega
        · exact (right size'' (Nat.add_assoc c size' (rest + 1) ▸ old)).elim)
      (by
        intro d size'' found ends
        rcases (Tiling.split_eq_some positive).mp found
          with ⟨same, -, -⟩ | ⟨same, isRest, -⟩ | ⟨ne, -, old⟩
        · simp [same]
        · omega
        · have := shape.plan.tiling.disjoint old tile ne
          have := shape.plan.tiling.inside old
          omega)
    have loose : insert c (insert (c + size') ({c} : Set Nat)) \ {c + size'} = {c} := by
      grind
    rw [loose] at added
    refine ⟨_, .tail (.single divided) added, ?_⟩
    exact (Tiling.split_eq_some positive).mpr (.inl ⟨rfl, rfl, rfl⟩)

theorem trimPrefix_edits {c size skip : Nat} (shape : Shape h base last tiles {c})
    (sizes : Sizes last) (tile : tiles c = some (size, false)) (right : RightTaken tiles c size)
    (left : LeftTaken tiles c) (within : skip < size)
    : ∃ tiles',
        Edits base last ⟨h, tiles, {c}⟩ ⟨h.trimPrefix c (c + skip), tiles', {c + skip}⟩
        ∧ tiles' (c + skip) = some (size - skip, false)
        ∧ RightTaken tiles' (c + skip) (size - skip) := by
  obtain ⟨lists, shape⟩ := shape
  rw [ZHeap.trimPrefix]
  by_cases whole : skip = 0
  · subst whole
    rw [if_neg (by omega)]
    exact ⟨tiles, .refl, tile, right⟩
  · rw [if_pos (by omega)]
    obtain ⟨rest, rfl⟩ := Nat.exists_eq_add_of_lt within
    have positive : 0 < skip := by omega
    have tile : tiles c = some (skip + (rest + 1), false) := tile
    have divided : Edit base last _ _ := .split shape tile rfl positive (Nat.succ_pos rest)
    obtain ⟨lists', cut⟩ := divided.shape sizes
    have first : Tiling.split tiles c skip (rest + 1) false false c = some (skip, false) :=
      (Tiling.split_eq_some positive).mpr (.inl ⟨rfl, rfl, rfl⟩)
    have added : Edit base last _ _ := .list cut first (by simp) (fun _ => by simp)
      (by
        intro d size'' found ends
        rcases (Tiling.split_eq_some positive).mp found
          with ⟨same, isSkip, -⟩ | ⟨same, -, -⟩ | ⟨-, -, old⟩
        · omega
        · omega
        · exact (left d size'' old ends).elim)
    have loose : insert c (insert (c + skip) ({c} : Set Nat)) \ {c} = {c + skip} := by
      grind
    rw [loose] at added
    have size_eq : skip + rest + 1 - skip = rest + 1 := by omega
    rw [size_eq]
    refine ⟨_, .tail (.single divided) added, ?_, ?_⟩
    · exact (Tiling.split_eq_some positive).mpr (.inr (.inl ⟨rfl, rfl, rfl⟩))
    · intro size'' found
      rcases (Tiling.split_eq_some positive).mp found
        with ⟨same, -, -⟩ | ⟨same, -, -⟩ | ⟨-, -, old⟩
      · omega
      · omega
      · exact right size'' (Nat.add_assoc c skip (rest + 1) ▸ old)

end Zephyr.Heap
