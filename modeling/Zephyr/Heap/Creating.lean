import Zephyr.Heap.Freeing

/-! The heap that `sys_heap_init` lays out. -/

namespace Zephyr.Heap

open Library

/-- The chunks of a new heap: its own and one free chunk. -/
def freshTiles (last : Nat) : Tiles Bool :=
  Function.update (Function.update (fun _ => none) 0 (some (chunk0Size last, true)))
    (chunk0Size last) (some (last - chunk0Size last, false))

variable {memory : Memory} {mem bytes : Nat}

theorem freshTiles_eq_some {last c size : Nat} {used : Bool} (positive : 0 < chunk0Size last)
    : freshTiles last c = some (size, used)
      ↔ (c = 0 ∧ size = chunk0Size last ∧ used = true)
        ∨ (c = chunk0Size last ∧ size = last - chunk0Size last ∧ used = false) := by
  simp only [freshTiles, Function.update_apply]
  split_ifs with isFree isOwn <;> grind

theorem freshTiles_eq_none {last c : Nat}
    : freshTiles last c = none ↔ c ≠ 0 ∧ c ≠ chunk0Size last := by
  simp only [freshTiles, Function.update_apply]
  split_ifs with isFree isOwn <;> grind

theorem heapSize_sizes (accepts : InitAccepts mem bytes)
    : Sizes (heapSize mem bytes)
      ∧ 8 ∣ heapBase mem
      ∧ heapBase mem + 8 * heapSize mem bytes + heapFooterBytes bytes ≤ mem + bytes := by
  have footer : heapFooterBytes bytes = 4 ∨ heapFooterBytes bytes = 8 := by
    unfold heapFooterBytes
    split
    · exact .inr rfl
    · exact .inl rfl
  have start := accepts.start
  have representable := accepts.representable
  have addressable := accepts.addressable
  have enough := accepts.footer
  have base : heapBase mem = (mem + 7) / 8 * 8 := rfl
  have size : heapSize mem bytes
      = ((mem + (bytes - heapFooterBytes bytes)) / 8 * 8 - heapBase mem) / 8 := rfl
  have stop : roundDown (mem + (bytes - heapFooterBytes bytes)) chunkUnit
      = (mem + (bytes - heapFooterBytes bytes)) / 8 * 8 := rfl
  rw [stop] at start
  refine ⟨⟨accepts.room, ?_⟩, ⟨(mem + 7) / 8, ?_⟩, ?_⟩
  · -- a heap of more than half the address space is a big one, whose marker takes a whole unit
    have big : heapFooterBytes bytes = 4 → bytes < 8 * 0x8000 := by
      intro small
      by_contra large
      have isBig : bigHeapBytes bytes = true :=
        decide_eq_true (show 0x7fff < bytes / 8 by omega)
      rw [heapFooterBytes, if_pos isBig] at small
      cases small
    omega
  · rw [base, Nat.mul_comm]
  · omega

/-! ### The writes of the initialisation -/

/-- A heap under construction: its lists are empty and its header fields are the given ones. -/
structure Laid (base last : Nat) (h : ZHeap) (sizeField leftField : Nat → Nat) : Prop where
  base : h.base = base
  endChunk : h.endChunk = last
  heads : ∀ {i}, i < nbBuckets last → h.bucketNext i = 0
  avail : h.availBuckets = 0
  sizeField : h.sizeField = sizeField
  leftField : h.leftField = leftField

namespace Laid

variable {base last : Nat} {h : ZHeap} {sizeField leftField : Nat → Nat}

theorem placed (sizes : Sizes last) {c : Nat} {f : ChunkFields} (header : f.index < 2)
    (place : c = 0 ∨ chunk0Size last ≤ c)
    : ZHeap.Placed c f := by
  have chunk0 := sizes.chunk0
  exact place.imp (fun isOwn => ⟨isOwn, header⟩) (fun behind => by omega)

theorem setHeader (laid : Laid base last h sizeField leftField) (sizes : Sizes last) {c : Nat}
    {f : ChunkFields} (header : f.index < 2) (place : c = 0 ∨ chunk0Size last ≤ c) (value : Nat)
    {sizeField' leftField' : Nat → Nat}
    (sized : (h.chunkSet c f value).sizeField = sizeField')
    (left : (h.chunkSet c f value).leftField = leftField')
    : Laid base last (h.chunkSet c f value) sizeField' leftField' := by
  have chunk0 := sizes.chunk0
  have placed := placed sizes header place
  refine ⟨?_, ?_, ?_, ?_, sized, left⟩
  · rw [ZHeap.base_chunkSet, laid.base]
  · rw [ZHeap.endChunk_chunkSet placed, laid.endChunk]
  · intro i inRange
    rw [ZHeap.bucketNext_chunkSet, laid.heads inRange]
    exact place.imp (fun isOwn => ⟨isOwn, header⟩) (fun behind => by omega)
  · rw [ZHeap.availBuckets_chunkSet placed, laid.avail]

theorem setSizeField (laid : Laid base last h sizeField leftField) (sizes : Sizes last)
    (c value : Nat) (place : c = 0 ∨ chunk0Size last ≤ c) (fits : value ≤ 2 * last + 1)
    : Laid base last (h.chunkSet c .sizeAndUsed value) (Function.update sizeField c value)
        leftField := by
  have placed := placed sizes (show ChunkFields.sizeAndUsed.index < 2 by decide) place
  refine laid.setHeader sizes (by decide) place value ?_ ?_
  · rw [ZHeap.sizeField_setSize placed (laid.endChunk ▸ sizes.fits fits), laid.sizeField]
  · rw [ZHeap.leftField_setSize placed, laid.leftField]

theorem setLeftField (laid : Laid base last h sizeField leftField) (sizes : Sizes last)
    (c value : Nat) (place : c = 0 ∨ chunk0Size last ≤ c) (fits : value ≤ 2 * last + 1)
    : Laid base last (h.setLeftChunkSize c value) sizeField
        (Function.update leftField c value) := by
  have placed := placed sizes (show ChunkFields.leftSize.index < 2 by decide) place
  refine laid.setHeader sizes (by decide) place value ?_ ?_
  · rw [ZHeap.sizeField_setLeft placed, laid.sizeField]
  · rw [ZHeap.leftField_setLeft placed (laid.endChunk ▸ sizes.fits fits), laid.leftField]

theorem setUsed (laid : Laid base last h sizeField leftField) (sizes : Sizes last)
    (c : Nat) {size : Nat} (place : c = 0 ∨ chunk0Size last ≤ c) (fits : size ≤ last)
    (sized : sizeField c = 2 * size)
    : Laid base last (h.setChunkUsed c true) (Function.update sizeField c (2 * size + 1))
        leftField := by
  have field : h.chunkField c .sizeAndUsed = 2 * size := (congrFun laid.sizeField c).trans sized
  have value : 2 * h.chunkSize c + true.toNat = 2 * size + 1 := by
    rw [ZHeap.chunkSize, field, Nat.mul_div_cancel_left size (by decide)]
    rfl
  rw [ZHeap.setChunkUsed, value]
  exact laid.setSizeField sizes c (2 * size + 1) place (by omega)

theorem cleared (h : ZHeap) (count : Nat)
    : ((List.range count).foldl (fun h i => h.setBucketNext i 0) h).base = h.base
      ∧ ((List.range count).foldl (fun h i => h.setBucketNext i 0) h).endChunk = h.endChunk
      ∧ ((List.range count).foldl (fun h i => h.setBucketNext i 0) h).availBuckets
        = h.availBuckets
      ∧ ∀ {i}, i < count
        → ((List.range count).foldl (fun h i => h.setBucketNext i 0) h).bucketNext i = 0 := by
  induction count with
  | zero => exact ⟨rfl, rfl, rfl, fun below => absurd below (Nat.not_lt_zero _)⟩
  | succ count ih =>
      obtain ⟨base, endChunk, avail, heads⟩ := ih
      rw [List.range_succ, List.foldl_append, List.foldl_cons, List.foldl_nil]
      refine ⟨?_, ?_, ?_, ?_⟩
      · rw [ZHeap.base_setBucketNext, base]
      · rw [ZHeap.endChunk_setBucketNext, endChunk]
      · rw [ZHeap.availBuckets_setBucketNext, avail]
      · intro i below
        rw [ZHeap.bucketNext_setBucketNext (by decide)]
        by_cases same : i = count
        · rw [same, Function.update_self]
        · rw [Function.update_of_ne same]
          exact heads (by omega)

end Laid

theorem Laid.represents {base last : Nat} {h : ZHeap} {sizeField leftField : Nat → Nat}
    (laid : Laid base last h sizeField leftField) (sizes : Sizes last)
    (headers : Headers sizeField leftField last (freshTiles last))
    : Represents h base last (freshTiles last) (fun _ => []) {chunk0Size last} := by
  have chunk0 := sizes.chunk0
  have room := sizes.room
  have scale := minChunkSize_cases last
  have positive : 0 < chunk0Size last := by omega
  refine ⟨laid.base, laid.endChunk, ?_, ⟨?_, ?_, ?_⟩, ⟨?_, ?_, ?_, ?_⟩, ?_, ?_, ?_, ?_⟩
  · rw [laid.sizeField, laid.leftField]
    exact headers
  · exact laid.heads
  · intro i
    trivial
  · intro i
    rw [laid.avail]
    exact BitVec.getLsbD_zero
  · rw [ne_eq, freshTiles_eq_none]
    exact fun absent => absent.1 rfl
  · intro c size used found
    rcases (freshTiles_eq_some positive).mp found with ⟨rfl, rfl, -⟩ | ⟨rfl, rfl, -⟩ <;> omega
  · intro c size used found below
    rw [ne_eq, freshTiles_eq_none]
    rcases (freshTiles_eq_some positive).mp found with ⟨rfl, rfl, -⟩ | ⟨rfl, rfl, -⟩ <;> omega
  · intro c size used other found above below
    rw [freshTiles_eq_none]
    rcases (freshTiles_eq_some positive).mp found with ⟨rfl, rfl, -⟩ | ⟨rfl, rfl, -⟩ <;> omega
  · exact (freshTiles_eq_some positive).mpr (.inl ⟨rfl, rfl, rfl⟩)
  · intro i c
    refine ⟨fun member => (List.not_mem_nil member).elim, fun ⟨tight, size, found, _⟩ => ?_⟩
    rcases (freshTiles_eq_some positive).mp found with ⟨-, -, used⟩ | ⟨isFree, -, -⟩
    · cases used
    · exact (tight isFree).elim
  · exact List.nodup_nil
  · intro c size size' found found'
    rcases (freshTiles_eq_some positive).mp found with ⟨-, -, used⟩ | ⟨isFree, -, -⟩
    · cases used
    · exact .inl isFree

theorem sysHeapInit_shape (accepts : InitAccepts mem bytes)
    : Shape (sysHeapInit memory mem bytes) (heapBase mem) (heapSize mem bytes)
        (freshTiles (heapSize mem bytes)) ∅ := by
  obtain ⟨sizes, -, -⟩ := heapSize_sizes accepts
  rw [sysHeapInit]
  generalize heapBase mem = base
  generalize heapSize mem bytes = last at sizes ⊢
  have chunk0 := sizes.chunk0
  have room := sizes.room
  have scale := minChunkSize_cases last
  have small := sizes.small
  have positive : 0 < chunk0Size last := by omega
  generalize start : ({ base := base, memory := memory } : ZHeap) = h
  have base₀ : h.base = base := by rw [← start]
  have end₁ : ((h.setEndChunk last).setAvailBuckets 0).endChunk = last := by
    rw [ZHeap.endChunk_setAvailBuckets]
    exact load_store_of_lt (by omega)
  have avail₁ : ((h.setEndChunk last).setAvailBuckets 0).availBuckets = 0 :=
    ZHeap.availBuckets_setAvailBuckets
  obtain ⟨base₂, end₂, avail₂, heads₂⟩ :=
    Laid.cleared ((h.setEndChunk last).setAvailBuckets 0) (nbBuckets last)
  have laid : Laid base last _ _ _ :=
    ⟨base₂.trans base₀, end₂.trans end₁, heads₂, avail₂.trans avail₁, rfl, rfl⟩
  have own := ((laid.setSizeField sizes 0 (2 * chunk0Size last) (.inl rfl) (by omega)).setLeftField
    sizes 0 0 (.inl rfl) (by omega)).setUsed sizes 0 (.inl rfl) (by omega)
    (Function.update_self ..)
  have free := (own.setSizeField sizes (chunk0Size last) (2 * (last - chunk0Size last))
    (.inr (Nat.le_refl _)) (by omega)).setLeftField sizes (chunk0Size last) (chunk0Size last)
    (.inr (Nat.le_refl _)) (by omega)
  have marked := ((free.setSizeField sizes last (2 * 0) (.inr (by omega)) (by omega)).setLeftField
    sizes last (last - chunk0Size last) (.inr (by omega)) (by omega)).setUsed sizes last
    (.inr (by omega)) (Nat.zero_le _) (Function.update_self ..)
  have represented := marked.represents sizes ?_
  · obtain ⟨lists, added⟩ := represented.freeListAdd sizes
      ((freshTiles_eq_some positive).mpr (.inr ⟨rfl, rfl, rfl⟩)) rfl
      (by
        intro size' found
        rcases (freshTiles_eq_some positive).mp found with ⟨isOwn, -, -⟩ | ⟨isFree, -, -⟩ <;>
          omega)
      (by
        intro d size' found ends
        rcases (freshTiles_eq_some positive).mp found with ⟨-, -, used⟩ | ⟨isFree, -, -⟩
        · cases used
        · exact isFree)
    have none : ({chunk0Size last} : Set Nat) \ {chunk0Size last} = ∅ := by grind
    rw [none] at added
    exact ⟨lists, added⟩
  · refine ⟨?_, ?_, ?_, ?_⟩
    · rw [Function.update_of_ne (by omega), Function.update_of_ne (by omega),
        Function.update_self]
    · rw [Function.update_self]
    · intro c size used found
      rcases (freshTiles_eq_some positive).mp found with ⟨rfl, rfl, rfl⟩ | ⟨rfl, rfl, rfl⟩
      · simp (disch := omega) only [Function.update_of_ne, Function.update_self]
        rfl
      · simp (disch := omega) only [Function.update_of_ne, Function.update_self]
        rfl
    · intro c size used found
      rcases (freshTiles_eq_some positive).mp found with ⟨rfl, rfl, rfl⟩ | ⟨rfl, rfl, rfl⟩
      · rw [Nat.zero_add, Function.update_of_ne (by omega), Function.update_self]
      · rw [Nat.add_sub_cancel' (by omega), Function.update_self]

end Zephyr.Heap
