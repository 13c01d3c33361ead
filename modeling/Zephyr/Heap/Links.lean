import Zephyr.Heap.Layout

/-! Writes to the bucket array and to the links of free chunks. -/

namespace Zephyr.Heap

open Library

namespace ZHeap

variable {h : ZHeap} {c d i j val : Nat} {f g : ChunkFields}

@[simp]
theorem base_setAvailBuckets {mask : BitVec 32} : (h.setAvailBuckets mask).base = h.base := rfl

@[simp]
theorem base_setBucketNext : (h.setBucketNext i val).base = h.base := rfl

@[simp]
theorem endChunk_setAvailBuckets {mask : BitVec 32}
    : (h.setAvailBuckets mask).endChunk = h.endChunk :=
  load_store_outside (by omega)

@[simp]
theorem endChunk_setBucketNext : (h.setBucketNext i val).endChunk = h.endChunk :=
  load_store_outside (by unfold zHeapBytes; omega)

theorem availBuckets_setAvailBuckets {mask : BitVec 32}
    : (h.setAvailBuckets mask).availBuckets = mask := by
  have loaded : load (h.setAvailBuckets mask).memory 12 4 = mask.toNat :=
    load_store_of_lt mask.isLt
  rw [availBuckets, loaded, BitVec.ofNat_toNat, BitVec.setWidth_eq]

theorem availBuckets_setBucketNext : (h.setBucketNext i val).availBuckets = h.availBuckets :=
  congrArg (BitVec.ofNat 32) (load_store_outside (by unfold zHeapBytes; omega))

theorem bucketNext_setAvailBuckets {mask : BitVec 32}
    : (h.setAvailBuckets mask).bucketNext i = h.bucketNext i :=
  load_store_outside (by unfold zHeapBytes; omega)

theorem bucketNext_setBucketNext (fits : val < 2 ^ 32)
    : (h.setBucketNext i val).bucketNext = Function.update h.bucketNext i val := by
  funext j
  by_cases same : j = i
  · rw [same, Function.update_self]
    exact load_store_of_lt fits
  · rw [Function.update_of_ne same]
    exact load_store_outside (by unfold zHeapBytes; omega)

theorem chunkField_setAvailBuckets {mask : BitVec 32} (placed : Placed c f)
    : (h.setAvailBuckets mask).chunkField c f = h.chunkField c f := by
  have index := index_lt f
  rw [chunkField, endChunk_setAvailBuckets]
  refine load_store_outside ?_
  rw [fieldAddress_eq, fieldBytes_eq]
  rcases minChunkSize_cases h.endChunk with scale | scale <;> rw [scale] <;>
    rcases placed with ⟨rfl, header⟩ | inner <;> omega

theorem chunkField_setBucketNext (outside : (c = 0 ∧ f.index < 2) ∨ 16 + 4 * (i + 1) ≤ 8 * c)
    : (h.setBucketNext i val).chunkField c f = h.chunkField c f := by
  rw [chunkField, endChunk_setBucketNext]
  refine load_store_outside ?_
  rw [fieldAddress_eq, fieldBytes_eq, zHeapBytes]
  rcases minChunkSize_cases h.endChunk with scale | scale <;> rw [scale] <;> omega

end ZHeap

variable {h : ZHeap} {base last : Nat} {tiles : Tiles Bool} {lists : Nat → List Nat}
  {loose : Set Nat}

/-! ### Writes to the lists -/

/-- `after` is the heap `h` with bucket words and links of `nodes` written; its lists are read
through the given words.
-/
structure Relinked (h : ZHeap) (last : Nat) (nodes : Set Nat) (after : ZHeap)
    (heads next prev : Nat → Nat) (avail : BitVec 32) : Prop where
  base : after.base = h.base
  endChunk : after.endChunk = last
  heads : ∀ {i}, i < nbBuckets last → after.bucketNext i = heads i
  next : ∀ {c}, chunk0Size last ≤ c → after.nextFreeChunk c = next c
  prev : ∀ {c}, chunk0Size last ≤ c → after.prevFreeChunk c = prev c
  avail : after.availBuckets = avail
  headers
    : ∀ {d g},
        ChunkFields.index g < 2
        → d = 0 ∨ chunk0Size last ≤ d
        → (∀ node ∈ nodes, node + minChunkSize last ≤ d ∨ d ≤ node)
        → after.chunkField d g = h.chunkField d g

namespace Relinked

variable {nodes : Set Nat} {after : ZHeap} {heads next prev : Nat → Nat} {avail : BitVec 32}

theorem refl (endChunk : h.endChunk = last)
    : Relinked h last nodes h h.bucketNext h.nextFreeChunk h.prevFreeChunk h.availBuckets :=
  ⟨rfl, endChunk, fun _ => rfl, fun _ => rfl, fun _ => rfl, rfl, fun _ _ _ => rfl⟩

theorem setAvail (written : Relinked h last nodes after heads next prev avail)
    (sizes : Sizes last) (mask : BitVec 32)
    : Relinked h last nodes (after.setAvailBuckets mask) heads next prev mask := by
  have chunk0 := sizes.chunk0
  refine ⟨?_, ?_, ?_, ?_, ?_, ?_, ?_⟩
  · rw [ZHeap.base_setAvailBuckets, written.base]
  · rw [ZHeap.endChunk_setAvailBuckets, written.endChunk]
  · intro i inRange
    rw [ZHeap.bucketNext_setAvailBuckets, written.heads inRange]
  · intro c behind
    exact (ZHeap.chunkField_setAvailBuckets (.inr (by omega))).trans (written.next behind)
  · intro c behind
    exact (ZHeap.chunkField_setAvailBuckets (.inr (by omega))).trans (written.prev behind)
  · exact ZHeap.availBuckets_setAvailBuckets
  · intro d g header place clear
    rw [ZHeap.chunkField_setAvailBuckets (by unfold ZHeap.Placed; omega),
      written.headers header place clear]

theorem setHead (written : Relinked h last nodes after heads next prev avail)
    (sizes : Sizes last) {i : Nat} (inRange : i < nbBuckets last) (c : Nat) (fits : c ≤ last)
    : Relinked h last nodes (after.setBucketNext i c) (Function.update heads i c) next prev
        avail := by
  have chunk0 := sizes.chunk0
  have small := sizes.small
  refine ⟨?_, ?_, ?_, ?_, ?_, ?_, ?_⟩
  · rw [ZHeap.base_setBucketNext, written.base]
  · rw [ZHeap.endChunk_setBucketNext, written.endChunk]
  · intro j inRange'
    rw [ZHeap.bucketNext_setBucketNext (by omega)]
    by_cases same : j = i
    · rw [same, Function.update_self, Function.update_self]
    · rw [Function.update_of_ne same, Function.update_of_ne same, written.heads inRange']
  · intro d behind
    exact (ZHeap.chunkField_setBucketNext (by omega)).trans (written.next behind)
  · intro d behind
    exact (ZHeap.chunkField_setBucketNext (by omega)).trans (written.prev behind)
  · rw [ZHeap.availBuckets_setBucketNext, written.avail]
  · intro d g header place clear
    rw [ZHeap.chunkField_setBucketNext (by omega), written.headers header place clear]

theorem setLink (written : Relinked h last nodes after heads next prev avail)
    (sizes : Sizes last) {c : Nat} (behind : chunk0Size last ≤ c) (isNode : c ∈ nodes)
    (value : Nat) {f : ChunkFields} (link : 2 ≤ f.index)
    : (after.chunkSet c f value).endChunk = last
      ∧ (∀ {i}, i < nbBuckets last → (after.chunkSet c f value).bucketNext i = heads i)
      ∧ (after.chunkSet c f value).availBuckets = avail
      ∧ ∀ {d g},
          ChunkFields.index g < 2
          → d = 0 ∨ chunk0Size last ≤ d
          → (∀ node ∈ nodes, node + minChunkSize last ≤ d ∨ d ≤ node)
          → (after.chunkSet c f value).chunkField d g = h.chunkField d g := by
  have chunk0 := sizes.chunk0
  have placed : ZHeap.Placed c f := .inr (by omega)
  refine ⟨?_, ?_, ?_, ?_⟩
  · rw [ZHeap.endChunk_chunkSet placed, written.endChunk]
  · intro i inRange
    rw [ZHeap.bucketNext_chunkSet (by omega), written.heads inRange]
  · rw [ZHeap.availBuckets_chunkSet placed, written.avail]
  · intro d g header place clear
    rw [ZHeap.chunkField_chunkSet_of_ne placed, written.headers header place clear]
    refine (ZHeap.fieldAddress_ne_of_link header link ?_).symm
    rw [written.endChunk]
    exact clear c isNode

theorem link_update {f : ChunkFields} {c value : Nat} (placed : ZHeap.Placed c f)
    (fits : value < 256 ^ fieldBytes after.endChunk) (link : Nat → Nat)
    (reads : ∀ {d}, chunk0Size last ≤ d → after.chunkField d f = link d)
    : ∀ {d}, chunk0Size last ≤ d
      → (after.chunkSet c f value).chunkField d f = Function.update link c value d := by
  intro d behind
  by_cases same : d = c
  · rw [same, Function.update_self, ZHeap.chunkField_chunkSet placed fits]
  · rw [Function.update_of_ne same, ← reads behind]
    exact ZHeap.chunkField_chunkSet_of_ne placed
      (ZHeap.fieldAddress_ne_of_same_kind Iff.rfl (.inl same))

theorem setNext (written : Relinked h last nodes after heads next prev avail)
    (sizes : Sizes last) {c : Nat} (behind : chunk0Size last ≤ c) (isNode : c ∈ nodes)
    (value : Nat) (fits : value ≤ last)
    : Relinked h last nodes (after.setNextFreeChunk c value) heads (Function.update next c value)
        prev avail := by
  have chunk0 := sizes.chunk0
  have placed : ZHeap.Placed c .freeNext := .inr (by omega)
  obtain ⟨endChunk, heads, avail, headers⟩ :=
    written.setLink sizes behind isNode value (show 2 ≤ ChunkFields.freeNext.index by decide)
  refine ⟨?_, endChunk, heads, ?_, ?_, avail, headers⟩
  · exact ZHeap.base_chunkSet.trans written.base
  · exact link_update placed (written.endChunk ▸ sizes.fits (by omega)) next written.next
  · intro d behind'
    refine Eq.trans ?_ (written.prev behind')
    exact ZHeap.chunkField_chunkSet_of_ne placed
      (ZHeap.fieldAddress_ne_of_same_kind (by decide) (.inr (by decide)))

theorem setPrev (written : Relinked h last nodes after heads next prev avail)
    (sizes : Sizes last) {c : Nat} (behind : chunk0Size last ≤ c) (isNode : c ∈ nodes)
    (value : Nat) (fits : value ≤ last)
    : Relinked h last nodes (after.setPrevFreeChunk c value) heads next
        (Function.update prev c value) avail := by
  have chunk0 := sizes.chunk0
  have placed : ZHeap.Placed c .freePrev := .inr (by omega)
  obtain ⟨endChunk, heads, avail, headers⟩ :=
    written.setLink sizes behind isNode value (show 2 ≤ ChunkFields.freePrev.index by decide)
  refine ⟨?_, endChunk, heads, ?_, ?_, avail, headers⟩
  · exact ZHeap.base_chunkSet.trans written.base
  · intro d behind'
    refine Eq.trans ?_ (written.next behind')
    exact ZHeap.chunkField_chunkSet_of_ne placed
      (ZHeap.fieldAddress_ne_of_same_kind (by decide) (.inr (by decide)))
  · exact link_update placed (written.endChunk ▸ sizes.fits (by omega)) prev written.prev

theorem buckets (written : Relinked h last nodes after heads next prev avail)
    (behind : ∀ {i c}, c ∈ lists i → chunk0Size last ≤ c)
    (starts : ∀ {i}, i < nbBuckets last → heads i = (lists i).headD 0)
    (rings : ∀ {i}, Circular next prev (lists i))
    (bits : ∀ {i}, avail.getLsbD i = !(lists i).isEmpty)
    : Buckets after last lists := by
  refine ⟨?_, ?_, ?_⟩
  · intro i inRange
    rw [written.heads inRange, starts inRange]
  · intro i
    exact rings.congr (fun node member => written.next (behind member))
      (fun node member => written.prev (behind member))
  · intro i
    rw [written.avail, bits]

end Relinked

theorem Represents.relinked (shape : Represents h base last tiles lists loose)
    (sizes : Sizes last) {nodes : Set Nat} {after : ZHeap} {heads next prev : Nat → Nat}
    {avail : BitVec 32} {lists' : Nat → List Nat} {loose' : Set Nat}
    (written : Relinked h last nodes after heads next prev avail)
    (free
      : ∀ node ∈ nodes, ∃ size, tiles node = some (size, false) ∧ minChunkSize last ≤ size)
    (buckets : Buckets after last lists') (plan : Plan last tiles lists' loose')
    : Represents after base last tiles lists' loose' := by
  have room := sizes.room
  -- the end marker and the start of a chunk are not behind the header of a listed chunk
  have kept : ∀ {d g}, ChunkFields.index g < 2 → d = last ∨ tiles d ≠ none
      → after.chunkField d g = h.chunkField d g := by
    intro d g header stop
    have place : d = 0 ∨ chunk0Size last ≤ d := by
      rcases stop with rfl | start
      · exact .inr (by omega)
      · obtain ⟨⟨size, used⟩, found⟩ := Option.ne_none_iff_exists'.mp start
        by_cases isFirst : d = 0
        · exact .inl isFirst
        · exact .inr (shape.plan.behind found isFirst)
    refine written.headers header place fun node isNode => ?_
    obtain ⟨size, found, large⟩ := free node isNode
    have within := shape.plan.tiling.inside found
    by_contra inside
    rcases stop with rfl | start
    · omega
    · exact start (shape.plan.tiling.apart found (by omega) (by omega))
  have ends : ∀ {c size used}, tiles c = some (size, used)
      → c + size = last ∨ tiles (c + size) ≠ none := by
    intro c size used found
    refine (shape.plan.right_cases found).imp id fun ⟨size', used', next⟩ => ?_
    simp only [next, ne_eq, reduceCtorEq, not_false_eq_true]
  refine ⟨written.base.trans shape.base, written.endChunk, ⟨?_, ?_, ?_, ?_⟩, buckets, plan⟩
  · exact (kept (by decide) (.inr shape.plan.tiling.starts)).trans shape.headers.origin
  · exact (kept (by decide) (.inl rfl)).trans shape.headers.marker
  · intro c size used found
    exact (kept (by decide) (.inr (by simp [found]))).trans (shape.headers.size found)
  · intro c size used found
    exact (kept (by decide) (ends found)).trans (shape.headers.left found)

end Zephyr.Heap
