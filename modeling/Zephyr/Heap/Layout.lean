import Zephyr.Heap.Model
import Zephyr.Library.CircularList
import Zephyr.Library.Tiling

/-! Reading a field after a write: what a store to one word of the heap leaves of the others. -/

namespace Zephyr.Heap

open Library

/-! ### The two layouts -/

theorem minChunkSize_eq (last : Nat)
    : minChunkSize last = if bigHeapChunks last then 2 else 1 := by
  unfold minChunkSize bytesToChunksz chunkHeaderBytes
  split <;> rfl

theorem minChunkSize_cases (last : Nat) : minChunkSize last = 1 ∨ minChunkSize last = 2 := by
  rw [minChunkSize_eq]
  split
  · exact .inr rfl
  · exact .inl rfl

theorem fieldBytes_eq (last : Nat) : fieldBytes last = 2 * minChunkSize last := by
  rw [minChunkSize_eq, fieldBytes]
  split <;> rfl

theorem chunkHeaderBytes_eq (last : Nat) : chunkHeaderBytes last = 4 * minChunkSize last := by
  rw [minChunkSize_eq, chunkHeaderBytes]
  split <;> rfl

theorem field_fits {last value : Nat} (bounded : last < 2 ^ 31) (le : value ≤ 2 * last + 1)
    : value < 256 ^ fieldBytes last := by
  unfold fieldBytes bigHeapChunks
  split <;> rename_i big <;> simp only [decide_eq_true_eq] at big <;> omega

theorem chunksz_eq {bytes : Nat} (fits : bytes + 7 < 2 ^ 32)
    : chunksz bytes = (bytes + 7) / 8 := by
  rw [chunksz, sizeT, chunkUnit, Nat.mod_eq_of_lt (by omega)]
  rfl

theorem bytesToChunksz_eq {last bytes : Nat} (fits : bytes + 15 < 2 ^ 32)
    : bytesToChunksz last bytes = (4 * minChunkSize last + bytes + 7) / 8 := by
  have := minChunkSize_cases last
  rw [bytesToChunksz, chunkHeaderBytes_eq, sizeT, Nat.mod_eq_of_lt (by omega),
    chunksz_eq (by omega)]

namespace ZHeap

variable {h : ZHeap} {c d val : Nat} {f g : ChunkFields}

/-! ### Chunk fields -/

/-- The field is not one of the words of `struct z_heap` behind the header of chunk 0. -/
def Placed (c : Nat) (f : ChunkFields) : Prop :=
  (c = 0 ∧ f.index < 2) ∨ 2 ≤ c

theorem index_lt (f : ChunkFields) : f.index < 4 := by
  cases f <;> decide

theorem fieldAddress_eq (last c : Nat) (f : ChunkFields)
    : fieldAddress last c f = 8 * c + 2 * minChunkSize last * f.index := by
  rw [fieldAddress, fieldBytes_eq, chunkUnit]

@[simp]
theorem base_chunkSet : (h.chunkSet c f val).base = h.base := rfl

theorem endChunk_chunkSet (placed : Placed c f) : (h.chunkSet c f val).endChunk = h.endChunk := by
  have index := index_lt f
  refine load_store_outside ?_
  rw [fieldAddress_eq, fieldBytes_eq]
  rcases minChunkSize_cases h.endChunk with scale | scale <;> rw [scale] <;>
    rcases placed with ⟨rfl, header⟩ | inner <;> omega

theorem chunkField_chunkSet (placed : Placed c f) (fits : val < 256 ^ fieldBytes h.endChunk)
    : (h.chunkSet c f val).chunkField c f = val := by
  rw [chunkField, endChunk_chunkSet placed]
  exact load_store_of_lt fits

/-- Fields are words of one width at multiples of it, so two of them are disjoint or the same
word.
-/
theorem chunkField_chunkSet_of_ne (placed : Placed c f)
    (ne : fieldAddress h.endChunk d g ≠ fieldAddress h.endChunk c f)
    : (h.chunkSet c f val).chunkField d g = h.chunkField d g := by
  rw [chunkField, endChunk_chunkSet placed]
  refine load_store_outside ?_
  rw [fieldAddress_eq, fieldAddress_eq] at *
  rw [fieldBytes_eq]
  rcases minChunkSize_cases h.endChunk with scale | scale <;> rw [scale] at ne ⊢ <;> omega

theorem fieldAddress_ne_of_same_kind {last : Nat} (kind : f.index < 2 ↔ g.index < 2)
    (ne : d ≠ c ∨ g ≠ f)
    : fieldAddress last d g ≠ fieldAddress last c f := by
  have indices : d ≠ c ∨ g.index ≠ f.index := by
    refine ne.imp id fun differ => ?_
    cases f <;> cases g <;> simp [ChunkFields.index] at differ ⊢
  have := index_lt f
  have := index_lt g
  rw [fieldAddress_eq, fieldAddress_eq]
  rcases minChunkSize_cases last with scale | scale <;> rw [scale] <;> omega

theorem fieldAddress_ne_of_link {last : Nat} (header : f.index < 2) (link : 2 ≤ g.index)
    (apart : d + minChunkSize last ≤ c ∨ c ≤ d)
    : fieldAddress last d g ≠ fieldAddress last c f := by
  rw [fieldAddress_eq, fieldAddress_eq]
  have := index_lt g
  rcases minChunkSize_cases last with scale | scale <;> rw [scale] at apart ⊢ <;> omega

/-- The size fields of all chunks. -/
def sizeField (h : ZHeap) (c : Nat) : Nat :=
  h.chunkField c .sizeAndUsed

/-- The left-size fields of all chunks. -/
def leftField (h : ZHeap) (c : Nat) : Nat :=
  h.chunkField c .leftSize

theorem sizeField_setSize (placed : Placed c .sizeAndUsed)
    (fits : val < 256 ^ fieldBytes h.endChunk)
    : (h.chunkSet c .sizeAndUsed val).sizeField = Function.update h.sizeField c val := by
  funext d
  by_cases same : d = c
  · rw [same, Function.update_self]
    exact chunkField_chunkSet placed fits
  · rw [Function.update_of_ne same]
    exact chunkField_chunkSet_of_ne placed (fieldAddress_ne_of_same_kind Iff.rfl (.inl same))

theorem leftField_setSize (placed : Placed c .sizeAndUsed)
    : (h.chunkSet c .sizeAndUsed val).leftField = h.leftField := by
  funext d
  exact chunkField_chunkSet_of_ne placed (fieldAddress_ne_of_same_kind (by decide) (.inr (by decide)))

theorem sizeField_setLeft (placed : Placed c .leftSize)
    : (h.chunkSet c .leftSize val).sizeField = h.sizeField := by
  funext d
  exact chunkField_chunkSet_of_ne placed (fieldAddress_ne_of_same_kind (by decide) (.inr (by decide)))

theorem leftField_setLeft (placed : Placed c .leftSize)
    (fits : val < 256 ^ fieldBytes h.endChunk)
    : (h.chunkSet c .leftSize val).leftField = Function.update h.leftField c val := by
  funext d
  by_cases same : d = c
  · rw [same, Function.update_self]
    exact chunkField_chunkSet placed fits
  · rw [Function.update_of_ne same]
    exact chunkField_chunkSet_of_ne placed (fieldAddress_ne_of_same_kind Iff.rfl (.inl same))

theorem bucketNext_chunkSet {i : Nat}
    (outside : (c = 0 ∧ f.index < 2) ∨ 16 + 4 * (i + 1) ≤ 8 * c)
    : (h.chunkSet c f val).bucketNext i = h.bucketNext i := by
  refine load_store_outside ?_
  rw [fieldAddress_eq, fieldBytes_eq, zHeapBytes]
  rcases minChunkSize_cases h.endChunk with scale | scale <;> rw [scale] <;> omega

theorem availBuckets_chunkSet (placed : Placed c f)
    : (h.chunkSet c f val).availBuckets = h.availBuckets := by
  refine congrArg (BitVec.ofNat 32) (load_store_outside ?_)
  rw [fieldAddress_eq, fieldBytes_eq]
  rcases minChunkSize_cases h.endChunk with scale | scale <;> rw [scale] <;>
    rcases placed with ⟨rfl, header⟩ | inner <;> omega

end ZHeap

end Zephyr.Heap

/-! What the bytes of a heap stand for: a tiling of its units by chunks and a circular list of
free chunks for each bucket.
A chunk that is free and in no list, because a call is working on it, is `loose`.
-/

namespace Zephyr.Heap

open Library

/-! ### Sizes of an accepted heap -/

/-- The end chunk leaves room for the heap's own chunk and one more, below the largest
address.
-/
structure Sizes (last : Nat) : Prop where
  room : chunk0Size last + minChunkSize last ≤ last
  bounded : 8 * last + 16 ≤ 2 ^ 32

theorem bucketIdx_mono {last size other : Nat} (le : size ≤ other)
    : bucketIdx last size ≤ bucketIdx last other := by
  unfold bucketIdx
  by_cases zero : size + 1 - minChunkSize last = 0
  · rw [zero]
    exact Nat.zero_le _
  · rw [Nat.le_log2 (by omega)]
    exact Nat.le_trans (Nat.log2_self_le zero) (by omega)

theorem lt_of_bucketIdx_lt {last size other : Nat}
    (less : bucketIdx last size < bucketIdx last other)
    : size < other := by
  by_contra notLess
  have : bucketIdx last other ≤ bucketIdx last size := bucketIdx_mono (Nat.le_of_not_lt notLess)
  omega

theorem bucketIdx_lt {last size : Nat} (le : size ≤ last)
    : bucketIdx last size < nbBuckets last :=
  Nat.lt_succ_of_le (bucketIdx_mono le)

namespace Sizes

variable {last : Nat}

theorem small (sizes : Sizes last) : last < 2 ^ 29 := by
  have := sizes.bounded
  omega

theorem nbBuckets_le (sizes : Sizes last) : nbBuckets last ≤ 29 := by
  have bound := sizes.small
  have := minChunkSize_cases last
  have := sizes.room
  have : (last + 1 - minChunkSize last).log2 < 29 := (Nat.log2_lt (by omega)).mpr (by omega)
  unfold nbBuckets bucketIdx
  omega

theorem chunk0 (sizes : Sizes last)
    : 16 + 4 * nbBuckets last ≤ 8 * chunk0Size last ∧ 3 ≤ chunk0Size last := by
  have := sizes.nbBuckets_le
  have positive : 1 ≤ nbBuckets last := Nat.le_add_left ..
  rw [chunk0Size, chunksz_eq (by unfold zHeapBytes; omega), zHeapBytes]
  omega

theorem fits (sizes : Sizes last) {value : Nat} (le : value ≤ 2 * last + 1)
    : value < 256 ^ fieldBytes last :=
  field_fits (Nat.lt_trans sizes.small (by decide)) le

end Sizes

/-! ### The three parts of a representation -/

/-- The header fields of the chunks and of the end marker say where the chunks are and which
are used.
-/
structure Headers (sizeField leftField : Nat → Nat) (last : Nat) (tiles : Tiles Bool) : Prop
    where
  origin : leftField 0 = 0
  marker : sizeField last = 1
  size
    : ∀ {c size used}, tiles c = some (size, used) → sizeField c = 2 * size + used.toNat
  left
    : ∀ {c size used}, tiles c = some (size, used) → leftField (c + size) = size

/-- The bucket array, its bit mask and the links of the listed chunks hold the lists. -/
structure Buckets (h : ZHeap) (last : Nat) (lists : Nat → List Nat) : Prop where
  heads : ∀ {i}, i < nbBuckets last → h.bucketNext i = (lists i).headD 0
  rings : ∀ {i}, Circular h.nextFreeChunk h.prevFreeChunk (lists i)
  avail : ∀ {i}, h.availBuckets.getLsbD i = !(lists i).isEmpty

/-- The chunks and the lists themselves: chunk 0 is the heap's own, every list holds the free
chunks of its bucket that are not loose, and free neighbours have been merged.
-/
structure Plan (last : Nat) (tiles : Tiles Bool) (lists : Nat → List Nat) (loose : Set Nat)
    : Prop where
  tiling : Tiling last tiles
  first : tiles 0 = some (chunk0Size last, true)
  members
    : ∀ {i c},
        c ∈ lists i
        ↔ c ∉ loose
          ∧ ∃ size,
              tiles c = some (size, false)
              ∧ minChunkSize last ≤ size
              ∧ bucketIdx last size = i
  nodup : ∀ {i}, (lists i).Nodup
  coalesced
    : ∀ {c size size'},
        tiles c = some (size, false)
        → tiles (c + size) = some (size', false)
        → c ∈ loose ∨ c + size ∈ loose

/-- The heap at `base` with end chunk `last` stands for these chunks and lists. -/
structure Represents (h : ZHeap) (base last : Nat) (tiles : Tiles Bool)
    (lists : Nat → List Nat) (loose : Set Nat) : Prop where
  base : h.base = base
  endChunk : h.endChunk = last
  headers : Headers h.sizeField h.leftField last tiles
  buckets : Buckets h last lists
  plan : Plan last tiles lists loose

/-! ### Reading a represented heap -/

namespace Plan

variable {last : Nat} {tiles : Tiles Bool} {lists : Nat → List Nat} {loose : Set Nat}

theorem behind (plan : Plan last tiles lists loose) {c size : Nat} {used : Bool}
    (tile : tiles c = some (size, used)) (notFirst : c ≠ 0)
    : chunk0Size last ≤ c := by
  have := plan.tiling.disjoint plan.first tile (Ne.symm notFirst)
  have := (plan.tiling.inside tile).1
  omega

theorem free_ne_zero (plan : Plan last tiles lists loose) {c size : Nat}
    (tile : tiles c = some (size, false))
    : c ≠ 0 := by
  rintro rfl
  rw [plan.first] at tile
  simp at tile

theorem right_cases (plan : Plan last tiles lists loose) {c size : Nat} {used : Bool}
    (tile : tiles c = some (size, used))
    : c + size = last ∨ ∃ size' used', tiles (c + size) = some (size', used') := by
  have within := (plan.tiling.inside tile).2
  by_cases isLast : c + size = last
  · exact .inl isLast
  · obtain ⟨⟨size', used'⟩, found⟩ := Option.ne_none_iff_exists'.mp
      (plan.tiling.right tile (by omega))
    exact .inr ⟨size', used', found⟩

theorem left_exists (plan : Plan last tiles lists loose) {c size : Nat} {used : Bool}
    (tile : tiles c = some (size, used)) (notFirst : c ≠ 0)
    : ∃ before size' used', tiles before = some (size', used') ∧ before + size' = c :=
  plan.tiling.left (by omega) (.inr (by simp [tile]))

theorem listed (plan : Plan last tiles lists loose) {i c : Nat} (member : c ∈ lists i)
    : ∃ size,
        tiles c = some (size, false)
        ∧ minChunkSize last ≤ size
        ∧ bucketIdx last size = i :=
  (plan.members.mp member).2

theorem listed_behind (plan : Plan last tiles lists loose) {i c : Nat} (member : c ∈ lists i)
    : chunk0Size last ≤ c := by
  obtain ⟨size, tile, -, -⟩ := plan.listed member
  exact plan.behind tile (plan.free_ne_zero tile)

theorem clear (plan : Plan last tiles lists loose) {i x c size place : Nat} {used : Bool}
    (member : x ∈ lists i) (tile : tiles c = some (size, used)) (unlisted : c ∉ lists i)
    (lower : c ≤ place) (upper : place ≤ c + size)
    : x + minChunkSize last ≤ place ∨ place ≤ x := by
  obtain ⟨size', found, large, -⟩ := plan.listed member
  have ne : c ≠ x := fun same => unlisted (same ▸ member)
  have := plan.tiling.disjoint tile found ne
  omega

end Plan

namespace Represents

variable {h : ZHeap} {base last : Nat} {tiles : Tiles Bool} {lists : Nat → List Nat}
  {loose : Set Nat}

theorem chunkSize (shape : Represents h base last tiles lists loose) {c size : Nat} {used : Bool}
    (tile : tiles c = some (size, used))
    : h.chunkSize c = size := by
  have field : h.chunkField c .sizeAndUsed = 2 * size + used.toNat := shape.headers.size tile
  rw [ZHeap.chunkSize, field]
  cases used <;> simp only [Bool.toNat_true, Bool.toNat_false] <;> omega

theorem chunkUsed (shape : Represents h base last tiles lists loose) {c size : Nat} {used : Bool}
    (tile : tiles c = some (size, used))
    : h.chunkUsed c = used := by
  have field : h.chunkField c .sizeAndUsed = 2 * size + used.toNat := shape.headers.size tile
  rw [ZHeap.chunkUsed, field]
  cases used <;> simp

theorem chunkUsed_marker (shape : Represents h base last tiles lists loose)
    : h.chunkUsed last = true := by
  have field : h.chunkField last .sizeAndUsed = 1 := shape.headers.marker
  rw [ZHeap.chunkUsed, field]
  rfl

theorem rightChunk (shape : Represents h base last tiles lists loose) {c size : Nat}
    {used : Bool} (tile : tiles c = some (size, used))
    : h.rightChunk c = c + size := by
  rw [ZHeap.rightChunk, shape.chunkSize tile]

theorem leftChunk (shape : Represents h base last tiles lists loose) {c size : Nat} {used : Bool}
    (tile : tiles c = some (size, used))
    : h.leftChunk (c + size) = c := by
  have field : h.chunkField (c + size) .leftSize = size := shape.headers.left tile
  rw [ZHeap.leftChunk, field, Nat.add_sub_cancel]

theorem soloFreeHeader (shape : Represents h base last tiles lists loose) {c size : Nat}
    {used : Bool} (tile : tiles c = some (size, used))
    : h.soloFreeHeader c = decide (size < minChunkSize last) := by
  have positive := (shape.plan.tiling.inside tile).1
  rw [ZHeap.soloFreeHeader, shape.endChunk, shape.chunkSize tile, minChunkSize_eq]
  cases bigHeapChunks last
  · simp only [Bool.false_and, Bool.false_eq_true, if_false]
    exact (decide_eq_false (by omega)).symm
  · simp only [Bool.true_and, if_true, beq_eq_decide]
    exact decide_eq_decide.mpr (by omega)

end Represents

end Zephyr.Heap
