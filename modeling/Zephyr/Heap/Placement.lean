import Zephyr.Heap.Integrity

/-! Where a returned block lies: in a chunk of its own, away from the other blocks, from every
chunk header and from the buckets.
-/

namespace Zephyr.Heap

open Library (run RunMeets)

variable {h : ZHeap} {live : List Block}

/-- The block lies behind the header of a used chunk that is not the heap's own. -/
def InUse (h : ZHeap) (block : Block) : Prop :=
  ∃ c,
    Chunk h c
    ∧ c < h.endChunk
    ∧ c ≠ 0
    ∧ h.chunkUsed c = true
    ∧ h.base + 8 * c + chunkHeaderBytes h.endChunk ≤ block.address
    ∧ block.address + block.bytes ≤ h.base + 8 * (c + h.chunkSize c)

/-- The bytes from `first` to before `last` hold none of the block. -/
def Apart (block : Block) (first last : Nat) : Prop :=
  block.address + block.bytes ≤ first ∨ last ≤ block.address

/-- What a caller may rely on for a block that was just returned, beside the blocks `live`. -/
structure Placed (h : ZHeap) (live : List Block) (block : Block) : Prop where
  inUse : InUse h block
  inside : h.base ≤ block.address ∧ block.address + block.bytes ≤ h.base + 8 * h.endChunk
  blocks : ∀ other ∈ live, Apart block other.address (other.address + other.bytes)
  headers
    : ∀ c, Chunk h c → Apart block (h.base + 8 * c) (h.base + 8 * c + chunkHeaderBytes h.endChunk)
  buckets : Apart block h.base (h.base + 8 * chunk0Size h.endChunk)

/-! ### Blocks of runs -/

theorem Sound.inUse {base last : Nat} {state : State} (sound : Sound base last state)
    {block : Block} (member : block ∈ state.live)
    : InUse state.heap block := by
  obtain ⟨tiles, ⟨lists, shape⟩, owned⟩ := sound
  obtain ⟨notFirst, size, found, within⟩ := owned.placed member
  have tile := usedSizes_eq_some.mp found
  have inside := shape.plan.tiling.inside tile
  refine ⟨_, shape.chunk_iff.mpr (.inr (by simp [tile])), ?_, notFirst, shape.chunkUsed tile, ?_⟩
  · rw [shape.endChunk]
    omega
  · rw [shape.base, shape.endChunk, shape.chunkSize tile]
    exact ⟨within.above, within.below⟩

/-! ### A granted block -/

theorem InUse.tile {block : Block} (inUse : InUse h block)
    : ∃ c size,
        usedSizes (WellFormed.chunkTiles h) c = some size
        ∧ c ≠ 0
        ∧ h.base + 8 * c ≤ block.address
        ∧ block.address + block.bytes ≤ h.base + 8 * (c + size) := by
  obtain ⟨c, walk, below, notFirst, used, above, fits⟩ := inUse
  refine ⟨c, _, usedSizes_eq_some.mpr ?_, notFirst, by omega, fits⟩
  exact WellFormed.chunkTiles_eq_some.mpr ⟨⟨walk, below⟩, rfl, used⟩

/-- A granted block is placed. Witness: the tiles of the new heap do not overlap, and the old
blocks lie in other tiles.
-/
theorem Granted.placed {h' : ZHeap} {mem bytes : Nat}
    (inUse : ∀ block ∈ live, InUse h block)
    (granted : Granted h.base h.endChunk (usedSizes (WellFormed.chunkTiles h)) bytes h' mem)
    : Placed h' live { address := mem, bytes := bytes } := by
  obtain ⟨tiles, c, size, ⟨lists, shape⟩, used, fresh, notFirst, within⟩ := granted
  have tile : tiles c = some (size, true) := by
    rw [← usedSizes_eq_some, used, Function.update_self]
  have inside := shape.plan.tiling.inside tile
  have behind := shape.plan.behind tile notFirst
  have above := within.above
  have below := within.below
  refine ⟨⟨c, ?_, ?_, notFirst, shape.chunkUsed tile, ?_⟩, ?_, ?_, ?_, ?_⟩
  · exact shape.chunk_iff.mpr (.inr (by simp [tile]))
  · rw [shape.endChunk]
    omega
  · rw [shape.base, shape.endChunk, shape.chunkSize tile]
    exact ⟨above, below⟩
  · rw [shape.base, shape.endChunk]
    dsimp only
    omega
  · intro other member
    obtain ⟨d, size', found, -, lower, upper⟩ := (inUse other member).tile
    have apart : d ≠ c := by
      rintro rfl
      rw [fresh] at found
      cases found
    have tile' : tiles d = some (size', true) := by
      rw [← usedSizes_eq_some, used, Function.update_of_ne apart, found]
    have disjoint := shape.plan.tiling.disjoint tile' tile apart
    unfold Apart
    dsimp only
    omega
  · intro d walk
    rw [shape.base, shape.endChunk, Apart]
    dsimp only
    rcases shape.chunk_iff.mp walk with rfl | present
    · omega
    · obtain ⟨⟨size', used'⟩, tile'⟩ := Option.ne_none_iff_exists'.mp present
      by_cases same : d = c
      · rw [same]
        exact .inr above
      · -- chunk `d` has room for its header in front of the chunk of the block
        have wide := shape.plan.tiling.inside tile'
        have header := chunkHeaderBytes_eq h.endChunk
        have disjoint := shape.plan.tiling.disjoint tile' tile same
        have := minChunkSize_cases h.endChunk
        omega
  · rw [shape.base, shape.endChunk, Apart]
    dsimp only
    omega

/-- In every well-formed heap a request in range returns a block with its alignment, in a chunk
of its own, and apart from everything else in the heap.
-/
theorem returned_block_placed (wellFormed : WellFormed h)
    (inUse : ∀ block ∈ live, InUse h block)
    : (∀ {bytes h' mem},
        InRange h.endChunk bytes (bytesToChunksz h.endChunk bytes)
        → h.sysHeapAlloc bytes = (h', some mem)
        → Placed h' live { address := mem, bytes := bytes })
      ∧ ∀ {align bytes h' mem},
          AlignAccepted align
          → AlignedInRange h.endChunk align bytes
          → h.sysHeapAlignedAlloc align bytes = (h', some mem)
          → AlignedTo align mem ∧ Placed h' live { address := mem, bytes := bytes } := by
  have shape := wellFormed.represented
  constructor
  · intro bytes h' mem inRange returned
    have answered := sysHeapAlloc_answered wellFormed.sizes shape inRange
    rw [returned] at answered
    exact (answered.1.granted shape wellFormed.sizes).placed inUse
  · intro align bytes h' mem accepted inRange returned
    have answered :=
      sysHeapAlignedAlloc_answered wellFormed.sizes shape wellFormed.aligned accepted inRange
    rw [returned] at answered
    exact ⟨answered.2, (answered.1.granted shape wellFormed.sizes).placed inUse⟩

/-- The blocks of a run are in use and its heap is well formed, so a further request may be
made of it.
-/
theorem returned_block_placed_run
    : ∃ final h',
        run step (created (fun _ => 0) 536870912 256) [.alloc 20] = some final
        ∧ final.heap.sysHeapAlignedAlloc 64 10 = (h', some 536871040)
        ∧ AlignedTo 64 536871040
        ∧ Placed h' final.live { address := 536871040, bytes := 10 } := by
  have accepts : InitAccepts 536870912 256 := by decide
  have asks : RunMeets step AsksInRange (created (fun _ => 0) 536870912 256) [.alloc 20] := by
    decide +kernel
  obtain ⟨sizes, aligned, -⟩ := heapSize_sizes accepts
  have returned : ∀ final ∈ run step (created (fun _ => 0) 536870912 256) [.alloc 20],
      (final.heap.sysHeapAlignedAlloc 64 10).2 = some 536871040
      ∧ AlignedInRange final.heap.endChunk 64 10 := by decide +kernel
  obtain ⟨final, ran⟩ : ∃ final,
      run step (created (fun _ => 0) 536870912 256) [.alloc 20] = some final := ⟨_, rfl⟩
  have sound := run_sound accepts asks ran
  obtain ⟨address, inRange⟩ := returned final ran
  refine ⟨final, _, ran, Prod.ext rfl address, ?_⟩
  exact (returned_block_placed (sound.wellFormed sizes aligned) fun _ => sound.inUse).2
    (by decide) inRange (Prod.ext rfl address)

/-- The word of the bucket that does not exist is chunk 4's header, and as a chunk number it
leads outside the heap. Where the memory there reads as a chunk of 16 units, that is the block
that is returned.
-/
theorem alloc_returns_foreign_block
    : ∃ memory,
        WellFormed (created memory 536870912 128).heap
        ∧ ((created memory 536870912 128).heap.sysHeapAlloc 117).2 = some 548405284
        ∧ 536870912 + 128 < 548405284 := by
  have accepts : InitAccepts 536870912 128 := by decide
  obtain ⟨sizes, aligned, -⟩ := heapSize_sizes accepts
  refine ⟨fun place => if place = 11534370 then 32 else 0, ?_, ?_, by decide⟩
  · exact (created_sound accepts).wellFormed sizes aligned
  · decide +kernel

end Zephyr.Heap
