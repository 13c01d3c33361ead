import Zephyr.Heap.Freeing

/-! Well-formed heaps, said of the words in memory alone, and the chunks they stand for. -/

namespace Zephyr.Heap

open Library

/-- The chunks: chunk 0 and, up to the end marker, the right neighbour of each chunk. -/
inductive Chunk (h : ZHeap) : Nat → Prop
  | first : Chunk h 0
  | right {c : Nat} : Chunk h c → c < h.endChunk → Chunk h (h.rightChunk c)

/-- A chunk that has to be in the list of a bucket. -/
structure Listable (h : ZHeap) (i c : Nat) : Prop where
  chunk : Chunk h c
  below : c < h.endChunk
  free : h.chunkUsed c = false
  notSolo : h.soloFreeHeader c = false
  index : bucketIdx h.endChunk (h.chunkSize c) = i

structure WellFormed (h : ZHeap) : Prop where
  aligned : 8 ∣ h.base
  sizes : Sizes h.endChunk
  -- chunk 0 holds the heap's own header, the end marker is a used chunk of no size
  own : h.chunkSize 0 = chunk0Size h.endChunk ∧ h.chunkUsed 0 = true
  origin : h.chunkField 0 .leftSize = 0
  marker : h.chunkSize h.endChunk = 0 ∧ h.chunkUsed h.endChunk = true
  -- the walk to the right does not step over the end marker
  tiled
    : ∀ {c}, Chunk h c → c < h.endChunk → 0 < h.chunkSize c ∧ h.rightChunk c ≤ h.endChunk
  left
    : ∀ {c}, Chunk h c → c < h.endChunk
      → h.chunkField (h.rightChunk c) .leftSize = h.chunkSize c
  coalesced
    : ∀ {c}, Chunk h c → c < h.endChunk → h.chunkUsed c = false
      → h.chunkUsed (h.rightChunk c) = true
  lists
    : ∀ i, i < nbBuckets h.endChunk
      → ∃ list,
          h.bucketNext i = list.headD 0
          ∧ Circular h.nextFreeChunk h.prevFreeChunk list
          ∧ list.Nodup
          ∧ ∀ c, c ∈ list ↔ Listable h i c
  avail
    : ∀ i, h.availBuckets.getLsbD i = true ↔ i < nbBuckets h.endChunk ∧ h.bucketNext i ≠ 0

variable {h : ZHeap} {base last : Nat} {tiles : Tiles Bool}

/-! ### A represented heap is well formed -/

namespace Represents

variable {lists : Nat → List Nat} {loose : Set Nat}

/-- The walk to the right visits exactly the tiles and then the end marker. -/
theorem chunk_iff (shape : Represents h base last tiles lists loose) {c : Nat}
    : Chunk h c ↔ c = last ∨ tiles c ≠ none := by
  constructor
  · intro walk
    induction walk with
    | first => exact .inr shape.plan.tiling.starts
    | @right c _ below ih =>
        rw [shape.endChunk] at below
        obtain ⟨⟨size, used⟩, found⟩ := Option.ne_none_iff_exists'.mp
          (ih.resolve_left (by omega))
        rw [shape.rightChunk found]
        refine (shape.plan.right_cases found).imp id fun ⟨_, _, next⟩ => ?_
        simp only [next, ne_eq, reduceCtorEq, not_false_eq_true]
  · -- every tile and the end marker have a tile to their left
    induction c using Nat.strongRecOn with
    | ind c ih =>
        intro stop
        by_cases isFirst : c = 0
        · exact isFirst ▸ .first
        · obtain ⟨before, size, used, found, rfl⟩ := shape.plan.tiling.left (by omega) stop
          have within := shape.plan.tiling.inside found
          have walk := ih before (by omega) (.inr (by simp [found]))
          rw [← shape.rightChunk found]
          exact walk.right (by rw [shape.endChunk]; omega)

theorem tile_of_chunk (shape : Represents h base last tiles lists loose) {c : Nat}
    (walk : Chunk h c) (below : c < h.endChunk)
    : tiles c = some (h.chunkSize c, h.chunkUsed c) := by
  rw [shape.endChunk] at below
  obtain ⟨⟨size, used⟩, found⟩ := Option.ne_none_iff_exists'.mp
    ((shape.chunk_iff.mp walk).resolve_left (by omega))
  rw [shape.chunkSize found, shape.chunkUsed found, found]

theorem wellFormed (shape : Represents h base last tiles lists ∅) (sizes : Sizes last)
    (aligned : 8 ∣ base)
    : WellFormed h := by
  have chunk0 := sizes.chunk0
  refine ⟨?_, ?_, ?_, ?_, ?_, ?_, ?_, ?_, ?_, ?_⟩
  · rw [shape.base]
    exact aligned
  · rw [shape.endChunk]
    exact sizes
  · rw [shape.chunkSize shape.plan.first, shape.chunkUsed shape.plan.first, shape.endChunk]
    exact ⟨rfl, rfl⟩
  · exact shape.headers.origin
  · rw [shape.endChunk, shape.chunkUsed_marker]
    have field : h.chunkField last .sizeAndUsed = 1 := shape.headers.marker
    rw [ZHeap.chunkSize, field]
    exact ⟨rfl, rfl⟩
  · intro c walk below
    have found := shape.tile_of_chunk walk below
    have within := shape.plan.tiling.inside found
    rw [ZHeap.rightChunk, shape.endChunk]
    exact within
  · intro c walk below
    exact shape.headers.left (shape.tile_of_chunk walk below)
  · intro c walk below free
    have found := shape.tile_of_chunk walk below
    rw [free] at found
    rcases shape.plan.right_cases found with isLast | ⟨size', used', next⟩
    · rw [ZHeap.rightChunk, isLast, shape.chunkUsed_marker]
    · rw [ZHeap.rightChunk, shape.chunkUsed next]
      cases used' with
      | true => rfl
      | false => exact ((shape.plan.coalesced found next).elim id id).elim
  · intro i inRange
    rw [shape.endChunk] at inRange
    refine ⟨lists i, shape.buckets.heads inRange, shape.buckets.rings, shape.plan.nodup, ?_⟩
    intro c
    rw [shape.plan.members]
    constructor
    · rintro ⟨-, size, found, large, index⟩
      have within := shape.plan.tiling.inside found
      refine ⟨shape.chunk_iff.mpr (.inr (by simp [found])), ?_, shape.chunkUsed found, ?_, ?_⟩
      · rw [shape.endChunk]
        omega
      · rw [shape.soloFreeHeader found]
        exact decide_eq_false (Nat.not_lt.mpr large)
      · rw [shape.endChunk, shape.chunkSize found, index]
    · intro listable
      have found := shape.tile_of_chunk listable.chunk listable.below
      have notSolo := listable.notSolo
      have index := listable.index
      rw [listable.free] at found
      rw [shape.soloFreeHeader found] at notSolo
      rw [shape.endChunk] at index
      exact ⟨Set.notMem_empty c, _, found, Nat.not_lt.mp (of_decide_eq_false notSolo), index⟩
  · intro i
    rw [shape.buckets.avail, shape.endChunk]
    constructor
    · intro nonempty
      obtain ⟨c, rest, list⟩ := List.exists_cons_of_ne_nil
        (show lists i ≠ [] by simpa using nonempty)
      have member : c ∈ lists i := by simp [list]
      have inRange := shape.index_lt member
      have behind := shape.plan.listed_behind member
      refine ⟨inRange, ?_⟩
      rw [shape.buckets.heads inRange, list, List.headD_cons]
      omega
    · rintro ⟨inRange, nonzero⟩
      rw [shape.buckets.heads inRange] at nonzero
      cases list : lists i with
      | nil =>
          rw [list] at nonzero
          exact (nonzero rfl).elim
      | cons c rest => rfl

end Represents

/-! ### A well-formed heap is represented -/

namespace WellFormed

open scoped Classical in
/-- The chunks below the end marker as tiles. -/
noncomputable def chunkTiles (h : ZHeap) : Tiles Bool :=
  fun c => if Chunk h c ∧ c < h.endChunk then some (h.chunkSize c, h.chunkUsed c) else none

theorem chunkTiles_eq_some {c size : Nat} {used : Bool}
    : chunkTiles h c = some (size, used)
      ↔ (Chunk h c ∧ c < h.endChunk) ∧ h.chunkSize c = size ∧ h.chunkUsed c = used := by
  unfold chunkTiles
  split
  case isTrue chunk => simp [chunk]
  case isFalse other => simp [other]

theorem chunkTiles_ne_none {c : Nat} : chunkTiles h c ≠ none ↔ Chunk h c ∧ c < h.endChunk := by
  unfold chunkTiles
  split
  case isTrue chunk => simp [chunk]
  case isFalse other => simp [other]

theorem chunk_le (wellFormed : WellFormed h) {c : Nat} (walk : Chunk h c)
    : c ≤ h.endChunk := by
  induction walk with
  | first => exact Nat.zero_le _
  | right before below ih => exact (wellFormed.tiled before below).2

/-- No chunk starts inside another. Witness: strong induction over the later one, which the
walk reaches from a chunk that starts before it.
-/
theorem apart (wellFormed : WellFormed h) {c d : Nat} (walk : Chunk h c) (walk' : Chunk h d)
    (less : c < d)
    : h.rightChunk c ≤ d := by
  induction d using Nat.strongRecOn generalizing c with
  | ind d ih =>
      cases walk' with
      | first => exact absurd less (Nat.not_lt_zero c)
      | @right b before below =>
          have size := wellFormed.tiled before below
          have step : h.rightChunk b = b + h.chunkSize b := rfl
          rcases Nat.lt_trichotomy c b with lower | same | higher
          · exact Nat.le_trans (ih b (by omega) walk before lower) (Nat.le_add_right ..)
          · rw [same]
          · -- the earlier chunk would start inside the one before the later
            have := ih c less before walk higher
            omega

theorem chunk_marker (wellFormed : WellFormed h) : Chunk h h.endChunk := by
  suffices walk : ∀ distance c, h.endChunk - c = distance → Chunk h c → Chunk h h.endChunk by
    exact walk _ 0 rfl .first
  intro distance
  induction distance using Nat.strongRecOn with
  | ind distance ih =>
      intro c far walk
      have le := wellFormed.chunk_le walk
      by_cases reached : c = h.endChunk
      · exact reached ▸ walk
      · have below : c < h.endChunk := by omega
        have size := wellFormed.tiled walk below
        have step : h.rightChunk c = c + h.chunkSize c := rfl
        exact ih _ (by omega) (h.rightChunk c) rfl (walk.right below)

theorem tiling (wellFormed : WellFormed h) : Tiling h.endChunk (chunkTiles h) := by
  refine ⟨?_, ?_, ?_, ?_⟩
  · have room := wellFormed.sizes.room
    have chunk0 := wellFormed.sizes.chunk0
    exact chunkTiles_ne_none.mpr ⟨.first, by omega⟩
  · intro c size used found
    obtain ⟨⟨walk, below⟩, rfl, -⟩ := chunkTiles_eq_some.mp found
    exact wellFormed.tiled walk below
  · intro c size used found below'
    obtain ⟨⟨walk, below⟩, rfl, -⟩ := chunkTiles_eq_some.mp found
    exact chunkTiles_ne_none.mpr ⟨walk.right below, below'⟩
  · intro c size used d found above below'
    obtain ⟨⟨walk, below⟩, rfl, -⟩ := chunkTiles_eq_some.mp found
    by_contra present
    obtain ⟨walk', -⟩ := chunkTiles_ne_none.mp present
    have := wellFormed.apart walk walk' above
    have step : h.rightChunk c = c + h.chunkSize c := rfl
    omega

theorem represented (wellFormed : WellFormed h)
    : ∃ lists, Represents h h.base h.endChunk (chunkTiles h) lists ∅ := by
  have chunk0 := wellFormed.sizes.chunk0
  have room := wellFormed.sizes.room
  obtain ⟨lists, holds⟩ :
      ∃ lists : Nat → List Nat, ∀ i, i < nbBuckets h.endChunk
        → h.bucketNext i = (lists i).headD 0
          ∧ Circular h.nextFreeChunk h.prevFreeChunk (lists i)
          ∧ (lists i).Nodup
          ∧ ∀ c, c ∈ lists i ↔ Listable h i c := by
    refine ⟨fun i => if inRange : i < nbBuckets h.endChunk
      then (wellFormed.lists i inRange).choose else [], fun i inRange => ?_⟩
    simp only [inRange, dif_pos]
    exact (wellFormed.lists i inRange).choose_spec
  let bucketLists : Nat → List Nat := fun i => if i < nbBuckets h.endChunk then lists i else []
  have inside : ∀ {i}, i < nbBuckets h.endChunk → bucketLists i = lists i :=
    fun inRange => if_pos inRange
  have outside : ∀ {i}, ¬i < nbBuckets h.endChunk → bucketLists i = [] :=
    fun notInRange => if_neg notInRange
  have tiled := wellFormed.tiling
  -- a free chunk large enough for links is one that belongs in a list
  have listable : ∀ {i c},
      (∃ size, chunkTiles h c = some (size, false) ∧ minChunkSize h.endChunk ≤ size
        ∧ bucketIdx h.endChunk size = i) ↔ Listable h i c := by
    intro i c
    have solo : ∀ {size}, h.chunkSize c = size → 0 < size
        → (h.soloFreeHeader c = false ↔ minChunkSize h.endChunk ≤ size) := by
      intro size isSize positive
      rw [ZHeap.soloFreeHeader, isSize, minChunkSize_eq]
      cases bigHeapChunks h.endChunk
      · simp only [Bool.false_and, Bool.false_eq_true, if_false, true_iff]
        omega
      · simp only [Bool.true_and, if_true, beq_eq_false_iff_ne]
        omega
    constructor
    · rintro ⟨size, found, large, index⟩
      have positive := (tiled.inside found).1
      obtain ⟨⟨walk, below⟩, isSize, free⟩ := chunkTiles_eq_some.mp found
      exact ⟨walk, below, free, (solo isSize positive).mpr large, by rw [isSize, index]⟩
    · intro candidate
      have found : chunkTiles h c = some (h.chunkSize c, false) :=
        chunkTiles_eq_some.mpr ⟨⟨candidate.chunk, candidate.below⟩, rfl, candidate.free⟩
      exact ⟨_, found, (solo rfl (tiled.inside found).1).mp candidate.notSolo, candidate.index⟩
  have field : ∀ {c}, h.sizeField c = 2 * h.chunkSize c + (h.chunkUsed c).toNat := by
    intro c
    have used : (h.chunkUsed c).toNat = h.chunkField c .sizeAndUsed % 2 := by
      rw [ZHeap.chunkUsed]
      rcases Nat.mod_two_eq_zero_or_one (h.chunkField c .sizeAndUsed) with even | odd
      · simp [even]
      · simp [odd]
    rw [used, ZHeap.chunkSize, ZHeap.sizeField]
    omega
  refine ⟨bucketLists, rfl, rfl, ⟨wellFormed.origin, ?_, ?_, ?_⟩, ⟨?_, ?_, ?_⟩, tiled, ?_, ?_, ?_, ?_⟩
  · rw [field, wellFormed.marker.1, wellFormed.marker.2]
    rfl
  · intro c size used found
    obtain ⟨-, rfl, rfl⟩ := chunkTiles_eq_some.mp found
    exact field
  · intro c size used found
    obtain ⟨⟨walk, below⟩, rfl, -⟩ := chunkTiles_eq_some.mp found
    exact wellFormed.left walk below
  · intro i inRange
    rw [inside inRange, (holds i inRange).1]
  · intro i
    by_cases inRange : i < nbBuckets h.endChunk
    · rw [inside inRange]
      exact (holds i inRange).2.1
    · rw [outside inRange]
      trivial
  · intro i
    have bit := wellFormed.avail i
    by_cases inRange : i < nbBuckets h.endChunk
    · rw [inside inRange]
      simp only [inRange, true_and, (holds i inRange).1] at bit
      cases list : lists i with
      | nil =>
          rw [list] at bit
          simpa using bit
      | cons c rest =>
          have candidate := ((holds i inRange).2.2.2 c).mp (by simp [list])
          have notOwn : c ≠ 0 := by
            rintro rfl
            have free := candidate.free
            rw [wellFormed.own.2] at free
            cases free
          rw [list] at bit
          simpa [notOwn] using bit
    · rw [outside inRange]
      simpa [inRange] using bit
  · exact chunkTiles_eq_some.mpr ⟨⟨.first, by omega⟩, wellFormed.own.1, wellFormed.own.2⟩
  · intro i c
    rw [listable]
    by_cases inRange : i < nbBuckets h.endChunk
    · rw [inside inRange, (holds i inRange).2.2.2]
      simp
    · rw [outside inRange]
      refine ⟨fun member => (List.not_mem_nil member).elim, ?_⟩
      rintro ⟨_, candidate⟩
      have within := wellFormed.tiled candidate.chunk candidate.below
      have step : h.rightChunk c = c + h.chunkSize c := rfl
      exact (inRange (candidate.index ▸ bucketIdx_lt (by omega))).elim
  · intro i
    by_cases inRange : i < nbBuckets h.endChunk
    · rw [inside inRange]
      exact (holds i inRange).2.2.1
    · rw [outside inRange]
      exact List.nodup_nil
  · intro c size size' found found'
    obtain ⟨⟨walk, below⟩, rfl, free⟩ := chunkTiles_eq_some.mp found
    obtain ⟨-, -, free'⟩ := chunkTiles_eq_some.mp found'
    have taken := wellFormed.coalesced walk below free
    rw [show h.chunkUsed (h.rightChunk c) = false from free'] at taken
    cases taken

end WellFormed

end Zephyr.Heap
