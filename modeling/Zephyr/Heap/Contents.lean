import Zephyr.Heap.Placement

/-! What the calls leave alone: the bytes of every block but the one they are about, and of that
one as far as the caller may still read them.
-/

namespace Zephyr.Heap

open Library (Memory Tiles Tiling Circular store_outside copyBytes run RunMeets)

variable {h after : ZHeap} {base last u size : Nat} {tiles : Tiles Bool}
  {lists : Nat → List Nat} {loose : Set Nat}

/-! ### Writes outside a payload -/

/-- `after` has the bytes of `h` behind the header of the chunk `u` of `size` units. -/
structure Spares (last u size : Nat) (h after : ZHeap) : Prop where
  endChunk : after.endChunk = last
  bytes
    : ∀ {place},
        8 * u + chunkHeaderBytes last ≤ place
        → place < 8 * (u + size)
        → after.memory place = h.memory place

namespace Spares

theorem refl (endChunk : h.endChunk = last) : Spares last u size h h :=
  ⟨endChunk, fun _ _ => rfl⟩

theorem trans {middle : ZHeap} (first : Spares last u size h middle)
    (second : Spares last u size middle after)
    : Spares last u size h after :=
  ⟨second.endChunk, fun lower upper => (second.bytes lower upper).trans (first.bytes lower upper)⟩

theorem counted (spares : Spares last u size h after)
    (freeBytes allocatedBytes maxAllocatedBytes : BitVec 32)
    : Spares last u size h
        ⟨after.base, after.memory, freeBytes, allocatedBytes, maxAllocatedBytes⟩ :=
  ⟨spares.endChunk, spares.bytes⟩

theorem setAvail (spares : Spares last u size h after) (mask : BitVec 32) (behind : 2 ≤ u)
    : Spares last u size h (after.setAvailBuckets mask) := by
  refine ⟨ZHeap.endChunk_setAvailBuckets.trans spares.endChunk, fun lower upper => ?_⟩
  exact (store_outside (by omega)).trans (spares.bytes lower upper)

theorem setHead (spares : Spares last u size h after) (sizes : Sizes last)
    (behind : chunk0Size last ≤ u) {i : Nat} (inRange : i < nbBuckets last) (value : Nat)
    : Spares last u size h (after.setBucketNext i value) := by
  have chunk0 := sizes.chunk0
  refine ⟨ZHeap.endChunk_setBucketNext.trans spares.endChunk, fun lower upper => ?_⟩
  exact (store_outside (by rw [zHeapBytes]; omega)).trans (spares.bytes lower upper)

/-- A header is outside unless it is one of a chunk that starts inside. -/
theorem setHeader (spares : Spares last u size h after) {c : Nat} {f : ChunkFields}
    (header : f.index < 2) (inner : 2 ≤ c) (outside : c ≤ u ∨ u + size ≤ c) (value : Nat)
    : Spares last u size h (after.chunkSet c f value) := by
  refine ⟨(ZHeap.endChunk_chunkSet (.inr inner)).trans spares.endChunk, fun lower upper => ?_⟩
  refine (store_outside ?_).trans (spares.bytes lower upper)
  rw [chunkHeaderBytes_eq] at lower
  rw [spares.endChunk, ZHeap.fieldAddress_eq, fieldBytes_eq]
  rcases minChunkSize_cases last with scale | scale <;> rw [scale] at lower ⊢ <;> omega

theorem setLink (spares : Spares last u size h after) {c : Nat} {f : ChunkFields} (inner : 2 ≤ c)
    (outside : c + minChunkSize last ≤ u ∨ u + size ≤ c) (value : Nat)
    : Spares last u size h (after.chunkSet c f value) := by
  have index := ZHeap.index_lt f
  refine ⟨(ZHeap.endChunk_chunkSet (.inr inner)).trans spares.endChunk, fun lower upper => ?_⟩
  refine (store_outside ?_).trans (spares.bytes lower upper)
  rw [chunkHeaderBytes_eq] at lower
  rw [spares.endChunk, ZHeap.fieldAddress_eq, fieldBytes_eq]
  rcases minChunkSize_cases last with scale | scale <;> rw [scale] at outside lower ⊢ <;> omega

end Spares

/-! ### Lists -/

namespace Represents

theorem listed_outside (shape : Represents h base last tiles lists loose)
    (tile : tiles u = some (size, true)) {i c : Nat} (member : c ∈ lists i)
    : c + minChunkSize last ≤ u ∨ u + size ≤ c := by
  obtain ⟨size', found, large, -⟩ := shape.plan.listed member
  have apart : c ≠ u := by
    rintro rfl
    rw [tile] at found
    cases found
  have := shape.plan.tiling.disjoint found tile apart
  omega

theorem listed_inner (shape : Represents h base last tiles lists loose) (sizes : Sizes last)
    {i c : Nat} (member : c ∈ lists i)
    : 2 ≤ c := by
  have := sizes.chunk0
  have := shape.plan.listed_behind member
  omega

theorem links_listed (shape : Represents h base last tiles lists loose) {i c : Nat}
    (member : c ∈ lists i)
    : h.nextFreeChunk c ∈ lists i ∧ h.prevFreeChunk c ∈ lists i := by
  obtain ⟨before, rest, list⟩ := List.append_of_mem member
  have ring : Circular h.nextFreeChunk h.prevFreeChunk (c :: (rest ++ before)) :=
    Circular.rotate (list ▸ shape.buckets.rings)
  have same : ∀ {x}, x ∈ c :: (rest ++ before) → x ∈ lists i := by
    intro x present
    rw [list]
    simp only [List.mem_cons, List.mem_append] at present ⊢
    tauto
  exact ⟨same ring.links_mem.1, same ring.links_mem.2⟩

theorem unlink_spares (shape : Represents h base last tiles lists loose) (sizes : Sizes last)
    (tile : tiles u = some (size, true)) (notFirst : u ≠ 0) {i c : Nat} (member : c ∈ lists i)
    : Spares last u size h (h.unlink c i) := by
  have behind := shape.plan.behind tile notFirst
  have chunk0 := sizes.chunk0
  have inRange := shape.index_lt member
  obtain ⟨nextIn, prevIn⟩ := shape.links_listed member
  have start : Spares last u size h h := .refl shape.endChunk
  unfold ZHeap.unlink
  split
  · exact (start.setAvail _ (by omega)).setHead sizes behind inRange 0
  · exact ((start.setHead sizes behind inRange _).setLink (shape.listed_inner sizes prevIn)
      (shape.listed_outside tile prevIn) _).setLink (shape.listed_inner sizes nextIn)
      (shape.listed_outside tile nextIn) _

theorem link_spares (shape : Represents h base last tiles lists loose) (sizes : Sizes last)
    (tile : tiles u = some (size, true)) (notFirst : u ≠ 0) {c size' : Nat}
    (free : tiles c = some (size', false)) (large : minChunkSize last ≤ size')
    : Spares last u size h (h.link c (bucketIdx last size')) := by
  have behind := shape.plan.behind tile notFirst
  have behind' := shape.plan.behind free (shape.plan.free_ne_zero free)
  have chunk0 := sizes.chunk0
  have within := shape.plan.tiling.inside free
  have inRange : bucketIdx last size' < nbBuckets last := bucketIdx_lt (by omega)
  have apart : c ≠ u := by
    rintro rfl
    rw [tile] at free
    cases free
  have disjoint := shape.plan.tiling.disjoint free tile apart
  have start : Spares last u size h h := .refl shape.endChunk
  unfold ZHeap.link
  split
  · exact (((start.setAvail _ (by omega)).setHead sizes behind inRange c).setLink (by omega)
      (by omega) c).setLink (by omega) (by omega) c
  · rename_i notEmpty
    have secondIn : h.bucketNext (bucketIdx last size') ∈ lists (bucketIdx last size') := by
      rw [shape.buckets.heads inRange] at notEmpty ⊢
      cases list : lists (bucketIdx last size') with
      | nil => exact absurd (by rw [list]; rfl) notEmpty
      | cons second rest => exact List.mem_cons_self
    have firstIn := (shape.links_listed secondIn).2
    exact (((start.setLink (by omega) (by omega) _).setLink (by omega) (by omega) _).setLink
      (shape.listed_inner sizes firstIn) (shape.listed_outside tile firstIn) c).setLink
      (shape.listed_inner sizes secondIn) (shape.listed_outside tile secondIn) c

end Represents

/-! ### Chunks -/

theorem splitChunks_spares {lc first second : Nat} {used : Bool}
    (shape : Represents h base last tiles lists loose) (sizes : Sizes last)
    (tile : tiles lc = some (first + second, used)) (notFirst : lc ≠ 0)
    (outside : lc + (first + second) ≤ u ∨ u + size ≤ lc ∨ (u = lc ∧ size = first))
    : Spares last u size h (h.splitChunks lc (lc + first)) := by
  have behind := shape.plan.behind tile notFirst
  have chunk0 := sizes.chunk0
  have within := shape.plan.tiling.inside tile
  rw [splitChunks_eq sizes shape.endChunk (shape.chunkSize tile) behind within.2]
  exact ((((Spares.refl shape.endChunk).setHeader (by decide) (by omega) (by omega) _).setHeader
    (by decide) (by omega) (by omega) _).setHeader (by decide) (by omega) (by omega) _).setHeader
    (by decide) (by omega) (by omega) _

theorem mergeChunks_spares {lc first second : Nat} {used used' : Bool}
    (shape : Represents h base last tiles lists loose) (sizes : Sizes last)
    (tile : tiles lc = some (first, used)) (neighbour : tiles (lc + first) = some (second, used'))
    (notFirst : lc ≠ 0)
    (outside : lc + (first + second) ≤ u ∨ u + size ≤ lc ∨ (u = lc ∧ size = first))
    : Spares last u size h (h.mergeChunks lc (lc + first)) := by
  have behind := shape.plan.behind tile notFirst
  have chunk0 := sizes.chunk0
  have within := shape.plan.tiling.inside tile
  have within' := shape.plan.tiling.inside neighbour
  rw [mergeChunks_eq sizes shape.endChunk (shape.chunkSize tile) (shape.chunkSize neighbour)
    within.1 behind (by omega)]
  exact ((Spares.refl shape.endChunk).setHeader (by decide) (by omega) (by omega) _).setHeader
    (by decide) (by omega) (by omega) _

theorem setChunkUsed_spares (mark : Bool) {c size' : Nat} {used used' : Bool}
    (shape : Represents h base last tiles lists loose) (sizes : Sizes last)
    (tile : tiles u = some (size, used)) (other : tiles c = some (size', used'))
    (notFirst : c ≠ 0)
    : Spares last u size h (h.setChunkUsed c mark) := by
  have behind := shape.plan.behind other notFirst
  have chunk0 := sizes.chunk0
  have outside : c ≤ u ∨ u + size ≤ c := by
    by_cases same : c = u
    · exact .inl (Nat.le_of_eq same)
    · have := shape.plan.tiling.disjoint other tile same
      omega
  exact (Spares.refl shape.endChunk).setHeader (by decide) (by omega) outside _

theorem Represents.free_outside {c size' : Nat} (shape : Represents h base last tiles lists loose)
    (tile : tiles u = some (size, true)) (free : tiles c = some (size', false))
    : c + size' ≤ u ∨ u + size ≤ c := by
  refine shape.plan.tiling.disjoint free tile ?_
  rintro rfl
  rw [tile] at free
  cases free

/-! ### Edits -/

variable {stage next : Stage}

theorem Edit.spares (edit : Edit base last stage next) (sizes : Sizes last)
    (tile : stage.tiles u = some (size, true)) (notFirst : u ≠ 0)
    : Spares last u size stage.heap next.heap := by
  cases edit with
  | @unlist h tiles lists loose c size' shape free tight =>
      dsimp only at tile ⊢
      by_cases small : size' < minChunkSize last
      · rw [ZHeap.freeListRemove, shape.soloFreeHeader free, if_pos (decide_eq_true small)]
        exact .refl shape.endChunk
      · have member : c ∈ lists (bucketIdx last size') :=
          shape.plan.members.mpr ⟨tight, size', free, Nat.le_of_not_lt small, rfl⟩
        rw [freeListRemove_listed shape member]
        exact (shape.unlink_spares sizes tile notFirst member).counted ..
  | turn shape list =>
      have member := list ▸ List.mem_cons_self
      exact (Spares.refl shape.endChunk).setHead sizes (shape.plan.behind tile notFirst)
        (shape.index_lt member) _
  | @list h tiles lists loose c size' shape free isLoose right left =>
      dsimp only at tile ⊢
      rw [ZHeap.freeListAdd, shape.soloFreeHeader free, shape.endChunk, shape.chunkSize free]
      by_cases small : size' < minChunkSize last
      · rw [if_pos (decide_eq_true small)]
        exact .refl shape.endChunk
      · rw [if_neg (by simpa using small)]
        exact (shape.link_spares sizes tile notFirst free (Nat.le_of_not_lt small)).counted ..
  | split shape free isLoose positive rest =>
      have outside := shape.free_outside tile free
      exact splitChunks_spares shape sizes free (shape.plan.free_ne_zero free) (by omega)
  | merge shape free neighbour isLoose isLoose' =>
      have outside := shape.free_outside tile free
      have outside' := shape.free_outside tile neighbour
      have positive := shape.plan.tiling.inside tile
      exact mergeChunks_spares shape sizes free neighbour (shape.plan.free_ne_zero free) (by omega)

theorem Edits.tile (edits : Edits base last stage next)
    (tile : stage.tiles u = some (size, true))
    : next.tiles u = some (size, true) := by
  rwa [← usedSizes_eq_some, edits.used, usedSizes_eq_some]

/-- The used chunks stay where they are through all edits, so their bytes do. -/
theorem Edits.spares (edits : Edits base last stage next) (sizes : Sizes last)
    (shape : Shape stage.heap base last stage.tiles stage.loose)
    (tile : stage.tiles u = some (size, true)) (notFirst : u ≠ 0)
    : Spares last u size stage.heap next.heap := by
  obtain ⟨lists, shape⟩ := shape
  induction edits with
  | refl => exact .refl shape.endChunk
  | @tail middle final first edit ih =>
      exact ih.trans (edit.spares sizes (Edits.tile first tile) notFirst)

/-! ### Calls -/

theorem CutOut.spares {mem bytes : Nat} (cutOut : CutOut base last h tiles bytes after mem)
    (shape : Shape h base last tiles ∅) (sizes : Sizes last)
    (tile : tiles u = some (size, true)) (notFirst : u ≠ 0)
    : Spares last u size h after := by
  obtain ⟨cut, tiles', c, size', edits, free, -, rfl⟩ := cutOut
  obtain ⟨lists, shape'⟩ := edits.shape sizes shape
  have marked := setChunkUsed_spares true shape' sizes (edits.tile tile) free
    (shape'.plan.free_ne_zero free)
  exact ((edits.spares sizes shape tile notFirst).trans marked).counted ..

theorem Released.spares {c size' : Nat}
    (released : Released base last h tiles c size' after) (shape : Shape h base last tiles ∅)
    (sizes : Sizes last) (freed : tiles c = some (size', true)) (notFirst : c ≠ 0)
    (tile : tiles u = some (size, true)) (notFirst' : u ≠ 0) (apart : u ≠ c)
    : Spares last u size h after := by
  obtain ⟨tiles', edits⟩ := released
  have marked := (marked_free_shape shape sizes freed notFirst).counted
  obtain ⟨lists, represented⟩ := shape
  have still : Function.update tiles c (some (size', false)) u = some (size, true) := by
    rwa [Function.update_of_ne apart]
  have spared := edits.spares sizes (marked ..) still notFirst'
  have mark := setChunkUsed_spares false represented sizes tile freed notFirst
  exact (mark.counted ..).trans spared

theorem shrinkChunk_spares {c size' need : Nat} (shape : Shape h base last tiles ∅)
    (sizes : Sizes last) (tile : tiles c = some (size', true)) (notFirst : c ≠ 0)
    (positive : 0 < need) (less : need < size') (notFirst' : u ≠ 0)
    (range : (u = c ∧ size = need) ∨ (u ≠ c ∧ tiles u = some (size, true)))
    : Spares last u size h (h.shrinkChunk c need) := by
  obtain ⟨rest, rfl⟩ := Nat.exists_eq_add_of_lt less
  have tile : tiles c = some (need + (rest + 1), true) := tile
  have edited := shrinkChunk_edits shape sizes tile notFirst positive
  generalize h.shrinkChunk c need = shrunk at edited ⊢
  obtain ⟨tiles', edits⟩ := edited
  have start : Shape (h.subAllocatedBytes (8 * (rest + 1))) base last tiles ∅ := shape.counted ..
  have marked := cut_used_shape start sizes tile notFirst positive
  obtain ⟨lists, represented⟩ := start
  have outside : c + (need + (rest + 1)) ≤ u ∨ u + size ≤ c ∨ (u = c ∧ size = need) := by
    rcases range with same | ⟨apart, other⟩
    · exact .inr (.inr same)
    · have := represented.plan.tiling.disjoint tile other (Ne.symm apart)
      omega
  have cut := represented.splitChunks sizes tile notFirst (.inl rfl) positive (Nat.succ_pos rest)
  have first : Tiling.split tiles c need (rest + 1) false false c = some (need, false) :=
    (Tiling.split_eq_some positive).mpr (.inl ⟨rfl, rfl, rfl⟩)
  have still : ∃ used, Tiling.split tiles c need (rest + 1) false false u = some (size, used) := by
    rcases range with ⟨rfl, rfl⟩ | ⟨apart, other⟩
    · exact ⟨false, first⟩
    · refine ⟨true, (Tiling.split_eq_some positive).mpr (.inr (.inr ⟨apart, ?_, other⟩))⟩
      have := represented.plan.tiling.inside other
      omega
  have kept : Function.update (Tiling.split tiles c need (rest + 1) false false) c
      (some (need, true)) u = some (size, true) := by
    rcases range with ⟨rfl, rfl⟩ | ⟨apart, other⟩
    · exact Function.update_self ..
    · rw [Function.update_of_ne apart]
      refine (Tiling.split_eq_some positive).mpr (.inr (.inr ⟨apart, ?_, other⟩))
      have := represented.plan.tiling.inside other
      omega
  obtain ⟨used, still⟩ := still
  have divided := splitChunks_spares represented sizes tile notFirst outside
  have mark := setChunkUsed_spares true cut sizes still first notFirst
  have counted : Spares last u size h (h.subAllocatedBytes (8 * (rest + 1))) :=
    ⟨represented.endChunk, fun _ _ => rfl⟩
  exact ((counted.trans divided).trans mark).trans (edits.spares sizes marked kept notFirst')

theorem growChunk_spares {c size' size'' need : Nat} (shape : Shape h base last tiles ∅)
    (sizes : Sizes last) (tile : tiles c = some (size', true)) (notFirst : c ≠ 0)
    (neighbour : tiles (c + size') = some (size'', false)) (more : size' < need)
    (fits : need ≤ size' + size'') (other : tiles u = some (size, true)) (notFirst' : u ≠ 0)
    : Spares last u size h (h.growChunk c (c + size') need) := by
  obtain ⟨added, rfl⟩ := Nat.exists_eq_add_of_le (Nat.le_of_lt more)
  obtain ⟨trimmed, tiles₂, edits, next₂, grown⟩ :=
    growChunk_edits shape sizes tile neighbour (show 0 < added by omega) (by omega)
  have start : Shape (h.increaseAllocatedBytes (8 * added)) base last tiles ∅ := shape.counted ..
  obtain ⟨lists, represented⟩ := id start
  have counted : Spares last u size h (h.increaseAllocatedBytes (8 * added)) :=
    ⟨represented.endChunk, fun _ _ => rfl⟩
  obtain ⟨lists₂, shape₂⟩ := edits.shape sizes start
  have tile₂ : tiles₂ c = some (size', true) := edits.tile tile
  have other₂ : tiles₂ u = some (size, true) := edits.tile other
  have outside : c + (size' + added) ≤ u ∨ u + size ≤ c ∨ (u = c ∧ size = size') := by
    by_cases same : u = c
    · subst same
      rw [other₂] at tile₂
      cases tile₂
      exact .inr (.inr ⟨rfl, rfl⟩)
    · have := shape₂.plan.tiling.disjoint tile₂ other₂ (Ne.symm same)
      have := shape₂.free_outside other₂ next₂
      have := shape₂.plan.tiling.inside other₂
      omega
  have joined := mergeChunks_spares shape₂ sizes tile₂ next₂ notFirst outside
  have chunk0 := sizes.chunk0
  have behind := shape₂.plan.behind tile₂ notFirst
  rw [grown]
  exact ((counted.trans (edits.spares sizes start other notFirst')).trans joined).setHeader
    (by decide) (by omega) (by omega) _

theorem Filled.tile {c size' c' size'' : Nat} {tiles' : Tiles Bool}
    (filled : Filled base last tiles c size' h tiles' c' size'')
    (tile : tiles u = some (size, true))
    : u ≠ c' ∧ tiles' u = some (size, true) := by
  have apart : u ≠ c' := by
    rintro rfl
    have fresh := filled.fresh
    rw [usedSizes_eq_some.mpr tile] at fresh
    cases fresh
  refine ⟨apart, ?_⟩
  rw [← usedSizes_eq_some, filled.used, Function.update_of_ne apart, usedSizes_eq_some]
  exact tile

theorem Filled.spares {h₁ : ZHeap} {c size' c' size'' mem mem' bytes : Nat} {tiles' : Tiles Bool}
    (filled : Filled base last tiles c size' (copied h₁ base last size' c mem mem' bytes) tiles'
      c' size'')
    (within : Within base last mem' bytes c' size'') (tile : tiles u = some (size, true))
    : Spares last u size h₁ (copied h₁ base last size' c mem mem' bytes) := by
  obtain ⟨apart, tile'⟩ := filled.tile tile
  obtain ⟨lists, represented⟩ := filled.shape
  have disjoint := represented.plan.tiling.disjoint tile' filled.new apart
  have above := within.above
  have below := within.below
  refine ⟨represented.endChunk, fun lower upper => ?_⟩
  change copyBytes h₁.memory _ _ _ _ = _
  rw [copyBytes, if_neg (by omega)]

variable {c size' mem oldBytes bytes : Nat} {aligned : Nat → Prop}
  {answer : ZHeap × Option Nat}

/-- The block in chunk `c` is resized: the bytes of the other used chunks stay. -/
theorem Route.others (route : Route base last h tiles c size' mem bytes aligned answer)
    (shape : Shape h base last tiles ∅) (sizes : Sizes last)
    (tile : tiles c = some (size', true)) (notFirst : c ≠ 0)
    (within : Within base last mem oldBytes c size') (other : tiles u = some (size, true))
    (notFirst' : u ≠ 0) (apart : u ≠ c)
    : Spares last u size h answer.1 := by
  cases route with
  | refused edits => exact edits.spares sizes shape other notFirst'
  | kept =>
      obtain ⟨lists, represented⟩ := shape
      exact .refl represented.endChunk
  | shrunk positive less within' isAligned cut =>
      have spares := shrinkChunk_spares shape sizes tile notFirst positive less notFirst'
        (.inr ⟨apart, other⟩)
      rw [← cut] at spares
      exact spares
  | grown next more fits within' isAligned joined =>
      have spares := growChunk_spares shape sizes tile notFirst next more fits other notFirst'
      rw [← joined] at spares
      exact spares
  | moved cutOut isAligned freed =>
      obtain ⟨tiles₁, c', size'', filled, within', -⟩ := cutOut.filled shape sizes tile
      obtain ⟨lists, represented⟩ := id filled.shape
      have chunk := memToChunkid_eq represented.base represented.endChunk mem
      rw [within.chunk] at chunk
      have released := sysHeapFree_released filled.shape sizes filled.old notFirst chunk
      rw [← freed] at released
      exact ((cutOut.spares shape sizes other notFirst').trans
        (filled.spares within' other)).trans
        (released.spares filled.shape sizes filled.old notFirst (filled.tile other).2 notFirst'
          apart)

/-- The bytes from `mem` in `h` and those from `mem'` in `after` are the same. -/
def SameBytes (base count : Nat) (h : ZHeap) (mem : Nat) (after : ZHeap) (mem' : Nat) : Prop :=
  ∀ i < count, after.memory (mem' - base + i) = h.memory (mem - base + i)

theorem Spares.sameBytes (spares : Spares last c size' h after)
    (within : Within base last mem bytes c size')
    : SameBytes base bytes h mem after mem := by
  have above := within.above
  have below := within.below
  exact fun i less => spares.bytes (by omega) (by omega)

theorem Route.self (route : Route base last h tiles c size' mem bytes aligned answer)
    (shape : Shape h base last tiles ∅) (sizes : Sizes last)
    (tile : tiles c = some (size', true)) (notFirst : c ≠ 0)
    (within : Within base last mem oldBytes c size')
    : (answer.2 = none → SameBytes base oldBytes h mem answer.1 mem)
      ∧ ∀ mem', answer.2 = some mem'
        → SameBytes base (min oldBytes bytes) h mem answer.1 mem' := by
  have above := within.above
  have below := within.below
  cases route with
  | refused edits =>
      exact ⟨fun _ => (edits.spares sizes shape tile notFirst).sameBytes within,
        fun mem' some => nomatch some⟩
  | kept =>
      refine ⟨fun none => (nomatch none), fun mem' isMem => ?_⟩
      cases isMem
      exact fun i less => rfl
  | @shrunk after need positive less within' isAligned cut =>
      refine ⟨fun none => (nomatch none), fun mem' isMem => ?_⟩
      cases isMem
      have spares : Spares last c need h (h.shrinkChunk c need) :=
        shrinkChunk_spares shape sizes tile notFirst positive less notFirst (.inl ⟨rfl, rfl⟩)
      rw [← cut] at spares
      exact fun i less => spares.sameBytes within' i (by omega)
  | grown next more fits within' isAligned joined =>
      refine ⟨fun none => (nomatch none), fun mem' isMem => ?_⟩
      cases isMem
      have spares := growChunk_spares shape sizes tile notFirst next more fits tile notFirst
      rw [← joined] at spares
      exact fun i less => spares.sameBytes within i (by omega)
  | @moved h₁ after mem₁ cutOut isAligned freed =>
      refine ⟨fun none => (nomatch none), fun mem' isMem => ?_⟩
      cases isMem
      obtain ⟨tiles₁, c', size'', filled, within', -⟩ := cutOut.filled shape sizes tile
      obtain ⟨lists, represented⟩ := id filled.shape
      have chunk := memToChunkid_eq represented.base represented.endChunk mem
      rw [within.chunk] at chunk
      have released := sysHeapFree_released filled.shape sizes filled.old notFirst chunk
      rw [← freed] at released
      have after' := released.spares filled.shape sizes filled.old notFirst filled.new
        filled.notFirst filled.apart.symm
      have before := (cutOut.spares shape sizes tile notFirst).sameBytes within
      have above' := within'.above
      have room : chunkszToBytes last size' = 8 * size' - chunkHeaderBytes last := by
        rw [chunkszToBytes, chunkUnit, Nat.mul_comm]
      intro i less
      -- the byte was read from the old block in the heap with the new one, and stays
      refine (after'.sameBytes within' i (by omega)).trans ?_
      change copyBytes h₁.memory _ _ _ _ = _
      rw [copyBytes, if_pos (by omega), Nat.add_sub_cancel_left]
      exact before i (by omega)

/-! ### Reallocation -/

/-- The block is in use in the later heap and has the bytes that it had. -/
def Kept (h after : ZHeap) (block : Block) : Prop :=
  InUse after block ∧ SameBytes h.base block.bytes h block.address after block.address

/-- What a caller may rely on who has a block of `live` resized to `bytes` bytes. -/
def Reallocated (h : ZHeap) (live : List Block) (block : Block) (align bytes : Nat)
    : ZHeap × Option Nat → Prop
  | (after, none) => ∀ other ∈ live, Kept h after other
  | (after, some mem) =>
      AlignedTo align mem
      ∧ InUse after { address := mem, bytes := bytes }
      ∧ SameBytes h.base (min block.bytes bytes) h block.address after mem
      ∧ ∀ other ∈ live, other ≠ block → Kept h after other

variable {state : State} {block : Block} {align : Nat}

theorem route_bytes {tiles : Tiles Bool} {answer : ZHeap × Option Nat}
    (shape : Shape state.heap base last tiles ∅) (sizes : Sizes last)
    (owned : Owned base last (usedSizes tiles) state.live) (member : block ∈ state.live)
    (route
      : ∀ {size}, tiles (chunkOf base last block.address) = some (size, true)
        → Route base last state.heap tiles (chunkOf base last block.address) size block.address
            bytes aligned answer)
    : (∀ other ∈ state.live, other ≠ block ∨ answer.2 = none
        → SameBytes base other.bytes state.heap other.address answer.1 other.address)
      ∧ ∀ mem, answer.2 = some mem
        → SameBytes base (min block.bytes bytes) state.heap block.address answer.1 mem := by
  obtain ⟨notFirst, size, found, within⟩ := owned.placed member
  have tile := usedSizes_eq_some.mp found
  have taken := route tile
  have itself := taken.self shape sizes tile notFirst within
  refine ⟨fun other member' either => ?_, itself.2⟩
  by_cases same : other = block
  · subst same
    exact itself.1 (either.resolve_left (fun ne => ne rfl))
  · obtain ⟨notFirst', size', found', within'⟩ := owned.placed member'
    have apart : chunkOf base last other.address ≠ chunkOf base last block.address :=
      fun chunk => same (owned.eq_of_chunk member' member chunk)
    exact (taken.others shape sizes tile notFirst within (usedSizes_eq_some.mp found') notFirst'
      apart).sameBytes within'

/-- In every run whose requests are all in range, resizing a live block to a size other than zero
either leaves all blocks as they are, or returns an aligned block of the new size that begins
with the old bytes and leaves the other blocks as they are.
-/
theorem realloc_keeps_contents {memory : Memory} {start length : Nat} {calls : List Call}
    (accepts : InitAccepts start length)
    (asks : RunMeets step AsksInRange (created memory start length) calls)
    (ran : run step (created memory start length) calls = some state)
    (member : block ∈ state.live) (small : align < 2 ^ 32) (single : align &&& (align - 1) = 0)
    (positive : bytes ≠ 0)
    (inRange : AsksInRange state (.alignedRealloc (some block.address) align bytes))
    : Reallocated state.heap state.live block align bytes
        (state.heap.sysHeapAlignedRealloc (some block.address) align bytes) := by
  obtain ⟨sizes, aligned, -⟩ := heapSize_sizes accepts
  have sound := run_sound accepts asks ran
  have accepted : ReallocAccepted state block.address align :=
    ⟨⟨block, member, rfl⟩, small, single⟩
  have stepped : step state (.alignedRealloc (some block.address) align bytes) = _ :=
    if_pos accepted
  simp only [if_neg positive] at stepped
  have sound' := realloc_sound sizes aligned sound inRange stepped
  obtain ⟨tiles, shape, owned⟩ := sound
  obtain ⟨lists, represented⟩ := id shape
  have inRange := inRange.resolve_left positive
  have same : (∀ other ∈ state.live,
        other ≠ block
          ∨ (state.heap.sysHeapAlignedRealloc (some block.address) align bytes).2 = none
        → SameBytes state.heap.base other.bytes state.heap other.address
            (state.heap.sysHeapAlignedRealloc (some block.address) align bytes).1 other.address)
      ∧ ∀ mem, (state.heap.sysHeapAlignedRealloc (some block.address) align bytes).2 = some mem
        → AlignedTo align mem
          ∧ SameBytes state.heap.base (min block.bytes bytes) state.heap block.address
              (state.heap.sysHeapAlignedRealloc (some block.address) align bytes).1 mem := by
    rw [ZHeap.sysHeapAlignedRealloc, if_neg positive, represented.base]
    by_cases big : sizeTooBig state.heap.endChunk bytes = true
    · rw [if_pos big]
      refine ⟨fun other _ _ i _ => rfl, ?_⟩
      intro mem isMem
      cases isMem
    · rw [if_neg big]
      obtain ⟨notFirst, size, found, within⟩ := owned.placed member
      have tile := usedSizes_eq_some.mp found
      have route := resize_route sizes shape aligned tile within small single
        (inRange.resolve_left big)
      have resized := route.resized shape sizes tile notFirst within
      generalize state.heap.resize block.address align bytes = answer at route resized ⊢
      obtain ⟨others, itself⟩ := route_bytes shape sizes owned member (fun {size'} tile' => by
        rw [tile] at tile'
        cases tile'
        exact route)
      refine ⟨others, fun mem isMem => ⟨?_, itself mem isMem⟩⟩
      obtain ⟨after, result⟩ := answer
      obtain rfl : result = some mem := isMem
      exact resized.2
  generalize state.heap.sysHeapAlignedRealloc (some block.address) align bytes = answer
    at same sound' ⊢
  obtain ⟨after, result⟩ := answer
  cases result with
  | none =>
      intro other member'
      exact ⟨sound'.inUse member', same.1 other member' (.inr rfl)⟩
  | some mem =>
      obtain ⟨isAligned, bytes⟩ := same.2 mem rfl
      refine ⟨isAligned, sound'.inUse List.mem_cons_self, bytes, ?_⟩
      intro other member' ne
      refine ⟨sound'.inUse (List.mem_cons_of_mem _ ?_), same.1 other member' (.inl ne)⟩
      have apart : other.address ≠ block.address := fun address =>
        ne (owned.eq_of_chunk member' member (by rw [address]))
      exact List.mem_filter.mpr ⟨member', by simpa using apart⟩

/-- The first of two blocks of 8 bytes has to move when it is resized to 20 bytes. -/
theorem realloc_keeps_contents_run
    : ∃ state,
        run step (created (fun _ => 0) 536870912 256) [.alloc 8, .alloc 8] = some state
        ∧ { address := 536870956, bytes := 8 } ∈ state.live
        ∧ Reallocated state.heap state.live { address := 536870956, bytes := 8 } 16 20
            (state.heap.sysHeapAlignedRealloc (some 536870956) 16 20) := by
  have accepts : InitAccepts 536870912 256 := by decide
  have asks : RunMeets step AsksInRange (created (fun _ => 0) 536870912 256)
      [.alloc 8, .alloc 8] := by decide +kernel
  have facts : ∀ state ∈ run step (created (fun _ => 0) 536870912 256) [.alloc 8, .alloc 8],
      { address := 536870956, bytes := 8 } ∈ state.live
      ∧ AsksInRange state (.alignedRealloc (some 536870956) 16 20) := by decide +kernel
  obtain ⟨state, ran⟩ : ∃ state,
      run step (created (fun _ => 0) 536870912 256) [.alloc 8, .alloc 8] = some state := ⟨_, rfl⟩
  obtain ⟨member, inRange⟩ := facts state ran
  exact ⟨state, ran, member,
    realloc_keeps_contents accepts asks ran member (by decide) (by decide) (by decide) inRange⟩

/-- A block of 8 bytes in chunk 4 of a heap with 4 buckets is resized to 117 bytes. The request
for bucket 4 takes the header of chunk 4 for the head of a list and sets it to 0: there is no
answer, and the old block is no longer in a used chunk.
-/
theorem realloc_loses_block
    : InitAccepts 536870912 128
      ∧ ∃ state,
          run step (created (fun _ => 0) 536870912 128) [.alloc 8] = some state
          ∧ state.live = [{ address := 536870948, bytes := 8 }]
          ∧ ¬Reallocated state.heap state.live { address := 536870948, bytes := 8 } 0 117
              (state.heap.sysHeapAlignedRealloc (some 536870948) 0 117) := by
  refine ⟨by decide, ?_⟩
  have facts : ∀ state ∈ run step (created (fun _ => 0) 536870912 128) [.alloc 8],
      state.live = [{ address := 536870948, bytes := 8 }]
      ∧ (state.heap.sysHeapAlignedRealloc (some 536870948) 0 117).2 = none
      ∧ (state.heap.sysHeapAlignedRealloc (some 536870948) 0 117).1.chunkSize 0 = 4
      ∧ (state.heap.sysHeapAlignedRealloc (some 536870948) 0 117).1.chunkSize 4 = 0
      ∧ (state.heap.sysHeapAlignedRealloc (some 536870948) 0 117).1.chunkUsed 4 = false := by
    decide +kernel
  obtain ⟨state, ran⟩ : ∃ state,
      run step (created (fun _ => 0) 536870912 128) [.alloc 8] = some state := ⟨_, rfl⟩
  obtain ⟨live, refused, own, gone, unused⟩ := facts state ran
  refine ⟨state, ran, live, fun meets => ?_⟩
  generalize state.heap.sysHeapAlignedRealloc (some 536870948) 0 117 = answer at *
  obtain ⟨after, result⟩ := answer
  obtain rfl : result = none := refused
  obtain ⟨⟨c, walk, -, notFirst, used, -⟩, -⟩ := meets _ (live ▸ List.mem_singleton_self _)
  -- the walk from chunk 0 stays at chunk 4, which has no size
  have stuck : c = 0 ∨ c = 4 := by
    clear used notFirst
    induction walk with
    | first => exact .inl rfl
    | right _ _ ih =>
        right
        rcases ih with rfl | rfl
        · rw [ZHeap.rightChunk, own]
        · rw [ZHeap.rightChunk, gone]
  rw [stuck.resolve_left notFirst] at used
  exact absurd used (by simp [unused])

end Zephyr.Heap
