import Zephyr.Heap.Alignment

/-! Writing into blocks, and resizing them in place or by moving them. -/

namespace Zephyr.Heap

open Library

variable {h : ZHeap} {base last : Nat} {tiles : Tiles Bool}

/-! ### Writes into a block -/

theorem payload_shape (memory : Memory) {c size : Nat} (shape : Shape h base last tiles ∅)
    (sizes : Sizes last) (tile : tiles c = some (size, true)) (notFirst : c ≠ 0)
    (same
      : ∀ {place}, place < 8 * c + chunkHeaderBytes last ∨ 8 * (c + size) ≤ place
        → memory place = h.memory place)
    : Shape { h with memory := memory } base last tiles ∅ := by
  obtain ⟨lists, shape⟩ := shape
  have chunk0 := sizes.chunk0
  have behind := shape.plan.behind tile notFirst
  have header := chunkHeaderBytes_eq last
  have within := shape.plan.tiling.inside tile
  have loads : ∀ {address width}, address + width ≤ 8 * c + chunkHeaderBytes last
      ∨ 8 * (c + size) ≤ address → load memory address width = load h.memory address width :=
    fun outside => load_congr fun place lower upper => same (by omega)
  have endChunk : ({ h with memory := memory } : ZHeap).endChunk = h.endChunk :=
    loads (.inl (by omega))
  -- a header or a pair of links lies before the block's first byte or behind its chunk
  have fields : ∀ {d} (g : ChunkFields), d + (if g.index < 2 then 0 else minChunkSize last) ≤ c
      ∨ (d = c ∧ g.index < 2) ∨ c + size ≤ d
      → ({ h with memory := memory } : ZHeap).chunkField d g = h.chunkField d g := by
    intro d g place
    have index := ZHeap.index_lt g
    rw [ZHeap.chunkField, endChunk, shape.endChunk]
    refine (loads ?_).trans (by rw [ZHeap.chunkField, shape.endChunk])
    rw [ZHeap.fieldAddress_eq, fieldBytes_eq]
    rcases minChunkSize_cases last with scale | scale <;> rw [scale] at place header ⊢ <;>
      split at place <;> omega
  have headers : ∀ {d} (g : ChunkFields), g.index < 2 → d = last ∨ tiles d ≠ none
      → ({ h with memory := memory } : ZHeap).chunkField d g = h.chunkField d g := by
    intro d g isHeader stop
    refine fields g ?_
    rw [if_pos isHeader, Nat.add_zero]
    by_contra inside
    rcases stop with isLast | start
    · omega
    · exact start (shape.plan.tiling.apart tile (by omega) (by omega))
  have ends : ∀ {d size used}, tiles d = some (size, used)
      → d + size = last ∨ tiles (d + size) ≠ none := by
    intro d size' used found
    rcases shape.plan.right_cases found with last | ⟨_, _, next⟩
    · exact .inl last
    · exact .inr (by simp only [next, ne_eq, reduceCtorEq, not_false_eq_true])
  have links : ∀ {i x} (g : ChunkFields), 2 ≤ g.index → x ∈ lists i
      → ({ h with memory := memory } : ZHeap).chunkField x g = h.chunkField x g := by
    intro i x g isLink member
    obtain ⟨size', found, large, -⟩ := shape.plan.listed member
    have apart : x ≠ c := by
      rintro rfl
      rw [tile] at found
      cases found
    have disjoint := shape.plan.tiling.disjoint found tile apart
    refine fields g ?_
    rw [if_neg (by omega)]
    omega
  refine ⟨lists, shape.base, endChunk.trans shape.endChunk, ⟨?_, ?_, ?_, ?_⟩, ⟨?_, ?_, ?_⟩,
    shape.plan⟩
  · exact (headers .leftSize (by decide) (.inr shape.plan.tiling.starts)).trans
      shape.headers.origin
  · exact (headers .sizeAndUsed (by decide) (.inl rfl)).trans shape.headers.marker
  · intro d size' used found
    exact (headers .sizeAndUsed (by decide) (.inr (by simp [found]))).trans
      (shape.headers.size found)
  · intro d size' used found
    exact (headers .leftSize (by decide) (ends found)).trans (shape.headers.left found)
  · intro i inRange
    exact (loads (.inl (by unfold zHeapBytes; omega))).trans (shape.buckets.heads inRange)
  · intro i
    exact shape.buckets.rings.congr (fun node member => links .freeNext (by decide) member)
      (fun node member => links .freePrev (by decide) member)
  · intro i
    have mask : ({ h with memory := memory } : ZHeap).availBuckets = h.availBuckets :=
      congrArg (BitVec.ofNat 32) (loads (.inl (by omega)))
    rw [mask, shape.buckets.avail]

/-! ### Resizing in place -/

/-- The chunk `c` is cut, its first part is marked as used and the rest is loose. -/
theorem cut_used_shape {c need rest : Nat} (shape : Shape h base last tiles ∅)
    (sizes : Sizes last) (tile : tiles c = some (need + (rest + 1), true)) (notFirst : c ≠ 0)
    (positive : 0 < need)
    : Shape ((h.splitChunks c (c + need)).setChunkUsed c true) base last
        (Function.update (Tiling.split tiles c need (rest + 1) false false) c (some (need, true)))
        {c + need} := by
  obtain ⟨lists, shape⟩ := shape
  have cut := shape.splitChunks sizes tile notFirst (.inl rfl) positive (Nat.succ_pos rest)
  have first : Tiling.split tiles c need (rest + 1) false false c = some (need, false) :=
    (Tiling.split_eq_some positive).mpr (.inl ⟨rfl, rfl, rfl⟩)
  have marked := cut.setChunkUsed sizes first notFirst (.inr (Set.mem_insert _ _)) true
  have loose : insert c (insert (c + need) (∅ : Set Nat)) \ {c} = {c + need} := by
    grind
  rw [if_pos rfl, loose] at marked
  exact ⟨lists, marked⟩

theorem shrinkChunk_edits {c need rest : Nat} (shape : Shape h base last tiles ∅)
    (sizes : Sizes last) (tile : tiles c = some (need + (rest + 1), true)) (notFirst : c ≠ 0)
    (positive : 0 < need)
    : ∃ tiles',
        Edits base last
          ⟨((h.subAllocatedBytes (8 * (rest + 1))).splitChunks c (c + need)).setChunkUsed c true,
            Function.update (Tiling.split tiles c need (rest + 1) false false) c
              (some (need, true)),
            {c + need}⟩
          ⟨h.shrinkChunk c need, tiles', ∅⟩ := by
  obtain ⟨lists, represented⟩ := id shape
  have marked : Shape (((h.subAllocatedBytes (8 * (rest + 1))).splitChunks c
      (c + need)).setChunkUsed c true) .. :=
    cut_used_shape (shape.counted ..) sizes tile notFirst positive
  have second : Function.update (Tiling.split tiles c need (rest + 1) false false) c
      (some (need, true)) (c + need) = some (rest + 1, false) := by
    rw [Function.update_of_ne (by omega)]
    exact (Tiling.split_eq_some positive).mpr (.inr (.inl ⟨rfl, rfl, rfl⟩))
  have counted : (h.chunkSize c - need) * chunkUnit = 8 * (rest + 1) := by
    rw [represented.chunkSize tile, chunkUnit]
    omega
  rw [ZHeap.shrinkChunk, counted]
  exact freeChunk_edits marked sizes second

theorem shrinkChunk_shape {c size need : Nat} (shape : Shape h base last tiles ∅)
    (sizes : Sizes last) (tile : tiles c = some (size, true)) (notFirst : c ≠ 0)
    (positive : 0 < need) (less : need < size)
    : ∃ tiles',
        Shape (h.shrinkChunk c need) base last tiles' ∅
        ∧ usedSizes tiles' = Function.update (usedSizes tiles) c (some need) := by
  obtain ⟨rest, rfl⟩ := Nat.exists_eq_add_of_lt less
  have tile : tiles c = some (need + (rest + 1), true) := tile
  have edited := shrinkChunk_edits shape sizes tile notFirst positive
  generalize h.shrinkChunk c need = shrunk at edited ⊢
  obtain ⟨tiles', edits⟩ := edited
  refine ⟨tiles', edits.shape sizes ?_, ?_⟩
  · exact cut_used_shape (shape.counted ..) sizes tile notFirst positive
  · obtain ⟨lists, shape⟩ := shape
    have interior : tiles (c + need) = none := shape.plan.tiling.apart tile (by omega) (by omega)
    rw [edits.used, usedSizes_mark, usedSizes_split interior, Function.update_idem, if_pos rfl]

theorem growChunk_edits {c size size' added : Nat} (shape : Shape h base last tiles ∅)
    (sizes : Sizes last) (tile : tiles c = some (size, true))
    (next : tiles (c + size) = some (size', false)) (positive : 0 < added) (fits : added ≤ size')
    : ∃ trimmed tiles',
        Edits base last ⟨h.increaseAllocatedBytes (8 * added), tiles, ∅⟩
          ⟨trimmed, tiles', {c + size}⟩
        ∧ tiles' (c + size) = some (added, false)
        ∧ h.growChunk c (c + size) (size + added)
          = (trimmed.mergeChunks c (c + size)).setChunkUsed c true := by
  obtain ⟨lists, represented⟩ := id shape
  have right : RightTaken tiles (c + size) size' :=
    (represented.plan.taken next (Set.notMem_empty _)).1 (Set.notMem_empty _)
  have counted : (size + added - h.chunkSize c) * chunkUnit = 8 * added := by
    rw [represented.chunkSize tile, chunkUnit]
    omega
  rw [ZHeap.growChunk, counted, represented.chunkSize tile, Nat.add_sub_cancel_left]
  have start : Represents (h.increaseAllocatedBytes (8 * added)) base last tiles lists ∅ :=
    represented.counted ..
  generalize h.increaseAllocatedBytes (8 * added) = counted at start ⊢
  have unlisted : Edit base last ⟨counted, tiles, ∅⟩ _ :=
    .unlist start next (Set.notMem_empty _)
  rw [insert_empty_eq] at unlisted
  have removed : Shape (counted.freeListRemove (c + size)) base last tiles {c + size} :=
    unlisted.shape sizes
  obtain ⟨tiles₂, trimmed, next₂⟩ := trimSuffix_edits removed sizes next right positive fits
  refine ⟨_, tiles₂, .head unlisted trimmed, next₂, ?_⟩
  -- the code's test for a remainder is the one of the trimming
  have test : (added < (counted.freeListRemove (c + size)).chunkSize (c + size))
      = (c + size + added < (counted.freeListRemove (c + size)).rightChunk (c + size)) := by
    rw [ZHeap.rightChunk]
    exact propext ⟨fun _ => by omega, fun _ => by omega⟩
  simp only [test]
  rfl

/-- The loose chunk right of the used chunk `c` is joined to it. -/
theorem joined_used_shape {c size added : Nat} (shape : Shape h base last tiles {c + size})
    (sizes : Sizes last) (tile : tiles c = some (size, true)) (notFirst : c ≠ 0)
    (next : tiles (c + size) = some (added, false))
    : Shape ((h.mergeChunks c (c + size)).setChunkUsed c true) base last
        (Function.update (Tiling.merge tiles c size added false) c (some (size + added, true)))
        ∅ := by
  obtain ⟨lists, shape⟩ := shape
  have merged := shape.mergeChunks sizes tile next notFirst (.inl rfl) (.inr rfl)
  have loose : insert c (({c + size} : Set Nat) \ {c + size}) = {c} := by
    grind
  rw [loose] at merged
  have whole : Tiling.merge tiles c size added false c = some (size + added, false) :=
    Tiling.merge_eq_some.mpr (.inl ⟨rfl, rfl, rfl⟩)
  exact marked_used_shape ⟨lists, merged⟩ sizes whole

theorem growChunk_shape {c size size' need : Nat} (shape : Shape h base last tiles ∅)
    (sizes : Sizes last) (tile : tiles c = some (size, true)) (notFirst : c ≠ 0)
    (next : tiles (c + size) = some (size', false)) (more : size < need)
    (fits : need ≤ size + size')
    : ∃ tiles',
        Shape (h.growChunk c (c + size) need) base last tiles' ∅
        ∧ usedSizes tiles' = Function.update (usedSizes tiles) c (some need) := by
  obtain ⟨added, rfl⟩ := Nat.exists_eq_add_of_le (Nat.le_of_lt more)
  obtain ⟨trimmed, tiles₂, edits, next₂, grown⟩ :=
    growChunk_edits shape sizes tile next (show 0 < added by omega) (by omega)
  have shape₂ : Shape trimmed base last tiles₂ {c + size} :=
    edits.shape sizes (shape.counted ..)
  have used₂ : usedSizes tiles₂ = usedSizes tiles := edits.used
  have tile₂ : tiles₂ c = some (size, true) := by
    rw [← usedSizes_eq_some, used₂, usedSizes_eq_some]
    exact tile
  rw [grown]
  refine ⟨_, joined_used_shape shape₂ sizes tile₂ notFirst next₂, ?_⟩
  rw [usedSizes_mark, usedSizes_merge, Function.update_idem, used₂,
    update_none (usedSizes_free next), if_pos rfl]

/-! ### Moving -/

/-- The bytes of the old block, as far as there are so many, are copied to the new one. -/
def copied (h : ZHeap) (base last size : Nat) (c mem mem' bytes : Nat) : ZHeap :=
  { h with
    memory := copyBytes h.memory (mem' - base) (mem - base)
      (min (chunkszToBytes last size - (mem - (base + 8 * c + chunkHeaderBytes last))) bytes) }

/-- A block beside the used chunk `c` is granted and filled. -/
structure Filled (base last : Nat) (tiles : Tiles Bool) (c size : Nat) (h : ZHeap)
    (tiles' : Tiles Bool) (c' size' : Nat) : Prop where
  shape : Shape h base last tiles' ∅
  old : tiles' c = some (size, true)
  new : tiles' c' = some (size', true)
  used : usedSizes tiles' = Function.update (usedSizes tiles) c' (some size')
  fresh : usedSizes tiles c' = none
  apart : c ≠ c'
  notFirst : c' ≠ 0

theorem CutOut.filled {h₁ : ZHeap} {c size mem mem' bytes : Nat}
    (cutOut : CutOut base last h tiles bytes h₁ mem') (shape : Shape h base last tiles ∅)
    (sizes : Sizes last) (tile : tiles c = some (size, true))
    : ∃ tiles' c' size',
        Filled base last tiles c size (copied h₁ base last size c mem mem' bytes) tiles' c' size'
        ∧ Within base last mem' bytes c' size'
        ∧ Shape h₁ base last tiles' ∅ := by
  obtain ⟨tiles₁, c', size', shape₁, used₁, fresh, notFirst', within'⟩ :=
    cutOut.granted shape sizes
  have distinct : c ≠ c' := by
    rintro rfl
    rw [usedSizes_eq_some.mpr tile] at fresh
    cases fresh
  have tile' : tiles₁ c' = some (size', true) := by
    rw [← usedSizes_eq_some, used₁, Function.update_self]
  have tile₁ : tiles₁ c = some (size, true) := by
    rw [← usedSizes_eq_some, used₁, Function.update_of_ne distinct, usedSizes_eq_some]
    exact tile
  refine ⟨tiles₁, c', size', ⟨?_, tile₁, tile', used₁, fresh, distinct, notFirst'⟩, within', shape₁⟩
  refine payload_shape _ shape₁ sizes tile' notFirst' ?_
  intro place outside
  have above := within'.above
  have below := within'.below
  rw [copyBytes, if_neg (by omega)]

/-! ### The ways of a resize -/

/-- The ways that a resize of the block at `mem` in chunk `c` of `size` units can take. -/
inductive Route (base last : Nat) (h : ZHeap) (tiles : Tiles Bool) (c size mem bytes : Nat)
    (aligned : Nat → Prop) : ZHeap × Option Nat → Prop
  | refused {after : ZHeap} (edits : Edits base last ⟨h, tiles, ∅⟩ ⟨after, tiles, ∅⟩)
      : Route base last h tiles c size mem bytes aligned (after, none)
  | kept (within : Within base last mem bytes c size) (isAligned : aligned mem)
      : Route base last h tiles c size mem bytes aligned (h, some mem)
  | shrunk {after : ZHeap} {need : Nat} (positive : 0 < need) (less : need < size)
      (within : Within base last mem bytes c need) (isAligned : aligned mem)
      (cut : after = h.shrinkChunk c need)
      : Route base last h tiles c size mem bytes aligned (after, some mem)
  | grown {after : ZHeap} {need size' : Nat} (next : tiles (c + size) = some (size', false))
      (more : size < need) (fits : need ≤ size + size')
      (within : Within base last mem bytes c need) (isAligned : aligned mem)
      (joined : after = h.growChunk c (c + size) need)
      : Route base last h tiles c size mem bytes aligned (after, some mem)
  | moved {h₁ after : ZHeap} {mem' : Nat}
      (cutOut : CutOut base last h tiles bytes h₁ mem') (isAligned : aligned mem')
      (freed : after = (copied h₁ base last size c mem mem' bytes).sysHeapFree (some mem))
      : Route base last h tiles c size mem bytes aligned (after, some mem')

/-- The answer to a resize of the block in chunk `c`: nothing has changed but the order of the
lists, or the block has given way to one of the new size.
-/
def Resized (base last : Nat) (tiles : Tiles Bool) (c bytes : Nat) (aligned : Nat → Prop)
    : ZHeap × Option Nat → Prop
  | (h, none) => Shape h base last tiles ∅
  | (h, some mem) =>
      Granted base last (Function.update (usedSizes tiles) c none) bytes h mem ∧ aligned mem

theorem resized_in_place {tiles' : Tiles Bool} {mem bytes c need : Nat} {aligned : Nat → Prop}
    (shape : Shape h base last tiles' ∅)
    (used : usedSizes tiles' = Function.update (usedSizes tiles) c (some need))
    (notFirst : c ≠ 0) (within : Within base last mem bytes c need) (isAligned : aligned mem)
    : Resized base last tiles c bytes aligned (h, some mem) := by
  refine ⟨⟨tiles', c, need, shape, ?_, Function.update_self .., notFirst, within⟩, isAligned⟩
  rw [used, Function.update_idem]

theorem Route.resized {c size mem oldBytes bytes : Nat} {aligned : Nat → Prop}
    {answer : ZHeap × Option Nat}
    (route : Route base last h tiles c size mem bytes aligned answer)
    (shape : Shape h base last tiles ∅) (sizes : Sizes last)
    (tile : tiles c = some (size, true)) (notFirst : c ≠ 0)
    (within : Within base last mem oldBytes c size)
    : Resized base last tiles c bytes aligned answer := by
  cases route with
  | refused edits => exact edits.shape sizes shape
  | kept within isAligned =>
      refine resized_in_place shape ?_ notFirst within isAligned
      rw [← usedSizes_eq_some.mpr tile, Function.update_eq_self]
  | shrunk positive less within isAligned cut =>
      obtain ⟨tiles', shrunk, used⟩ := shrinkChunk_shape shape sizes tile notFirst positive less
      rw [← cut] at shrunk
      exact resized_in_place shrunk used notFirst within isAligned
  | grown next more fits within isAligned joined =>
      obtain ⟨tiles', grown, used⟩ := growChunk_shape shape sizes tile notFirst next more fits
      rw [← joined] at grown
      exact resized_in_place grown used notFirst within isAligned
  | moved cutOut isAligned freed =>
      obtain ⟨tiles₁, c', size', filled, within', -⟩ := cutOut.filled shape sizes tile
      obtain ⟨lists, represented⟩ := id filled.shape
      have chunk := memToChunkid_eq represented.base represented.endChunk mem
      rw [within.chunk] at chunk
      obtain ⟨tiles₃, shape₃, used₃⟩ :=
        (sysHeapFree_released filled.shape sizes filled.old notFirst chunk).shape filled.shape
          sizes filled.old notFirst
      rw [freed]
      refine ⟨⟨tiles₃, c', size', shape₃, ?_, ?_, filled.notFirst, within'⟩, isAligned⟩
      · rw [used₃, filled.used, Function.update_comm filled.apart.symm]
      · rw [Function.update_of_ne filled.apart.symm, filled.fresh]

theorem moveBlock_route {mem c size align bytes : Nat} (sizes : Sizes last)
    (shape : Shape h base last tiles ∅) (aligned : 8 ∣ base)
    (tile : tiles c = some (size, true)) (accepted : AlignAccepted align)
    (inRange : AlignedInRange last align bytes)
    : Route base last h tiles c size mem bytes (AlignedTo align)
        (h.moveBlock mem c (mem - (base + 8 * c + chunkHeaderBytes last)) align bytes) := by
  have answered := sysHeapAlignedAlloc_answered sizes shape aligned accepted inRange
  rw [ZHeap.moveBlock]
  generalize h.sysHeapAlignedAlloc align bytes = moved at answered ⊢
  obtain ⟨h₁, result⟩ := moved
  cases result with
  | none => exact .refused answered
  | some mem' =>
      obtain ⟨cutOut, isAligned⟩ := answered
      obtain ⟨tiles₁, c', size', shape₁, used₁, fresh, -, -⟩ := cutOut.granted shape sizes
      obtain ⟨lists₁, represented⟩ := shape₁
      have tile₁ : tiles₁ c = some (size, true) := by
        have distinct : c ≠ c' := by
          rintro rfl
          rw [usedSizes_eq_some.mpr tile] at fresh
          cases fresh
        rw [← usedSizes_eq_some, used₁, Function.update_of_ne distinct, usedSizes_eq_some]
        exact tile
      refine .moved cutOut isAligned ?_
      simp only [copied, represented.base, represented.endChunk, represented.chunkSize tile₁]

/-! ### Reallocation -/

theorem alignAccepted_of_single {align : Nat} (small : align < 2 ^ 32)
    (single : align &&& (align - 1) = 0)
    : AlignAccepted align ∧ alignment align = align ∧ rewindBytes align = 0 := by
  have whole : ZHeap.rewind align = align := by
    by_cases zero : align = 0
    · rw [zero]
      rfl
    · obtain ⟨k, rfl⟩ := exists_two_pow zero single
      have power := rewind_eq (q := 0) (j := k) (by simpa using small)
      simpa using power
  have same : alignment align = align := by rw [alignment, if_neg (by simp [whole])]
  refine ⟨⟨small, by rw [same]; exact single⟩, same, ?_⟩
  rw [rewindBytes, if_neg (by simp [whole])]

theorem aligned_of_not_misaligned {mem align : Nat} (small : align < 2 ^ 32)
    (single : align &&& (align - 1) = 0) (fine : ¬ZHeap.misaligned mem align = true)
    : AlignedTo align mem := by
  obtain ⟨-, same, noRewind⟩ := alignAccepted_of_single small single
  rw [AlignedTo, same, noRewind, Nat.add_zero]
  by_cases zero : align = 0
  · exact .inl zero
  · refine .inr ?_
    obtain ⟨k, rfl⟩ := exists_two_pow zero single
    simp only [ZHeap.misaligned, ne_eq, zero, not_false_eq_true, true_and, decide_eq_true_eq,
      not_not] at fine
    rw [Nat.and_two_pow_sub_one_eq_mod] at fine
    exact Nat.dvd_of_mod_eq_zero fine

/-- The sizes that a resize computes are counted without wrapping around, and it allocates only
from buckets that exist.
-/
def ResizeInRange (h : ZHeap) (mem align bytes : Nat) : Prop :=
  bytes + (mem - h.chunkMem (h.memToChunkid mem)) + 15 < 2 ^ 32
  ∧ (h.resizeMoves mem align bytes = true → AlignedInRange h.endChunk align bytes)

instance (h : ZHeap) (mem align bytes : Nat) : Decidable (ResizeInRange h mem align bytes) :=
  inferInstanceAs (Decidable (_ ∧ (_ → _)))

theorem resize_route {mem c size oldBytes align bytes : Nat} (sizes : Sizes last)
    (shape : Shape h base last tiles ∅) (aligned : 8 ∣ base)
    (tile : tiles c = some (size, true))
    (within : Within base last mem oldBytes c size) (small : align < 2 ^ 32)
    (single : align &&& (align - 1) = 0)
    (inRange : ResizeInRange h mem align bytes)
    : Route base last h tiles c size mem bytes (AlignedTo align) (h.resize mem align bytes) := by
  obtain ⟨lists, represented⟩ := id shape
  have accepted := (alignAccepted_of_single small single).1
  have scale := minChunkSize_cases last
  have header := chunkHeaderBytes_eq last
  have chunk : h.memToChunkid mem = c := by
    rw [memToChunkid_eq represented.base represented.endChunk, within.chunk]
  have start : h.chunkMem c = base + 8 * c + chunkHeaderBytes last := by
    rw [ZHeap.chunkMem, represented.base, represented.endChunk, chunkUnit]
  obtain ⟨noWrap, moves⟩ := inRange
  rw [ZHeap.resizeMoves, chunk, start, represented.endChunk, represented.rightChunk tile,
    represented.chunkSize tile] at moves
  rw [chunk, start] at noWrap
  rw [ZHeap.resize, chunk, start, represented.endChunk, represented.rightChunk tile,
    represented.chunkSize tile]
  have above := within.above
  have need : bytesToChunksz last (bytes + (mem - (base + 8 * c + chunkHeaderBytes last)))
      = (4 * minChunkSize last + (bytes + (mem - (base + 8 * c + chunkHeaderBytes last))) + 7) / 8 :=
    bytesToChunksz_eq noWrap
  generalize bytesToChunksz last (bytes + (mem - (base + 8 * c + chunkHeaderBytes last)))
    = chunksNeed at need moves ⊢
  have placed : Within base last mem bytes c chunksNeed := ⟨within.chunk, above, by omega⟩
  by_cases bad : ZHeap.misaligned mem align = true
  · rw [if_pos bad]
    exact moveBlock_route sizes shape aligned tile accepted (moves (by rw [bad, Bool.true_or]))
  · rw [if_neg bad]
    have isAligned := aligned_of_not_misaligned small single bad
    by_cases exact_ : size = chunksNeed
    · rw [if_pos exact_]
      exact .kept (exact_ ▸ placed) isAligned
    · rw [if_neg exact_]
      by_cases less : chunksNeed < size
      · rw [if_pos less]
        exact .shrunk (by omega) less placed isAligned rfl
      · rw [if_neg less]
        by_cases room : !h.chunkUsed (c + size) ∧ chunksNeed ≤ size + h.chunkSize (c + size)
        · rw [if_pos room]
          obtain ⟨free, fits⟩ := room
          rcases represented.plan.right_cases tile with isLast | ⟨size', used, next⟩
          · rw [isLast, represented.chunkUsed_marker] at free
            cases free
          · rw [represented.chunkUsed next] at free
            obtain rfl : used = false := by simpa using free
            rw [represented.chunkSize next] at fits
            exact .grown next (by omega) fits placed isAligned rfl
        · rw [if_neg room]
          refine moveBlock_route sizes shape aligned tile accepted (moves ?_)
          have more : size < chunksNeed := by omega
          rw [not_and_or, Bool.not_eq_true', Bool.not_eq_false, not_le] at room
          simpa [bad, more] using room

end Zephyr.Heap
