import Zephyr.Heap.Layout

/-! Marking, splitting and merging chunks: writes to headers only. -/

namespace Zephyr.Heap

open Library

variable {h : ZHeap} {base last : Nat} {tiles : Tiles Bool} {lists : Nat → List Nat}
  {loose : Set Nat}

/-! ### Writes to headers -/

theorem Buckets.setHeader (sizes : Sizes last) (endChunk : h.endChunk = last)
    (buckets : Buckets h last lists) {c val : Nat} {f : ChunkFields} (header : f.index < 2)
    (behind : chunk0Size last ≤ c)
    (clear : ∀ {i x}, x ∈ lists i → x + minChunkSize last ≤ c ∨ c ≤ x)
    : Buckets (h.chunkSet c f val) last lists := by
  have chunk0 := sizes.chunk0
  have placed : ZHeap.Placed c f := .inr (by omega)
  have links : ∀ {i x} (g : ChunkFields), 2 ≤ g.index → x ∈ lists i
      → (h.chunkSet c f val).chunkField x g = h.chunkField x g := by
    intro i x g link member
    refine ZHeap.chunkField_chunkSet_of_ne placed (ZHeap.fieldAddress_ne_of_link header link ?_)
    rw [endChunk]
    exact clear member
  refine ⟨?_, ?_, ?_⟩
  · intro i inRange
    rw [ZHeap.bucketNext_chunkSet (by omega), buckets.heads inRange]
  · intro i
    exact buckets.rings.congr (fun node member => links .freeNext (by decide) member)
      (fun node member => links .freePrev (by decide) member)
  · intro i
    rw [ZHeap.availBuckets_chunkSet placed, buckets.avail]

/-- `after` is the heap `h` with header fields written at some of the units from `low` to
`high`; its fields are the given ones.
-/
structure Reheaded (h : ZHeap) (last low high : Nat) (after : ZHeap)
    (sizeField leftField : Nat → Nat) : Prop where
  base : after.base = h.base
  endChunk : after.endChunk = last
  sizeField : after.sizeField = sizeField
  leftField : after.leftField = leftField
  buckets
    : ∀ {lists : Nat → List Nat},
        (∀ {place}, low ≤ place → place ≤ high → ∀ {i x}, x ∈ lists i
          → x + minChunkSize last ≤ place ∨ place ≤ x)
        → Buckets h last lists
        → Buckets after last lists

namespace Reheaded

variable {low high : Nat} {after : ZHeap} {sizeField leftField : Nat → Nat}

theorem refl (endChunk : h.endChunk = last)
    : Reheaded h last low high h h.sizeField h.leftField :=
  ⟨rfl, endChunk, rfl, rfl, fun _ buckets => buckets⟩

theorem setSize (written : Reheaded h last low high after sizeField leftField)
    (sizes : Sizes last) (behind : chunk0Size last ≤ low) (c value : Nat) (lower : low ≤ c)
    (upper : c ≤ high) (fits : value ≤ 2 * last + 1)
    : Reheaded h last low high (after.chunkSet c .sizeAndUsed value)
        (Function.update sizeField c value) leftField := by
  have chunk0 := sizes.chunk0
  have placed : ZHeap.Placed c .sizeAndUsed := .inr (by omega)
  refine ⟨?_, ?_, ?_, ?_, fun clear buckets => ?_⟩
  · rw [ZHeap.base_chunkSet, written.base]
  · rw [ZHeap.endChunk_chunkSet placed, written.endChunk]
  · rw [ZHeap.sizeField_setSize placed (written.endChunk ▸ sizes.fits fits), written.sizeField]
  · rw [ZHeap.leftField_setSize placed, written.leftField]
  · exact (written.buckets clear buckets).setHeader sizes written.endChunk (by decide) (by omega)
      (clear lower upper)

theorem setLeft (written : Reheaded h last low high after sizeField leftField)
    (sizes : Sizes last) (behind : chunk0Size last ≤ low) (c value : Nat) (lower : low ≤ c)
    (upper : c ≤ high) (fits : value ≤ 2 * last + 1)
    : Reheaded h last low high (after.chunkSet c .leftSize value) sizeField
        (Function.update leftField c value) := by
  have chunk0 := sizes.chunk0
  have placed : ZHeap.Placed c .leftSize := .inr (by omega)
  refine ⟨?_, ?_, ?_, ?_, fun clear buckets => ?_⟩
  · rw [ZHeap.base_chunkSet, written.base]
  · rw [ZHeap.endChunk_chunkSet placed, written.endChunk]
  · rw [ZHeap.sizeField_setLeft placed, written.sizeField]
  · rw [ZHeap.leftField_setLeft placed (written.endChunk ▸ sizes.fits fits), written.leftField]
  · exact (written.buckets clear buckets).setHeader sizes written.endChunk (by decide) (by omega)
      (clear lower upper)

theorem chunkSize (written : Reheaded h last low high after sizeField leftField) (c : Nat)
    : after.chunkSize c = sizeField c / 2 := by
  rw [← written.sizeField]
  rfl

end Reheaded

theorem splitChunks_eq (sizes : Sizes last) (endChunk : h.endChunk = last)
    {lc first second : Nat} (sized : h.chunkSize lc = first + second)
    (behind : chunk0Size last ≤ lc) (within : lc + (first + second) ≤ last)
    : h.splitChunks lc (lc + first)
      = (((h.chunkSet lc .sizeAndUsed (2 * first)).chunkSet (lc + first) .sizeAndUsed
          (2 * second)).chunkSet (lc + first) .leftSize first).chunkSet (lc + first + second)
          .leftSize second := by
  have left := (Reheaded.refl endChunk).setSize sizes behind lc (2 * first) (Nat.le_refl _)
    (show lc ≤ lc + (first + second) by omega) (by omega)
  have right := left.setSize sizes behind (lc + first) (2 * second) (by omega) (by omega)
    (by omega)
  have cut := right.setLeft sizes behind (lc + first) first (by omega) (by omega) (by omega)
  have next := cut.chunkSize (lc + first)
  rw [Function.update_self, Nat.mul_div_cancel_left second (by decide)] at next
  simp only [ZHeap.splitChunks, sized, Nat.add_sub_cancel_left, ZHeap.setChunkSize,
    ZHeap.setLeftChunkSize, ZHeap.rightChunk, next]

theorem splitChunks_reheaded (sizes : Sizes last) (endChunk : h.endChunk = last)
    {lc first second : Nat} (sized : h.chunkSize lc = first + second)
    (behind : chunk0Size last ≤ lc) (within : lc + (first + second) ≤ last)
    : Reheaded h last lc (lc + (first + second)) (h.splitChunks lc (lc + first))
        (Function.update (Function.update h.sizeField lc (2 * first)) (lc + first) (2 * second))
        (Function.update (Function.update h.leftField (lc + first) first)
          (lc + first + second) second) := by
  have left := (Reheaded.refl endChunk).setSize sizes behind lc (2 * first) (Nat.le_refl _)
    (show lc ≤ lc + (first + second) by omega) (by omega)
  have right := left.setSize sizes behind (lc + first) (2 * second) (by omega) (by omega)
    (by omega)
  have cut := right.setLeft sizes behind (lc + first) first (by omega) (by omega) (by omega)
  rw [splitChunks_eq sizes endChunk sized behind within]
  exact cut.setLeft sizes behind (lc + first + second) second (by omega) (by omega) (by omega)

theorem mergeChunks_eq (sizes : Sizes last) (endChunk : h.endChunk = last)
    {lc first second : Nat} (sized : h.chunkSize lc = first)
    (sized' : h.chunkSize (lc + first) = second) (positive : 0 < first)
    (behind : chunk0Size last ≤ lc) (within : lc + (first + second) ≤ last)
    : h.mergeChunks lc (lc + first)
      = (h.chunkSet lc .sizeAndUsed (2 * (first + second))).chunkSet (lc + first + second)
          .leftSize (first + second) := by
  have left := (Reheaded.refl endChunk).setSize sizes behind lc (2 * (first + second))
    (Nat.le_refl _) (show lc ≤ lc + (first + second) by omega) (by omega)
  have next := left.chunkSize (lc + first)
  have kept : h.sizeField (lc + first) / 2 = second := sized'
  rw [Function.update_of_ne (by omega), kept] at next
  simp only [ZHeap.mergeChunks, sized, sized', ZHeap.setChunkSize, ZHeap.setLeftChunkSize,
    ZHeap.rightChunk, next]

theorem mergeChunks_reheaded (sizes : Sizes last) (endChunk : h.endChunk = last)
    {lc first second : Nat} (sized : h.chunkSize lc = first)
    (sized' : h.chunkSize (lc + first) = second) (positive : 0 < first)
    (behind : chunk0Size last ≤ lc) (within : lc + (first + second) ≤ last)
    : Reheaded h last lc (lc + (first + second)) (h.mergeChunks lc (lc + first))
        (Function.update h.sizeField lc (2 * (first + second)))
        (Function.update h.leftField (lc + first + second) (first + second)) := by
  have left := (Reheaded.refl endChunk).setSize sizes behind lc (2 * (first + second))
    (Nat.le_refl _) (show lc ≤ lc + (first + second) by omega) (by omega)
  rw [mergeChunks_eq sizes endChunk sized sized' positive behind within]
  exact left.setLeft sizes behind (lc + first + second) (first + second) (by omega) (by omega)
    (by omega)

theorem setChunkUsed_reheaded (sizes : Sizes last) (endChunk : h.endChunk = last)
    {c size : Nat} (sized : h.chunkSize c = size) (behind : chunk0Size last ≤ c)
    (within : size ≤ last) (used : Bool)
    : Reheaded h last c c (h.setChunkUsed c used)
        (Function.update h.sizeField c (2 * size + used.toNat)) h.leftField := by
  have marked := (Reheaded.refl endChunk).setSize sizes behind c (2 * size + used.toNat)
    (Nat.le_refl _) (Nat.le_refl _) (by have := used.toNat_le; omega)
  rw [ZHeap.setChunkUsed, sized]
  exact marked

/-! ### The headers of the new chunks -/

namespace Headers

variable {sizeField leftField : Nat → Nat}

theorem split (headers : Headers sizeField leftField last tiles) (tiling : Tiling last tiles)
    {lc first second : Nat} {old : Bool} (tile : tiles lc = some (first + second, old))
    (positive : 0 < first) (rest : 0 < second) (notFirst : lc ≠ 0)
    : Headers
        (Function.update (Function.update sizeField lc (2 * first)) (lc + first) (2 * second))
        (Function.update (Function.update leftField (lc + first) first)
          (lc + first + second) second)
        last (Tiling.split tiles lc first second false false) := by
  have within := tiling.inside tile
  refine ⟨?_, ?_, ?_, ?_⟩
  · rw [Function.update_of_ne (by omega), Function.update_of_ne (by omega), headers.origin]
  · rw [Function.update_of_ne (by omega), Function.update_of_ne (by omega), headers.marker]
  · intro d size used found
    rcases (Tiling.split_eq_some positive).mp found
      with ⟨rfl, rfl, rfl⟩ | ⟨rfl, rfl, rfl⟩ | ⟨notLeft, notRight, found⟩
    · rw [Function.update_of_ne (by omega), Function.update_self]
      rfl
    · rw [Function.update_self]
      rfl
    · rw [Function.update_of_ne notRight, Function.update_of_ne notLeft, headers.size found]
  · intro d size used found
    rcases (Tiling.split_eq_some positive).mp found
      with ⟨rfl, rfl, rfl⟩ | ⟨rfl, rfl, rfl⟩ | ⟨notLeft, notRight, found⟩
    · rw [Function.update_of_ne (by omega), Function.update_self]
    · rw [Function.update_self]
    · -- another chunk ends neither inside the old chunk nor where it ends
      have apart := tiling.disjoint found tile notLeft
      have inside := tiling.inside found
      rw [Function.update_of_ne (by omega), Function.update_of_ne (by omega), headers.left found]

theorem merge (headers : Headers sizeField leftField last tiles) (tiling : Tiling last tiles)
    {lc first second : Nat} {old old' : Bool} (tile : tiles lc = some (first, old))
    (neighbour : tiles (lc + first) = some (second, old')) (notFirst : lc ≠ 0)
    : Headers (Function.update sizeField lc (2 * (first + second)))
        (Function.update leftField (lc + first + second) (first + second)) last
        (Tiling.merge tiles lc first second false) := by
  have within := tiling.inside tile
  have within' := tiling.inside neighbour
  refine ⟨?_, ?_, ?_, ?_⟩
  · rw [Function.update_of_ne (by omega), headers.origin]
  · rw [Function.update_of_ne (by omega), headers.marker]
  · intro d size used found
    rcases Tiling.merge_eq_some.mp found with ⟨rfl, rfl, rfl⟩ | ⟨notLeft, notRight, found⟩
    · rw [Function.update_self]
      rfl
    · rw [Function.update_of_ne notLeft, headers.size found]
  · intro d size used found
    rcases Tiling.merge_eq_some.mp found with ⟨rfl, rfl, rfl⟩ | ⟨notLeft, notRight, found⟩
    · rw [← Nat.add_assoc, Function.update_self]
    · have apart : d + size ≠ lc + first + second :=
        fun same => notRight (tiling.left_unique found neighbour same)
      rw [Function.update_of_ne apart, headers.left found]

theorem mark (headers : Headers sizeField leftField last tiles) (tiling : Tiling last tiles)
    {c size : Nat} {old : Bool} (tile : tiles c = some (size, old)) (used : Bool)
    : Headers (Function.update sizeField c (2 * size + used.toNat)) leftField last
        (Function.update tiles c (some (size, used))) := by
  have within := tiling.inside tile
  refine ⟨headers.origin, ?_, ?_, ?_⟩
  · rw [Function.update_of_ne (by omega), headers.marker]
  · intro d size' used' found
    by_cases same : d = c
    · subst same
      rw [Function.update_self] at found ⊢
      cases found
      rfl
    · rw [Function.update_of_ne same] at found ⊢
      exact headers.size found
  · intro d size' used' found
    by_cases same : d = c
    · subst same
      rw [Function.update_self] at found
      cases found
      exact headers.left tile
    · rw [Function.update_of_ne same] at found
      exact headers.left found

end Headers

/-! ### The operations -/

theorem Plan.retile (plan : Plan last tiles lists loose) {tiles' : Tiles Bool}
    {loose' : Set Nat} (tiling : Tiling last tiles')
    (first : tiles' 0 = some (chunk0Size last, true))
    (same
      : ∀ {c size},
          (c ∉ loose ∧ tiles c = some (size, false))
          ↔ (c ∉ loose' ∧ tiles' c = some (size, false)))
    : Plan last tiles' lists loose' := by
  refine ⟨tiling, first, ?_, plan.nodup, ?_⟩
  · intro i c
    rw [plan.members, ← exists_and_left, ← exists_and_left]
    refine exists_congr fun size => ?_
    rw [← and_assoc, same, and_assoc]
  · intro c size size' tile tile'
    by_contra tight
    obtain ⟨tight, tight'⟩ := not_or.mp tight
    rcases plan.coalesced (same.mpr ⟨tight, tile⟩).2 (same.mpr ⟨tight', tile'⟩).2
      with inLoose | inLoose
    · exact (same.mpr ⟨tight, tile⟩).1 inLoose
    · exact (same.mpr ⟨tight', tile'⟩).1 inLoose

theorem Plan.unlisted (plan : Plan last tiles lists loose) {c size : Nat} {used : Bool}
    (tile : tiles c = some (size, used)) (held : used = true ∨ c ∈ loose) {i : Nat}
    : c ∉ lists i := by
  intro member
  obtain ⟨notLoose, size', found, -, -⟩ := plan.members.mp member
  rw [tile] at found
  cases found
  rcases held with isTrue | inLoose
  · cases isTrue
  · exact notLoose inLoose

namespace Represents

theorem reheaded (shape : Represents h base last tiles lists loose) {low high : Nat}
    {after : ZHeap} {sizeField leftField : Nat → Nat} {tiles' : Tiles Bool} {loose' : Set Nat}
    (written : Reheaded h last low high after sizeField leftField)
    (clear
      : ∀ {place}, low ≤ place → place ≤ high → ∀ {i x}, x ∈ lists i
        → x + minChunkSize last ≤ place ∨ place ≤ x)
    (headers : Headers sizeField leftField last tiles') (plan : Plan last tiles' lists loose')
    : Represents after base last tiles' lists loose' :=
  ⟨written.base.trans shape.base, written.endChunk,
    by rw [written.sizeField, written.leftField]; exact headers,
    written.buckets clear shape.buckets, plan⟩

theorem setChunkUsed (shape : Represents h base last tiles lists loose) (sizes : Sizes last)
    {c size : Nat} {old : Bool} (tile : tiles c = some (size, old)) (notFirst : c ≠ 0)
    (held : old = true ∨ c ∈ loose) (used : Bool)
    : Represents (h.setChunkUsed c used) base last
        (Function.update tiles c (some (size, used))) lists
        (if used then loose \ {c} else insert c loose) := by
  have within := shape.plan.tiling.inside tile
  refine shape.reheaded
    (setChunkUsed_reheaded sizes shape.endChunk (shape.chunkSize tile)
      (shape.plan.behind tile notFirst) (by omega) used) ?_
    (shape.headers.mark shape.plan.tiling tile used) ?_
  · intro place lower upper i x member
    exact shape.plan.clear member tile (shape.plan.unlisted tile held) lower (by omega)
  · refine shape.plan.retile (shape.plan.tiling.relabel tile used) ?_ ?_
    · rw [Function.update_of_ne (Ne.symm notFirst), shape.plan.first]
    · intro d size'
      by_cases same : d = c
      · subst same
        rw [tile, Function.update_self]
        cases used <;> rcases held with rfl | inLoose <;> simp_all
      · rw [Function.update_of_ne same]
        cases used <;> simp [same]

theorem splitChunks (shape : Represents h base last tiles lists loose) (sizes : Sizes last)
    {lc first second : Nat} {old : Bool} (tile : tiles lc = some (first + second, old))
    (notFirst : lc ≠ 0) (held : old = true ∨ lc ∈ loose) (positive : 0 < first)
    (rest : 0 < second)
    : Represents (h.splitChunks lc (lc + first)) base last
        (Tiling.split tiles lc first second false false) lists
        (insert lc (insert (lc + first) loose)) := by
  have within := shape.plan.tiling.inside tile
  refine shape.reheaded
    (splitChunks_reheaded sizes shape.endChunk (shape.chunkSize tile)
      (shape.plan.behind tile notFirst) within.2) ?_
    (shape.headers.split shape.plan.tiling tile positive rest notFirst) ?_
  · intro place lower upper i x member
    exact shape.plan.clear member tile (shape.plan.unlisted tile held) lower upper
  · refine shape.plan.retile (shape.plan.tiling.tiling_split tile false false positive rest) ?_ ?_
    · exact (Tiling.split_eq_some positive).mpr
        (.inr (.inr ⟨Ne.symm notFirst, by omega, shape.plan.first⟩))
    · intro d size
      rw [Tiling.split_eq_some positive]
      have interior : tiles (lc + first) = none :=
        shape.plan.tiling.apart tile (by omega) (by omega)
      by_cases isLeft : d = lc
      · subst isLeft
        rw [tile]
        rcases held with rfl | inLoose <;> simp_all
      · by_cases isRight : d = lc + first
        · subst isRight
          simp [interior]
        · simp [isLeft, isRight]

theorem mergeChunks (shape : Represents h base last tiles lists loose) (sizes : Sizes last)
    {lc first second : Nat} {old old' : Bool} (tile : tiles lc = some (first, old))
    (neighbour : tiles (lc + first) = some (second, old')) (notFirst : lc ≠ 0)
    (held : old = true ∨ lc ∈ loose) (held' : old' = true ∨ lc + first ∈ loose)
    : Represents (h.mergeChunks lc (lc + first)) base last
        (Tiling.merge tiles lc first second false) lists
        (insert lc (loose \ {lc + first})) := by
  have within := shape.plan.tiling.inside tile
  have within' := shape.plan.tiling.inside neighbour
  refine shape.reheaded
    (mergeChunks_reheaded sizes shape.endChunk (shape.chunkSize tile)
      (shape.chunkSize neighbour) within.1 (shape.plan.behind tile notFirst) (by omega)) ?_
    (shape.headers.merge shape.plan.tiling tile neighbour notFirst) ?_
  · intro place lower upper i x member
    by_cases inLeft : place ≤ lc + first
    · exact shape.plan.clear member tile (shape.plan.unlisted tile held) lower inLeft
    · exact shape.plan.clear member neighbour (shape.plan.unlisted neighbour held') (by omega)
        (by omega)
  · refine shape.plan.retile (shape.plan.tiling.tiling_merge tile neighbour false) ?_ ?_
    · exact Tiling.merge_eq_some.mpr (.inr ⟨Ne.symm notFirst, by omega, shape.plan.first⟩)
    · intro d size
      rw [Tiling.merge_eq_some]
      by_cases isLeft : d = lc
      · subst isLeft
        rw [tile]
        rcases held with rfl | inLoose <;> simp_all
      · by_cases isRight : d = lc + first
        · subst isRight
          rw [neighbour]
          rcases held' with rfl | inLoose <;> simp_all
        · simp [isLeft, isRight]

end Represents

end Zephyr.Heap
