import Zephyr.Heap.Freeing

/-! Finding a free chunk for a request and cutting the block out of it. -/

namespace Zephyr.Heap

open Library

variable {h : ZHeap} {base last : Nat} {tiles : Tiles Bool}

/-! ### Finding a chunk -/

/-- A chunk of at least `sz` units was taken out of its list, or none was. -/
def Found (base last : Nat) (h : ZHeap) (tiles : Tiles Bool) (sz : Nat) (after : ZHeap)
    : Option Nat → Prop
  | none => Edits base last ⟨h, tiles, ∅⟩ ⟨after, tiles, ∅⟩
  | some c =>
      ∃ size,
        tiles c = some (size, false)
        ∧ sz ≤ size
        ∧ Edits base last ⟨h, tiles, ∅⟩ ⟨after, tiles, {c}⟩

theorem Found.after {h' after : ZHeap} {sz : Nat} {found : Option Nat}
    (edits : Edits base last ⟨h, tiles, ∅⟩ ⟨h', tiles, ∅⟩)
    (got : Found base last h' tiles sz after found)
    : Found base last h tiles sz after found := by
  cases found with
  | none => exact edits.trans got
  | some c =>
      obtain ⟨size, tile, large, removed⟩ := got
      exact ⟨size, tile, large, edits.trans removed⟩

/-- A listed chunk is in the bucket of its size, so either way to unlist it is the same. -/
theorem freeListRemove_listed {lists : Nat → List Nat} {loose : Set Nat} {i c : Nat}
    (shape : Represents h base last tiles lists loose) (member : c ∈ lists i)
    : h.freeListRemove c = h.freeListRemoveBidx c i := by
  obtain ⟨size, tile, large, index⟩ := shape.plan.listed member
  have notSolo : ¬ decide (size < minChunkSize last) = true := by simpa using large
  rw [ZHeap.freeListRemove, shape.soloFreeHeader tile, if_neg notSolo, shape.endChunk,
    shape.chunkSize tile, index]

theorem found_of_remove {lists : Nat → List Nat} {i c sz : Nat} {rest : List Nat}
    (shape : Represents h base last tiles lists ∅) (list : lists i = c :: rest)
    (large : ∀ {size}, tiles c = some (size, false) → sz ≤ size)
    : Found base last h tiles sz (h.freeListRemoveBidx c i) (some c) := by
  have member : c ∈ lists i := by simp [list]
  obtain ⟨size, tile, -, -⟩ := shape.plan.listed member
  have removed : Edit base last ⟨h, tiles, ∅⟩ _ := .unlist shape tile (Set.notMem_empty c)
  rw [insert_empty_eq, freeListRemove_listed shape member] at removed
  exact ⟨size, tile, large tile, .single removed⟩

/-- The search in the bucket of the request. Witness: induction over the tries that are left;
a miss rotates the list.
-/
theorem allocScan_found (sizes : Sizes last) (sz bi first loops : Nat)
    {lists : Nat → List Nat} (shape : Represents h base last tiles lists ∅)
    (nonempty : lists bi ≠ [])
    : Found base last h tiles sz (h.allocScan sz bi first loops).1
        (h.allocScan sz bi first loops).2 := by
  induction loops generalizing h lists with
  | zero => exact .refl
  | succ loops ih =>
      obtain ⟨c, rest, list⟩ := List.exists_cons_of_ne_nil nonempty
      have inList : c ∈ lists bi := by simp [list]
      obtain ⟨size, tile, -, -⟩ := shape.plan.listed inList
      have head : h.bucketNext bi = c := by
        rw [shape.buckets.heads (shape.index_lt inList), list]
        rfl
      rw [ZHeap.allocScan, head]
      simp only [shape.chunkSize tile]
      by_cases fits : sz ≤ size
      · rw [if_pos fits]
        have large : ∀ {size'}, tiles c = some (size', false) → sz ≤ size' := by
          intro size' found
          rw [tile] at found
          cases found
          exact fits
        dsimp only
        exact found_of_remove shape list large
      · rw [if_neg fits]
        have turned : Edit base last ⟨h, tiles, ∅⟩ _ := .turn shape list
        have rotated := shape.rotate sizes list
        split
        · exact .single turned
        · refine .after (.single turned) (ih rotated ?_)
          rw [Function.update_self]
          simp

theorem getLsbD_ctz {mask : BitVec 32} (nonzero : mask ≠ 0)
    : mask.getLsbD (ZHeap.ctz mask) = true := by
  have some : ∃ i ∈ List.range 32, mask.getLsbD i = true := by
    by_contra none
    refine nonzero (BitVec.eq_of_getLsbD_eq fun i small => ?_)
    have clear : mask.getLsbD i = false := by
      by_contra set
      exact none ⟨i, List.mem_range.mpr small, by simpa using set⟩
    rw [clear]
    exact BitVec.getLsbD_zero.symm
  have found := List.findIdx_getElem (w := List.findIdx_lt_length.mpr some)
  rwa [List.getElem_range] at found

/-- The bits of a mask at `n` and above. -/
theorem getLsbD_above {mask : BitVec 32} {n i : Nat} (small : n < 32)
    (set : (mask &&& ~~~(BitVec.twoPow 32 n - 1)).getLsbD i = true)
    : mask.getLsbD i = true ∧ n ≤ i := by
  have below : (BitVec.twoPow 32 n - 1).toNat = 2 ^ n - 1 := by
    have positive : 1 ≤ 2 ^ n := Nat.one_le_two_pow
    have bound : 2 ^ n < 2 ^ 32 := Nat.pow_lt_pow_right (by decide) small
    have one : (1 : BitVec 32).toNat = 1 := rfl
    rw [BitVec.toNat_sub_of_le, BitVec.toNat_twoPow_of_lt small, one]
    rw [BitVec.le_def, BitVec.toNat_twoPow_of_lt small, one]
    exact positive
  rw [BitVec.getLsbD_and, Bool.and_eq_true, BitVec.getLsbD_not, Bool.and_eq_true] at set
  refine ⟨set.1, ?_⟩
  have clear : (BitVec.twoPow 32 n - 1).getLsbD i = false := by simpa using set.2.2
  rw [BitVec.getLsbD, below, Nat.testBit_two_pow_sub_one] at clear
  simpa using clear

theorem allocLarger_found {sz : Nat} (sizes : Sizes last) (shape : Shape h base last tiles ∅)
    (inRange : bucketIdx last sz < nbBuckets last)
    : ∃ found,
        Found base last h tiles sz (h.allocLarger (bucketIdx last sz)).1 found
        ∧ (h.allocLarger (bucketIdx last sz)).2 = found.getD 0 := by
  obtain ⟨lists, shape⟩ := shape
  have few := sizes.nbBuckets_le
  rw [ZHeap.allocLarger]
  by_cases none : h.availBuckets &&& ~~~(BitVec.twoPow 32 (bucketIdx last sz + 1) - 1) = 0
  · rw [if_pos none]
    exact ⟨.none, .refl, rfl⟩
  · rw [if_neg none]
    obtain ⟨set, above⟩ := getLsbD_above (by omega) (getLsbD_ctz none)
    generalize ZHeap.ctz _ = i at set above ⊢
    have nonempty : lists i ≠ [] := by
      intro empty
      rw [shape.buckets.avail, empty] at set
      simp at set
    obtain ⟨c, rest, list⟩ := List.exists_cons_of_ne_nil nonempty
    have inList : c ∈ lists i := by simp [list]
    have head : h.bucketNext i = c := by
      rw [shape.buckets.heads (shape.index_lt inList), list]
      rfl
    have large : ∀ {size}, tiles c = some (size, false) → sz ≤ size := by
      intro size found
      obtain ⟨size', tile, -, index⟩ := shape.plan.listed inList
      rw [tile] at found
      cases found
      have higher : bucketIdx last sz < bucketIdx last size := index ▸ above
      exact Nat.le_of_lt (lt_of_bucketIdx_lt higher)
    have removed := found_of_remove shape list large
    rw [head]
    dsimp only
    exact ⟨some c, removed, rfl⟩

theorem allocChunk_found {sz : Nat} (sizes : Sizes last) (shape : Shape h base last tiles ∅)
    (inRange : bucketIdx last sz < nbBuckets last)
    : ∃ found,
        Found base last h tiles sz (h.allocChunk sz).1 found
        ∧ (h.allocChunk sz).2 = found.getD 0 := by
  obtain ⟨lists, shape⟩ := shape
  rw [ZHeap.allocChunk, shape.endChunk]
  by_cases empty : h.bucketNext (bucketIdx last sz) = 0
  · rw [if_pos empty]
    dsimp only
    exact allocLarger_found sizes ⟨lists, shape⟩ inRange
  · rw [if_neg empty]
    have nonempty : lists (bucketIdx last sz) ≠ [] := by
      intro nil
      rw [shape.buckets.heads inRange, nil] at empty
      exact empty rfl
    have scanned := allocScan_found sizes sz (bucketIdx last sz)
      (h.bucketNext (bucketIdx last sz)) ZHeap.allocLoops shape nonempty
    generalize h.allocScan sz (bucketIdx last sz) (h.bucketNext (bucketIdx last sz))
      ZHeap.allocLoops = scan at scanned ⊢
    obtain ⟨h', found⟩ := scan
    cases found with
    | none =>
        dsimp only at scanned ⊢
        have edits : Edits base last ⟨h, tiles, ∅⟩ ⟨h', tiles, ∅⟩ := scanned
        obtain ⟨found, got, result⟩ :=
          allocLarger_found sizes (edits.shape sizes ⟨lists, shape⟩) inRange
        exact ⟨found, .after edits got, result⟩
    | some c => exact ⟨some c, scanned, rfl⟩

/-! ### Granting a block -/

/-- `mem_to_chunkid` of a heap at `base` with end chunk `last`. -/
def chunkOf (base last mem : Nat) : Nat :=
  (mem - chunkHeaderBytes last - base) / 8

theorem memToChunkid_eq (placed : h.base = base) (endChunk : h.endChunk = last) (mem : Nat)
    : h.memToChunkid mem = chunkOf base last mem := by
  rw [ZHeap.memToChunkid, placed, endChunk, chunkUnit, chunkOf]

/-- The `bytes` bytes at `mem` lie behind the header of chunk `c` of `size` units, and the code
finds that chunk from the address.
-/
structure Within (base last mem bytes c size : Nat) : Prop where
  chunk : chunkOf base last mem = c
  above : base + 8 * c + chunkHeaderBytes last ≤ mem
  below : mem + bytes ≤ base + 8 * (c + size)

/-- There is a block of `bytes` bytes at `mem` in a used chunk, beside the chunks `used`. -/
def Granted (base last : Nat) (used : Nat → Option Nat) (bytes : Nat) (h : ZHeap) (mem : Nat)
    : Prop :=
  ∃ tiles c size,
    Shape h base last tiles ∅
    ∧ usedSizes tiles = Function.update used c (some size)
    ∧ used c = none
    ∧ c ≠ 0
    ∧ Within base last mem bytes c size

/-- The block at `mem` was cut out of the free chunks, marked as used and counted. -/
def CutOut (base last : Nat) (h : ZHeap) (tiles : Tiles Bool) (bytes : Nat) (after : ZHeap)
    (mem : Nat) : Prop :=
  ∃ cut tiles' c size,
    Edits base last ⟨h, tiles, ∅⟩ ⟨cut, tiles', {c}⟩
    ∧ tiles' c = some (size, false)
    ∧ Within base last mem bytes c size
    ∧ after = (cut.setChunkUsed c true).increaseAllocatedBytes (chunkszToBytes last size)

theorem marked_used_shape {c size : Nat} (shape : Shape h base last tiles {c})
    (sizes : Sizes last) (tile : tiles c = some (size, false))
    : Shape (h.setChunkUsed c true) base last (Function.update tiles c (some (size, true))) ∅ := by
  obtain ⟨lists, shape⟩ := shape
  have marked := shape.setChunkUsed sizes tile (shape.plan.free_ne_zero tile) (.inr rfl) true
  rw [if_pos rfl, single_without] at marked
  exact ⟨lists, marked⟩

theorem cutOut_of_edits {cut : ZHeap} {tiles' : Tiles Bool} {mem bytes c size : Nat}
    (shape : Shape h base last tiles ∅) (sizes : Sizes last)
    (edits : Edits base last ⟨h, tiles, ∅⟩ ⟨cut, tiles', {c}⟩)
    (tile : tiles' c = some (size, false)) (within : Within base last mem bytes c size)
    : CutOut base last h tiles bytes
        ((cut.setChunkUsed c true).increaseAllocatedBytes
          (chunkszToBytes (cut.setChunkUsed c true).endChunk
            ((cut.setChunkUsed c true).chunkSize c)))
        mem := by
  obtain ⟨lists, marked⟩ := marked_used_shape (edits.shape sizes shape) sizes tile
  refine ⟨cut, tiles', c, size, edits, tile, within, ?_⟩
  rw [marked.endChunk, marked.chunkSize (Function.update_self ..)]

theorem CutOut.granted {after : ZHeap} {mem bytes : Nat}
    (cutOut : CutOut base last h tiles bytes after mem) (shape : Shape h base last tiles ∅)
    (sizes : Sizes last)
    : Granted base last (usedSizes tiles) bytes after mem := by
  obtain ⟨cut, tiles', c, size, edits, tile, within, rfl⟩ := cutOut
  have shape' : Shape cut base last tiles' {c} := edits.shape sizes shape
  have used : usedSizes tiles' = usedSizes tiles := edits.used
  obtain ⟨lists, represented⟩ := id shape'
  refine ⟨_, c, size, (marked_used_shape shape' sizes tile).counted .., ?_, ?_,
    represented.plan.free_ne_zero tile, within⟩
  · rw [usedSizes_mark, used, if_pos rfl]
  · rw [← used, usedSizes_free tile]

/-- The answer to a request for `bytes` bytes: nothing has changed but the order of the lists,
or a block with the wanted alignment was cut out.
-/
def Answered (base last : Nat) (h : ZHeap) (tiles : Tiles Bool) (bytes : Nat)
    (aligned : Nat → Prop) : ZHeap × Option Nat → Prop
  | (after, none) => Edits base last ⟨h, tiles, ∅⟩ ⟨after, tiles, ∅⟩
  | (after, some mem) => CutOut base last h tiles bytes after mem ∧ aligned mem

theorem Answered.imp {bytes : Nat} {aligned aligned' : Nat → Prop}
    {answer : ZHeap × Option Nat} (answered : Answered base last h tiles bytes aligned answer)
    (weaker : ∀ mem, aligned mem → aligned' mem)
    : Answered base last h tiles bytes aligned' answer := by
  obtain ⟨after, result⟩ := answer
  cases result with
  | none => exact answered
  | some mem => exact ⟨answered.1, weaker mem answered.2⟩

/-- The request is refused, or it asks for `sz` units, whose bucket exists. -/
def InRange (last bytes sz : Nat) : Prop :=
  bytes = 0 ∨ sizeTooBig last bytes = true ∨ bucketIdx last sz < nbBuckets last

instance (last bytes sz : Nat) : Decidable (InRange last bytes sz) :=
  inferInstanceAs (Decidable (_ ∨ _ ∨ _))

theorem not_sizeTooBig {bytes : Nat} (notBig : ¬sizeTooBig last bytes = true)
    : bytes / 8 < last := by
  by_contra big
  exact notBig (decide_eq_true (Nat.le_of_not_lt big))

theorem sysHeapAlloc_answered {bytes : Nat} (sizes : Sizes last)
    (shape : Shape h base last tiles ∅)
    (inRange : InRange last bytes (bytesToChunksz last bytes))
    : Answered base last h tiles bytes
        (fun mem => ∃ c, mem = base + 8 * c + chunkHeaderBytes last) (h.sysHeapAlloc bytes) := by
  obtain ⟨lists, represented⟩ := id shape
  rw [ZHeap.sysHeapAlloc, represented.endChunk]
  by_cases refused : bytes = 0 ∨ sizeTooBig last bytes = true
  · rw [if_pos refused]
    exact .refl
  · rw [if_neg refused]
    obtain ⟨positive, notBig⟩ := not_or.mp refused
    have inRange := (inRange.resolve_left positive).resolve_left notBig
    have below := not_sizeTooBig notBig
    have bounded := sizes.bounded
    have scale := minChunkSize_cases last
    have header := chunkHeaderBytes_eq last
    have chunkSz : bytesToChunksz last bytes = (4 * minChunkSize last + bytes + 7) / 8 :=
      bytesToChunksz_eq (by omega)
    obtain ⟨found, got, result⟩ := allocChunk_found sizes shape inRange
    generalize bytesToChunksz last bytes = sz at got result chunkSz ⊢
    dsimp only
    cases found with
    | none =>
        rw [if_pos (show (h.allocChunk sz).2 = 0 from result)]
        exact got
    | some c =>
        obtain ⟨size, tile, large, cut⟩ := got
        have isC : (h.allocChunk sz).2 = c := result
        have right : RightTaken tiles c size :=
          (represented.plan.taken tile (Set.notMem_empty c)).1 (Set.notMem_empty _)
        rw [isC, if_neg (represented.plan.free_ne_zero tile)]
        generalize (h.allocChunk sz).1 = taken at cut ⊢
        have shape' : Shape taken base last tiles {c} := cut.shape sizes shape
        obtain ⟨tiles', trimmed, tile'⟩ :=
          trimSuffix_edits shape' sizes tile right (by omega) large
        obtain ⟨lists', final⟩ := marked_used_shape (trimmed.shape sizes shape') sizes tile'
        have mem : ((taken.trimSuffix c (c + sz)).setChunkUsed c true).chunkMem c
            = base + 8 * c + chunkHeaderBytes last := by
          rw [ZHeap.chunkMem, final.base, final.endChunk, chunkUnit]
        have within : Within base last (base + 8 * c + chunkHeaderBytes last) bytes c sz :=
          ⟨by unfold chunkOf; omega, Nat.le_refl _, by omega⟩
        rw [mem]
        exact ⟨cutOut_of_edits shape sizes (cut.trans trimmed) tile' within, c, rfl⟩

/-! ### Alignment -/

theorem roundUp_spec (value : Nat) {align : Nat} (positive : 0 < align)
    : value ≤ roundUp value align
      ∧ roundUp value align < value + align
      ∧ align ∣ roundUp value align := by
  have split := Nat.div_add_mod (value + (align - 1)) align
  have remainder := Nat.mod_lt (value + (align - 1)) positive
  rw [roundUp]
  refine ⟨?_, ?_, Nat.dvd_mul_left _ _⟩ <;> rw [Nat.mul_comm] <;> omega

/-- Rounding up adds a multiple of every common divisor, so it adds at least that much less
than the alignment.
-/
theorem roundUp_le {value align gap : Nat} (positive : 0 < align) (aligned : gap ∣ align)
    (offset : gap ∣ value)
    : roundUp value align ≤ value + align - gap := by
  obtain ⟨lower, upper, multiple⟩ := roundUp_spec value positive
  obtain ⟨steps, added⟩ : gap ∣ roundUp value align - value :=
    Nat.dvd_sub (Nat.dvd_trans aligned multiple) offset
  obtain ⟨whole, rfl⟩ := aligned
  have fewer : gap * steps < gap * whole := by omega
  have next : gap * (steps + 1) ≤ gap * whole :=
    Nat.mul_le_mul_left gap (Nat.lt_of_mul_lt_mul_left fewer)
  rw [Nat.mul_add, Nat.mul_one] at next
  omega

/-- Where the aligned path puts a block that it cuts out of the chunk `c₀`. -/
theorem padded_place {bytes align rew gap c₀ mem stop : Nat} (aligned : 8 ∣ base)
    (positive : 0 < align) (request : 0 < bytes) (gapAlign : gap ∣ align) (gapRew : gap ∣ rew)
    (gapHeader : gap ∣ chunkHeaderBytes last)
    (isMem : mem = roundUp (base + 8 * c₀ + chunkHeaderBytes last + rew) align - rew)
    (isStop : stop = roundUp (mem + bytes) 8)
    : (align ∣ mem + rew)
      ∧ c₀ ≤ chunkOf base last mem
      ∧ chunkOf base last mem < (stop - base) / 8
      ∧ 8 * ((stop - base) / 8) ≤ 8 * c₀ + chunkHeaderBytes last + (bytes + align - gap) + 7
      ∧ base + 8 * chunkOf base last mem + chunkHeaderBytes last ≤ mem
      ∧ mem + bytes ≤ base + 8 * ((stop - base) / 8) := by
  have header := chunkHeaderBytes_eq last
  have scale := minChunkSize_cases last
  have units : chunkHeaderBytes last ∣ 8 := by
    rcases scale with scale | scale <;> rw [header, scale] <;> decide
  have start : gap ∣ base + 8 * c₀ + chunkHeaderBytes last + rew := by
    have toUnit : gap ∣ 8 := Nat.dvd_trans gapHeader units
    exact Nat.dvd_add (Nat.dvd_add (Nat.dvd_add (Nat.dvd_trans toUnit aligned)
      (Nat.dvd_trans toUnit (Nat.dvd_mul_right 8 c₀))) gapHeader) gapRew
  obtain ⟨lower, -, multiple⟩ :=
    roundUp_spec (base + 8 * c₀ + chunkHeaderBytes last + rew) positive
  have upper := roundUp_le positive gapAlign start
  have gapLe := Nat.le_of_dvd positive gapAlign
  obtain ⟨stopLower, stopUpper, stopMultiple⟩ := roundUp_spec (mem + bytes)
    (show 0 < 8 by decide)
  rw [← isStop] at stopLower stopUpper stopMultiple
  have memLower : base + 8 * c₀ + chunkHeaderBytes last ≤ mem := by omega
  have memUpper : mem + bytes
      ≤ base + 8 * c₀ + chunkHeaderBytes last + (bytes + align - gap) := by omega
  have chunk : chunkOf base last mem = (mem - chunkHeaderBytes last - base) / 8 := rfl
  refine ⟨?_, by omega, by omega, by omega, by omega, by omega⟩
  rw [isMem, Nat.sub_add_cancel (by omega)]
  exact multiple

/-- The request is refused, or the units that it asks for with its padding are counted without
wrapping around and their bucket exists.
-/
def PaddedInRange (last bytes align gap : Nat) : Prop :=
  bytes = 0
  ∨ sizeTooBig last bytes = true
  ∨ (bytes + align - gap + 15 < 2 ^ 32
    ∧ bucketIdx last (bytesToChunksz last (bytes + align - gap)) < nbBuckets last)

instance (last bytes align gap : Nat) : Decidable (PaddedInRange last bytes align gap) :=
  inferInstanceAs (Decidable (_ ∨ _ ∨ _ ∧ _))

theorem allocPadded_answered {bytes align rew gap : Nat} (sizes : Sizes last)
    (shape : Shape h base last tiles ∅) (aligned : 8 ∣ base) (positive : 0 < align)
    (gapAlign : gap ∣ align) (gapRew : gap ∣ rew) (gapHeader : gap ∣ chunkHeaderBytes last)
    (inRange : PaddedInRange last bytes align gap)
    : Answered base last h tiles bytes (fun mem => align ∣ mem + rew)
        (h.allocPadded align rew gap bytes) := by
  obtain ⟨lists, represented⟩ := id shape
  rw [ZHeap.allocPadded, represented.endChunk]
  by_cases refused : bytes = 0 ∨ sizeTooBig last bytes = true
  · rw [if_pos refused]
    exact .refl
  · rw [if_neg refused]
    obtain ⟨request, notBig⟩ := not_or.mp refused
    obtain ⟨noWrap, inRange⟩ := (inRange.resolve_left request).resolve_left notBig
    have header := chunkHeaderBytes_eq last
    have unwrapped : sizeT (bytes + align - gap) = bytes + align - gap :=
      Nat.mod_eq_of_lt (by omega)
    rw [unwrapped]
    have paddedSz : bytesToChunksz last (bytes + align - gap)
        = (4 * minChunkSize last + (bytes + align - gap) + 7) / 8 := bytesToChunksz_eq noWrap
    obtain ⟨found, got, result⟩ := allocChunk_found sizes shape inRange
    generalize bytesToChunksz last (bytes + align - gap) = sz at got result paddedSz ⊢
    dsimp only
    cases found with
    | none =>
        rw [if_pos (show (h.allocChunk sz).2 = 0 from result)]
        exact got
    | some c₀ =>
        obtain ⟨size, tile, large, edits⟩ := got
        have isC : (h.allocChunk sz).2 = c₀ := result
        have taken := represented.plan.taken tile (Set.notMem_empty c₀)
        rw [isC, if_neg (represented.plan.free_ne_zero tile)]
        generalize (h.allocChunk sz).1 = got at edits ⊢
        have cut : Shape got base last tiles {c₀} := edits.shape sizes shape
        obtain ⟨lists', cutLists⟩ := id cut
        have start : got.chunkMem c₀ = base + 8 * c₀ + chunkHeaderBytes last := by
          rw [ZHeap.chunkMem, cutLists.base, cutLists.endChunk, chunkUnit]
        rw [start, cutLists.base, memToChunkid_eq cutLists.base cutLists.endChunk, chunkUnit]
        generalize isMem : roundUp (base + 8 * c₀ + chunkHeaderBytes last + rew) align - rew = mem
        generalize isStop : roundUp (mem + bytes) 8 = stop
        obtain ⟨multiple, lower, positive', upper, above, below⟩ :=
          padded_place aligned positive (Nat.pos_of_ne_zero request) gapAlign gapRew gapHeader
            isMem.symm isStop.symm
        generalize (stop - base) / 8 = cEnd at positive' upper below ⊢
        obtain ⟨skip, isSkip⟩ := Nat.exists_eq_add_of_le lower
        obtain ⟨tiles₁, edits₁, tile₁, right₁⟩ := trimPrefix_edits cut sizes tile
          (taken.1 (Set.notMem_empty _)) (fun d size' free ends => taken.2 free ends)
          (show skip < size by omega)
        have shape₁ := edits₁.shape sizes cut
        dsimp only at shape₁
        rw [← isSkip] at edits₁ shape₁ tile₁ right₁
        generalize isChunk : chunkOf base last mem = c at *
        obtain ⟨size', isSize⟩ := Nat.exists_eq_add_of_lt positive'
        obtain ⟨tiles₂, edits₂, tile₂⟩ :=
          trimSuffix_edits shape₁ sizes tile₁ right₁ (Nat.succ_pos size') (by omega)
        have isEnd : c + size'.succ = cEnd := by omega
        rw [isEnd] at edits₂
        have within : Within base last mem bytes c size'.succ := ⟨isChunk, above, by omega⟩
        exact ⟨cutOut_of_edits shape sizes ((edits.trans edits₁).trans edits₂) tile₂ within,
          multiple⟩

end Zephyr.Heap
