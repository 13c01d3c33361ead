import Zephyr.Heap.Integrity

/-! The bucket indices that `alloc_chunk` computes and scans, which the header has room for
exactly if the request is not rounded up past the end of the heap.
-/

namespace Zephyr.Heap

open Library (Memory Tiles)

/-- `bucket_idx` in its unsigned arithmetic; `__builtin_clz` has no value for zero. -/
def bucketIndex (endChunk sz : Nat) : Option Nat :=
  let usableSz := sizeT (sz + (2 ^ 32 - minChunkSize endChunk) + 1)
  if usableSz = 0 then none else some usableSz.log2

namespace ZHeap

/-- The bucket that the end of `alloc_chunk` finds in the mask. -/
def largerIndices (h : ZHeap) (bi : Nat) : List (Option Nat) :=
  let bmask := h.availBuckets &&& ~~~(BitVec.twoPow 32 (bi + 1) - 1)
  if bmask = 0 then [] else [some (ctz bmask)]

/-- The indices of the buckets that `alloc_chunk` reads. -/
def allocChunkIndices (h : ZHeap) (sz : Nat) : List (Option Nat) :=
  match bucketIndex h.endChunk sz with
  | none => [none]
  | some bi =>
      let scanned :=
        if h.bucketNext bi = 0 then (h, none)
        else h.allocScan sz bi (h.bucketNext bi) allocLoops
      match scanned.2 with
      | some _ => [some bi]
      | none => some bi :: scanned.1.largerIndices bi

/-- Those of a request for `bytes` bytes of which `alloc_chunk` is asked for `chunkSz` units. -/
def requestIndices (h : ZHeap) (bytes chunkSz : Nat) : List (Option Nat) :=
  if bytes = 0 ∨ sizeTooBig h.endChunk bytes then [] else h.allocChunkIndices chunkSz

/-- The units that `sys_heap_aligned_alloc` asks `alloc_chunk` for. -/
def alignedChunkSz (h : ZHeap) (align bytes : Nat) : Nat :=
  let rew := rewind align
  if align ≠ rew then
    bytesToChunksz h.endChunk
      (sizeT (bytes + (align - rew) - min rew (chunkHeaderBytes h.endChunk)))
  else if align ≤ chunkHeaderBytes h.endChunk then
    bytesToChunksz h.endChunk bytes
  else
    bytesToChunksz h.endChunk (sizeT (bytes + align - chunkHeaderBytes h.endChunk))

end ZHeap

/-- The index is defined and the header has such a bucket. -/
def InHeader (endChunk : Nat) (index : Option Nat) : Prop :=
  ∃ i ∈ index, i < nbBuckets endChunk

variable {h : ZHeap} {base last : Nat} {tiles : Tiles Bool}

/-! ### One index -/

theorem bucketIndex_eq {sz : Nat} (large : minChunkSize last ≤ sz) (small : sz < 2 ^ 29)
    : bucketIndex last sz = some (bucketIdx last sz) := by
  have scale := minChunkSize_cases last
  have usable : sizeT (sz + (2 ^ 32 - minChunkSize last) + 1) = sz + 1 - minChunkSize last := by
    rw [sizeT]
    omega
  rw [bucketIndex, bucketIdx, usable, if_neg (by omega)]

theorem bucketIndex_small {sz : Nat} (sizes : Sizes last) (less : sz < minChunkSize last)
    : ¬InHeader last (bucketIndex last sz) := by
  have scale := minChunkSize_cases last
  have few := sizes.nbBuckets_le
  rw [bucketIndex]
  split
  case isTrue => exact fun ⟨i, isIndex, _⟩ => nomatch isIndex
  case isFalse positive =>
      rintro ⟨i, isIndex, below⟩
      obtain rfl := Option.some.inj isIndex
      -- the subtraction has wrapped around
      have huge : sizeT (sz + (2 ^ 32 - minChunkSize last) + 1) = 2 ^ 32 - 1 := by
        rw [sizeT] at positive ⊢
        omega
      rw [huge] at below
      have : (2 ^ 32 - 1 : Nat).log2 = 31 := by decide
      omega

theorem inHeader_iff {sz : Nat} (sizes : Sizes last) (small : sz < 2 ^ 29)
    : InHeader last (bucketIndex last sz)
      ↔ minChunkSize last ≤ sz ∧ sz + 1 - minChunkSize last < 2 ^ nbBuckets last := by
  by_cases large : minChunkSize last ≤ sz
  · have scale := minChunkSize_cases last
    rw [bucketIndex_eq large small]
    constructor
    · rintro ⟨i, isIndex, below⟩
      obtain rfl := Option.some.inj isIndex
      exact ⟨large, (Nat.log2_lt (by omega)).mp below⟩
    · rintro ⟨-, below⟩
      exact ⟨_, rfl, (Nat.log2_lt (by omega)).mpr below⟩
  · exact ⟨fun inHeader => (bucketIndex_small sizes (by omega) inHeader).elim,
      fun ⟨large', _⟩ => (large large').elim⟩

/-! ### All indices of a request -/

theorem largerIndices_inHeader {bi : Nat} (shape : Shape h base last tiles ∅)
    (small : bi < 31) {index : Option Nat} (member : index ∈ h.largerIndices bi)
    : InHeader last index := by
  obtain ⟨lists, shape⟩ := shape
  rw [ZHeap.largerIndices] at member
  by_cases none : h.availBuckets &&& ~~~(BitVec.twoPow 32 (bi + 1) - 1) = 0
  · rw [if_pos none] at member
    exact (List.not_mem_nil member).elim
  · rw [if_neg none] at member
    obtain rfl := List.mem_singleton.mp member
    obtain ⟨set, -⟩ := getLsbD_above (by omega) (getLsbD_ctz none)
    rw [shape.buckets.avail] at set
    obtain ⟨c, inList⟩ := List.exists_mem_of_ne_nil _
      (show lists (ZHeap.ctz _) ≠ [] by simpa using set)
    exact ⟨_, rfl, shape.index_lt inList⟩

theorem allocChunkIndices_inHeader {sz : Nat} (shape : Shape h base last tiles ∅)
    (sizes : Sizes last) (small : sz < 2 ^ 29)
    : (∀ index ∈ h.allocChunkIndices sz, InHeader last index)
      ↔ minChunkSize last ≤ sz ∧ sz + 1 - minChunkSize last < 2 ^ nbBuckets last := by
  rw [← inHeader_iff sizes small]
  obtain ⟨lists, represented⟩ := id shape
  rw [ZHeap.allocChunkIndices, represented.endChunk]
  constructor
  · intro all
    refine all _ ?_
    cases bucketIndex last sz with
    | none => exact List.mem_singleton_self _
    | some bi =>
        dsimp only
        split <;> exact List.mem_cons_self
  · intro inHeader
    have large := ((inHeader_iff sizes small).mp inHeader).1
    rw [bucketIndex_eq large small] at inHeader ⊢
    have inRange : bucketIdx last sz < nbBuckets last := by
      obtain ⟨i, isIndex, below⟩ := inHeader
      exact Option.some.inj isIndex ▸ below
    have few := sizes.nbBuckets_le
    generalize bucketIdx last sz = bi at inHeader inRange ⊢
    dsimp only
    by_cases empty : h.bucketNext bi = 0
    · rw [if_pos empty]
      intro index member
      rcases List.mem_cons.mp member with rfl | member
      · exact inHeader
      · exact largerIndices_inHeader shape (by omega) member
    · rw [if_neg empty]
      have nonempty : lists bi ≠ [] := by
        intro nil
        rw [represented.buckets.heads inRange, nil] at empty
        exact empty rfl
      have scanned := allocScan_found sizes sz bi (h.bucketNext bi) ZHeap.allocLoops represented
        nonempty
      generalize h.allocScan sz bi (h.bucketNext bi) ZHeap.allocLoops = scan at scanned ⊢
      obtain ⟨h', found⟩ := scan
      intro index member
      cases found with
      | some c =>
          obtain rfl := List.mem_singleton.mp member
          exact inHeader
      | none =>
          have edits : Edits base last ⟨h, tiles, ∅⟩ ⟨h', tiles, ∅⟩ := scanned
          rcases List.mem_cons.mp member with rfl | member
          · exact inHeader
          · exact largerIndices_inHeader (edits.shape sizes shape) (by omega) member

theorem requestIndices_inHeader {bytes sz : Nat} (shape : Shape h base last tiles ∅)
    (sizes : Sizes last) (small : sz < 2 ^ 29)
    : (∀ index ∈ h.requestIndices bytes sz, InHeader last index)
      ↔ bytes = 0
        ∨ sizeTooBig last bytes = true
        ∨ (minChunkSize last ≤ sz ∧ sz + 1 - minChunkSize last < 2 ^ nbBuckets last) := by
  obtain ⟨lists, represented⟩ := id shape
  rw [ZHeap.requestIndices, represented.endChunk, ← or_assoc]
  by_cases refused : bytes = 0 ∨ sizeTooBig last bytes = true
  · simp only [if_pos refused, List.not_mem_nil, IsEmpty.forall_iff, implies_true, true_iff]
    exact .inl refused
  · rw [if_neg refused, allocChunkIndices_inHeader shape sizes small, or_iff_right refused]

/-! ### Which requests stay in the header -/

theorem bytesToChunksz_lt (last bytes : Nat) : bytesToChunksz last bytes < 2 ^ 29 := by
  rw [bytesToChunksz, chunksz, chunkUnit]
  have := Nat.mod_lt (sizeT (chunkHeaderBytes last + bytes) + 8 - 1) (show 0 < 2 ^ 32 by decide)
  rw [sizeT]
  omega

/-- The buckets reach one past the largest chunk exactly if there the power of two does not
change.
-/
theorem past_last_iff (sizes : Sizes last)
    : last + 2 - minChunkSize last < 2 ^ nbBuckets last
      ↔ ∀ k, last + 2 - minChunkSize last ≠ 2 ^ k := by
  have room := sizes.room
  have chunk0 := sizes.chunk0
  have scale := minChunkSize_cases last
  have positive : last + 1 - minChunkSize last ≠ 0 := by omega
  have lower : 2 ^ bucketIdx last last ≤ last + 1 - minChunkSize last := Nat.log2_self_le positive
  have upper : last + 1 - minChunkSize last < 2 ^ nbBuckets last :=
    (Nat.log2_lt positive).mp (Nat.lt_succ_self _)
  constructor
  · intro below k power
    have above : bucketIdx last last < k :=
      (Nat.pow_lt_pow_iff_right (show 1 < 2 by decide)).mp (by omega)
    have most : k < nbBuckets last :=
      (Nat.pow_lt_pow_iff_right (show 1 < 2 by decide)).mp (by omega)
    rw [nbBuckets] at most
    omega
  · intro noPower
    have := noPower (nbBuckets last)
    omega

/-- An accepted request for `bytes` bytes is for at most one unit more than there are. -/
theorem chunkSz_in_header {bytes : Nat} (sizes : Sizes last) (positive : bytes ≠ 0)
    (notBig : ¬sizeTooBig last bytes = true)
    : (minChunkSize last ≤ bytesToChunksz last bytes
        ∧ bytesToChunksz last bytes + 1 - minChunkSize last < 2 ^ nbBuckets last)
      ↔ chunkHeaderBytes last + bytes ≤ 8 * last
        ∨ ∀ k, last + 2 - minChunkSize last ≠ 2 ^ k := by
  have below := not_sizeTooBig notBig
  have bounded := sizes.bounded
  have room := sizes.room
  have scale := minChunkSize_cases last
  have header := chunkHeaderBytes_eq last
  have chunkSz : bytesToChunksz last bytes = (4 * minChunkSize last + bytes + 7) / 8 :=
    bytesToChunksz_eq (by omega)
  have upper : last + 1 - minChunkSize last < 2 ^ nbBuckets last :=
    (Nat.log2_lt (by omega)).mp (Nat.lt_succ_self _)
  rw [← past_last_iff sizes]
  generalize 2 ^ nbBuckets last = limit at upper ⊢
  generalize bytesToChunksz last bytes = sz at chunkSz ⊢
  generalize minChunkSize last = least at *
  omega

/-- In every well-formed heap the indices that a plain request computes and scans are in the
header, unless it is rounded up to one unit more than the heap has just where the number of
buckets would grow; those of an aligned request are exactly if its padded size is.
-/
theorem indices_in_header (wellFormed : WellFormed h) (bytes align : Nat)
    : ((∀ index ∈ h.requestIndices bytes (bytesToChunksz h.endChunk bytes),
          InHeader h.endChunk index)
        ↔ bytes = 0
          ∨ sizeTooBig h.endChunk bytes = true
          ∨ chunkHeaderBytes h.endChunk + bytes ≤ 8 * h.endChunk
          ∨ ∀ k, h.endChunk + 2 - minChunkSize h.endChunk ≠ 2 ^ k)
      ∧ ((∀ index ∈ h.requestIndices bytes (h.alignedChunkSz align bytes),
            InHeader h.endChunk index)
          ↔ bytes = 0
            ∨ sizeTooBig h.endChunk bytes = true
            ∨ (minChunkSize h.endChunk ≤ h.alignedChunkSz align bytes
              ∧ h.alignedChunkSz align bytes + 1 - minChunkSize h.endChunk
                < 2 ^ nbBuckets h.endChunk)) := by
  have shape := wellFormed.represented
  have sizes := wellFormed.sizes
  have small : h.alignedChunkSz align bytes < 2 ^ 29 := by
    unfold ZHeap.alignedChunkSz
    dsimp only
    split_ifs <;> exact bytesToChunksz_lt ..
  refine ⟨?_, requestIndices_inHeader shape sizes small⟩
  rw [requestIndices_inHeader shape sizes (bytesToChunksz_lt ..)]
  by_cases positive : bytes = 0
  · simp only [positive, true_or]
  · by_cases notBig : sizeTooBig h.endChunk bytes = true
    · simp only [notBig, true_or, or_true]
    · rw [or_iff_right positive, or_iff_right notBig, or_iff_right positive, or_iff_right notBig]
      exact chunkSz_in_header sizes positive notBig

/-- 100 bytes and their header fit in a heap of 31 units. -/
theorem indices_in_header_fresh
    : WellFormed (created (fun _ => 0) 536870912 256).heap
      ∧ ∀ index ∈ (created (fun _ => 0) 536870912 256).heap.requestIndices 100
            (bytesToChunksz (created (fun _ => 0) 536870912 256).heap.endChunk 100),
          InHeader (created (fun _ => 0) 536870912 256).heap.endChunk index := by
  have accepts : InitAccepts 536870912 256 := by decide
  obtain ⟨sizes, aligned, -⟩ := heapSize_sizes accepts
  have sound : Sound _ _ (created (fun _ => 0) 536870912 256) := created_sound accepts
  have wellFormed := sound.wellFormed sizes aligned
  refine ⟨wellFormed, (indices_in_header wellFormed 100 0).1.mpr ?_⟩
  have fits : chunkHeaderBytes (created (fun _ => 0) 536870912 256).heap.endChunk + 100
      ≤ 8 * (created (fun _ => 0) 536870912 256).heap.endChunk := by decide +kernel
  exact .inr (.inr (.inl fits))

/-- The heap in a buffer of 128 bytes has 4 buckets, and a request for 117 bytes computes index
4.
-/
theorem index_past_header
    : InitAccepts 536870912 128
      ∧ some 4 ∈ (created (fun _ => 0) 536870912 128).heap.requestIndices 117
          (bytesToChunksz (created (fun _ => 0) 536870912 128).heap.endChunk 117)
      ∧ nbBuckets (created (fun _ => 0) 536870912 128).heap.endChunk = 4 := by
  refine ⟨by decide, ?_, ?_⟩ <;> decide +kernel

end Zephyr.Heap
