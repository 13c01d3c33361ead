import Zephyr.Library.Memory

/-! The allocator of `heap.h` and `heap.c` over a flat memory.
Chunk headers, free-list links and bucket heads are words in the memory that user data shares,
so a write through any of them can hit any other.
-/

namespace Zephyr.Heap

open Library (Memory load store copyBytes)

/-- A `size_t` of the 32-bit target. -/
def sizeT (bytes : Nat) : Nat :=
  bytes % 2 ^ 32

def roundUp (value align : Nat) : Nat :=
  (value + (align - 1)) / align * align

def roundDown (value align : Nat) : Nat :=
  value / align * align

/-- `CHUNK_UNIT`. -/
def chunkUnit : Nat := 8

/-- `struct z_heap` at address `base`; `memory` is addressed from there. The last three are the
counters of `CONFIG_SYS_HEAP_RUNTIME_STATS`, which no function of the allocator reads; they are
kept beside the memory.
-/
structure ZHeap where
  base : Nat
  memory : Memory
  freeBytes : BitVec 32 := 0
  allocatedBytes : BitVec 32 := 0
  maxAllocatedBytes : BitVec 32 := 0

/-! ### Sizes: functions of a heap that read only its `end_chunk` -/

def bigHeapChunks (chunks : Nat) : Bool :=
  0x7fff < chunks

def bigHeapBytes (bytes : Nat) : Bool :=
  bigHeapChunks (bytes / chunkUnit)

/-- The width of a chunk field: `uint32_t` in a big heap, `uint16_t` otherwise. -/
def fieldBytes (endChunk : Nat) : Nat :=
  if bigHeapChunks endChunk then 4 else 2

def chunkHeaderBytes (endChunk : Nat) : Nat :=
  if bigHeapChunks endChunk then 8 else 4

def heapFooterBytes (size : Nat) : Nat :=
  if bigHeapBytes size then 8 else 4

def chunksz (bytes : Nat) : Nat :=
  sizeT (bytes + chunkUnit - 1) / chunkUnit

def bytesToChunksz (endChunk bytes : Nat) : Nat :=
  chunksz (sizeT (chunkHeaderBytes endChunk + bytes))

def minChunkSize (endChunk : Nat) : Nat :=
  bytesToChunksz endChunk 1

def chunkszToBytes (endChunk chunkszIn : Nat) : Nat :=
  chunkszIn * chunkUnit - chunkHeaderBytes endChunk

/-- `31 - __builtin_clz(usable_sz)`, which the source calls with a positive argument only. -/
def bucketIdx (endChunk sz : Nat) : Nat :=
  (sz + 1 - minChunkSize endChunk).log2

def sizeTooBig (endChunk bytes : Nat) : Bool :=
  endChunk ≤ bytes / chunkUnit

/-- `sizeof(struct z_heap)`. -/
def zHeapBytes : Nat := 16

/-- `nb_buckets` of `sys_heap_init`. -/
def nbBuckets (endChunk : Nat) : Nat :=
  bucketIdx endChunk endChunk + 1

/-- `chunk0_size` of `sys_heap_init`. -/
def chunk0Size (endChunk : Nat) : Nat :=
  chunksz (zHeapBytes + nbBuckets endChunk * 4)

/-! ### Fields -/

/-- `enum chunk_fields`. -/
inductive ChunkFields where
  | leftSize
  | sizeAndUsed
  | freePrev
  | freeNext
  deriving DecidableEq, Repr

def ChunkFields.index : ChunkFields → Nat
  | leftSize => 0
  | sizeAndUsed => 1
  | freePrev => 2
  | freeNext => 3

namespace ZHeap

def endChunk (h : ZHeap) : Nat :=
  load h.memory 8 4

def setEndChunk (h : ZHeap) (value : Nat) : ZHeap :=
  { h with memory := store h.memory 8 4 value }

def availBuckets (h : ZHeap) : BitVec 32 :=
  BitVec.ofNat 32 (load h.memory 12 4)

def setAvailBuckets (h : ZHeap) (mask : BitVec 32) : ZHeap :=
  { h with memory := store h.memory 12 4 mask.toNat }

/-- `h->buckets[bidx].next`; an index past the array reads what follows it. -/
def bucketNext (h : ZHeap) (bidx : Nat) : Nat :=
  load h.memory (zHeapBytes + 4 * bidx) 4

def setBucketNext (h : ZHeap) (bidx c : Nat) : ZHeap :=
  { h with memory := store h.memory (zHeapBytes + 4 * bidx) 4 c }

/-- Where the field of a chunk is, from the start of the heap. -/
def fieldAddress (endChunk c : Nat) (f : ChunkFields) : Nat :=
  chunkUnit * c + fieldBytes endChunk * f.index

def chunkField (h : ZHeap) (c : Nat) (f : ChunkFields) : Nat :=
  load h.memory (fieldAddress h.endChunk c f) (fieldBytes h.endChunk)

def chunkSet (h : ZHeap) (c : Nat) (f : ChunkFields) (val : Nat) : ZHeap :=
  { h with memory := store h.memory (fieldAddress h.endChunk c f) (fieldBytes h.endChunk) val }

def chunkUsed (h : ZHeap) (c : Nat) : Bool :=
  h.chunkField c .sizeAndUsed % 2 = 1

def chunkSize (h : ZHeap) (c : Nat) : Nat :=
  h.chunkField c .sizeAndUsed / 2

def setChunkUsed (h : ZHeap) (c : Nat) (used : Bool) : ZHeap :=
  h.chunkSet c .sizeAndUsed (2 * h.chunkSize c + used.toNat)

def setChunkSize (h : ZHeap) (c size : Nat) : ZHeap :=
  h.chunkSet c .sizeAndUsed (2 * size)

def prevFreeChunk (h : ZHeap) (c : Nat) : Nat :=
  h.chunkField c .freePrev

def nextFreeChunk (h : ZHeap) (c : Nat) : Nat :=
  h.chunkField c .freeNext

def setPrevFreeChunk (h : ZHeap) (c prev : Nat) : ZHeap :=
  h.chunkSet c .freePrev prev

def setNextFreeChunk (h : ZHeap) (c next : Nat) : ZHeap :=
  h.chunkSet c .freeNext next

def leftChunk (h : ZHeap) (c : Nat) : Nat :=
  c - h.chunkField c .leftSize

def rightChunk (h : ZHeap) (c : Nat) : Nat :=
  c + h.chunkSize c

def setLeftChunkSize (h : ZHeap) (c size : Nat) : ZHeap :=
  h.chunkSet c .leftSize size

def soloFreeHeader (h : ZHeap) (c : Nat) : Bool :=
  bigHeapChunks h.endChunk && h.chunkSize c == 1

def chunkMem (h : ZHeap) (c : Nat) : Nat :=
  h.base + chunkUnit * c + chunkHeaderBytes h.endChunk

def memToChunkid (h : ZHeap) (mem : Nat) : Nat :=
  (mem - chunkHeaderBytes h.endChunk - h.base) / chunkUnit

/-- `h->free_bytes += bytes`. -/
def addFreeBytes (h : ZHeap) (bytes : Nat) : ZHeap :=
  { h with freeBytes := h.freeBytes + BitVec.ofNat 32 bytes }

/-- `h->free_bytes -= bytes`. -/
def subFreeBytes (h : ZHeap) (bytes : Nat) : ZHeap :=
  { h with freeBytes := h.freeBytes - BitVec.ofNat 32 bytes }

def increaseAllocatedBytes (h : ZHeap) (bytes : Nat) : ZHeap :=
  let allocatedBytes := h.allocatedBytes + BitVec.ofNat 32 bytes
  { h with
    allocatedBytes := allocatedBytes
    maxAllocatedBytes :=
      if h.maxAllocatedBytes < allocatedBytes then allocatedBytes else h.maxAllocatedBytes }

/-- `h->allocated_bytes -= bytes`. -/
def subAllocatedBytes (h : ZHeap) (bytes : Nat) : ZHeap :=
  { h with allocatedBytes := h.allocatedBytes - BitVec.ofNat 32 bytes }

/-! ### Free lists -/

/-- `free_list_remove_bidx` without its counter. -/
def unlink (h : ZHeap) (c bidx : Nat) : ZHeap :=
  if h.nextFreeChunk c = c then
    let h := h.setAvailBuckets (h.availBuckets &&& ~~~BitVec.twoPow 32 bidx)
    h.setBucketNext bidx 0
  else
    let first := h.prevFreeChunk c
    let second := h.nextFreeChunk c
    let h := h.setBucketNext bidx second
    let h := h.setNextFreeChunk first second
    h.setPrevFreeChunk second first

def freeListRemoveBidx (h : ZHeap) (c bidx : Nat) : ZHeap :=
  let h := h.unlink c bidx
  h.subFreeBytes (chunkszToBytes h.endChunk (h.chunkSize c))

def freeListRemove (h : ZHeap) (c : Nat) : ZHeap :=
  if h.soloFreeHeader c then h
  else h.freeListRemoveBidx c (bucketIdx h.endChunk (h.chunkSize c))

/-- `free_list_add_bidx` without its counter. -/
def link (h : ZHeap) (c bidx : Nat) : ZHeap :=
  if h.bucketNext bidx = 0 then
    let h := h.setAvailBuckets (h.availBuckets ||| BitVec.twoPow 32 bidx)
    let h := h.setBucketNext bidx c
    let h := h.setPrevFreeChunk c c
    h.setNextFreeChunk c c
  else
    let second := h.bucketNext bidx
    let first := h.prevFreeChunk second
    let h := h.setPrevFreeChunk c first
    let h := h.setNextFreeChunk c second
    let h := h.setNextFreeChunk first c
    h.setPrevFreeChunk second c

def freeListAddBidx (h : ZHeap) (c bidx : Nat) : ZHeap :=
  let h := h.link c bidx
  h.addFreeBytes (chunkszToBytes h.endChunk (h.chunkSize c))

def freeListAdd (h : ZHeap) (c : Nat) : ZHeap :=
  if h.soloFreeHeader c then h
  else h.freeListAddBidx c (bucketIdx h.endChunk (h.chunkSize c))

/-! ### Splitting, merging, freeing -/

def splitChunks (h : ZHeap) (lc rc : Nat) : ZHeap :=
  let sz0 := h.chunkSize lc
  let lsz := rc - lc
  let rsz := sz0 - lsz
  let h := h.setChunkSize lc lsz
  let h := h.setChunkSize rc rsz
  let h := h.setLeftChunkSize rc lsz
  h.setLeftChunkSize (h.rightChunk rc) rsz

def mergeChunks (h : ZHeap) (lc rc : Nat) : ZHeap :=
  let newsz := h.chunkSize lc + h.chunkSize rc
  let h := h.setChunkSize lc newsz
  h.setLeftChunkSize (h.rightChunk rc) newsz

/-- The first half of `free_chunk`: merge with a free right chunk. -/
def mergeRight (h : ZHeap) (c : Nat) : ZHeap :=
  if h.chunkUsed (h.rightChunk c) then h
  else
    let h := h.freeListRemove (h.rightChunk c)
    h.mergeChunks c (h.rightChunk c)

/-- The second half of `free_chunk`: merge with a free left chunk, which the chunk is then
part of.
-/
def mergeLeft (h : ZHeap) (c : Nat) : ZHeap × Nat :=
  if h.chunkUsed (h.leftChunk c) then (h, c)
  else
    let h := h.freeListRemove (h.leftChunk c)
    let h := h.mergeChunks (h.leftChunk c) c
    (h, h.leftChunk c)

def freeChunk (h : ZHeap) (c : Nat) : ZHeap :=
  let merged := (h.mergeRight c).mergeLeft c
  merged.1.freeListAdd merged.2

def sysHeapFree (h : ZHeap) : (mem : Option Nat) → ZHeap
  | none => h
  | some mem =>
      let c := h.memToChunkid mem
      let h := h.setChunkUsed c false
      (h.subAllocatedBytes (chunkszToBytes h.endChunk (h.chunkSize c))).freeChunk c

/-! ### Allocating -/

/-- `CONFIG_SYS_HEAP_ALLOC_LOOPS`. -/
def allocLoops : Nat := 3

/-- The bounded search of `alloc_chunk` in the bucket of the requested size, with `loops` more
tries; every miss moves the bucket's head on.
-/
def allocScan (h : ZHeap) (sz bi first : Nat) : (loops : Nat) → ZHeap × Option Nat
  | 0 => (h, none)
  | loops + 1 =>
      let c := h.bucketNext bi
      if sz ≤ h.chunkSize c then
        (h.freeListRemoveBidx c bi, some c)
      else
        let h := h.setBucketNext bi (h.nextFreeChunk c)
        if h.bucketNext bi = first then (h, none) else h.allocScan sz bi first loops

/-- `__builtin_ctz`. -/
def ctz (mask : BitVec 32) : Nat :=
  (List.range 32).findIdx mask.getLsbD

/-- The end of `alloc_chunk`: the smallest bucket whose chunks all fit. -/
def allocLarger (h : ZHeap) (bi : Nat) : ZHeap × Nat :=
  let bmask := h.availBuckets &&& ~~~(BitVec.twoPow 32 (bi + 1) - 1)
  if bmask = 0 then (h, 0)
  else
    let c := h.bucketNext (ctz bmask)
    (h.freeListRemoveBidx c (ctz bmask), c)

def allocChunk (h : ZHeap) (sz : Nat) : ZHeap × Nat :=
  let bi := bucketIdx h.endChunk sz
  let scanned :=
    if h.bucketNext bi = 0 then (h, none)
    else h.allocScan sz bi (h.bucketNext bi) allocLoops
  match scanned.2 with
  | some c => (scanned.1, c)
  | none => scanned.1.allocLarger bi

/-- Cuts what lies past `c_end` off a chunk and lists it as free. -/
def trimSuffix (h : ZHeap) (c cEnd : Nat) : ZHeap :=
  if cEnd < h.rightChunk c then (h.splitChunks c cEnd).freeListAdd cEnd else h

def sysHeapAlloc (h : ZHeap) (bytes : Nat) : ZHeap × Option Nat :=
  if bytes = 0 ∨ sizeTooBig h.endChunk bytes then (h, none)
  else
    let chunkSz := bytesToChunksz h.endChunk bytes
    let allocated := h.allocChunk chunkSz
    let c := allocated.2
    if c = 0 then (allocated.1, none)
    else
      let h := (allocated.1.trimSuffix c (c + chunkSz)).setChunkUsed c true
      (h.increaseAllocatedBytes (chunkszToBytes h.endChunk (h.chunkSize c)), some (h.chunkMem c))

/-- Cuts what lies before `c` off a chunk and lists it as free. -/
def trimPrefix (h : ZHeap) (c0 c : Nat) : ZHeap :=
  if c0 < c then (h.splitChunks c0 c).freeListAdd c0 else h

/-- `sys_heap_aligned_alloc` from the point where `rew` and `gap` are known. -/
def allocPadded (h : ZHeap) (align rew gap bytes : Nat) : ZHeap × Option Nat :=
  if bytes = 0 ∨ sizeTooBig h.endChunk bytes then (h, none)
  else
    let paddedSz := bytesToChunksz h.endChunk (sizeT (bytes + align - gap))
    let allocated := h.allocChunk paddedSz
    let c0 := allocated.2
    if c0 = 0 then (allocated.1, none)
    else
      let h := allocated.1
      let mem := roundUp (h.chunkMem c0 + rew) align - rew
      let stop := roundUp (mem + bytes) chunkUnit
      let c := h.memToChunkid mem
      let cEnd := (stop - h.base) / chunkUnit
      let h := ((h.trimPrefix c0 c).trimSuffix c cEnd).setChunkUsed c true
      (h.increaseAllocatedBytes (chunkszToBytes h.endChunk (h.chunkSize c)), some mem)

/-- The lowest bit of the argument, `align & -align`. -/
def rewind (align : Nat) : Nat :=
  align &&& (2 ^ 32 - align)

def sysHeapAlignedAlloc (h : ZHeap) (align bytes : Nat) : ZHeap × Option Nat :=
  let rew := rewind align
  if align ≠ rew then
    h.allocPadded (align - rew) rew (min rew (chunkHeaderBytes h.endChunk)) bytes
  else if align ≤ chunkHeaderBytes h.endChunk then
    h.sysHeapAlloc bytes
  else
    h.allocPadded align 0 (chunkHeaderBytes h.endChunk) bytes

/-! ### Resizing -/

/-- Shrink in place: split off and free the unused suffix. -/
def shrinkChunk (h : ZHeap) (c chunksNeed : Nat) : ZHeap :=
  let h := h.subAllocatedBytes ((h.chunkSize c - chunksNeed) * chunkUnit)
  let h := h.splitChunks c (c + chunksNeed)
  let h := h.setChunkUsed c true
  h.freeChunk (c + chunksNeed)

/-- Expand: split the right chunk and append. -/
def growChunk (h : ZHeap) (c rc chunksNeed : Nat) : ZHeap :=
  let splitSize := chunksNeed - h.chunkSize c
  let h := h.increaseAllocatedBytes (splitSize * chunkUnit)
  let h := h.freeListRemove rc
  let h :=
    if splitSize < h.chunkSize rc then
      (h.splitChunks rc (rc + splitSize)).freeListAdd (rc + splitSize)
    else h
  let h := h.mergeChunks c rc
  h.setChunkUsed c true

/-- Allocate and copy. -/
def moveBlock (h : ZHeap) (ptr c alignGap align bytes : Nat) : ZHeap × Option Nat :=
  let moved := h.sysHeapAlignedAlloc align bytes
  match moved.2 with
  | none => (moved.1, none)
  | some ptr2 =>
      let h := moved.1
      let prevSize := chunkszToBytes h.endChunk (h.chunkSize c) - alignGap
      let h :=
        { h with
          memory := copyBytes h.memory (ptr2 - h.base) (ptr - h.base) (min prevSize bytes) }
      (h.sysHeapFree (some ptr), some ptr2)

/-- The block does not have the alignment that a resize asks for. -/
def misaligned (ptr align : Nat) : Bool :=
  align ≠ 0 ∧ ptr &&& (align - 1) ≠ 0

/-- `sys_heap_aligned_realloc` of a block to `bytes`, past its special cases. -/
def resize (h : ZHeap) (ptr align bytes : Nat) : ZHeap × Option Nat :=
  let c := h.memToChunkid ptr
  let rc := h.rightChunk c
  let alignGap := ptr - h.chunkMem c
  let chunksNeed := bytesToChunksz h.endChunk (bytes + alignGap)
  if misaligned ptr align then
    h.moveBlock ptr c alignGap align bytes
  else if h.chunkSize c = chunksNeed then
    (h, some ptr)
  else if chunksNeed < h.chunkSize c then
    (h.shrinkChunk c chunksNeed, some ptr)
  else if !h.chunkUsed rc ∧ chunksNeed ≤ h.chunkSize c + h.chunkSize rc then
    (h.growChunk c rc chunksNeed, some ptr)
  else
    h.moveBlock ptr c alignGap align bytes

/-- `resize` takes its last way, which allocates. -/
def resizeMoves (h : ZHeap) (ptr align bytes : Nat) : Bool :=
  let c := h.memToChunkid ptr
  let rc := h.rightChunk c
  let chunksNeed := bytesToChunksz h.endChunk (bytes + (ptr - h.chunkMem c))
  misaligned ptr align
  || (h.chunkSize c < chunksNeed
    && (h.chunkUsed rc || h.chunkSize c + h.chunkSize rc < chunksNeed))

def sysHeapAlignedRealloc (h : ZHeap) (ptr : Option Nat) (align bytes : Nat)
    : ZHeap × Option Nat :=
  match ptr with
  | none => h.sysHeapAlignedAlloc align bytes
  | some ptr =>
      if bytes = 0 then (h.sysHeapFree (some ptr), none)
      else if sizeTooBig h.endChunk bytes then (h, none)
      else h.resize ptr align bytes

end ZHeap

/-! ### Creating a heap -/

/-- The address of the heap in a buffer at `mem`. -/
def heapBase (mem : Nat) : Nat :=
  roundUp mem chunkUnit

/-- `heap_sz` of `sys_heap_init`. -/
def heapSize (mem bytes : Nat) : Nat :=
  (roundDown (mem + (bytes - heapFooterBytes bytes)) chunkUnit - heapBase mem) / chunkUnit

/-- The buffer lies in the address space and passes the assertions and the check of
`sys_heap_init`.
-/
structure InitAccepts (mem bytes : Nat) : Prop where
  representable : bytes < 2 ^ 32
  addressable : mem + bytes ≤ 2 ^ 32
  footer : heapFooterBytes bytes < bytes
  start : heapBase mem < roundDown (mem + (bytes - heapFooterBytes bytes)) chunkUnit
  header : chunksz zHeapBytes < heapSize mem bytes
  room : chunk0Size (heapSize mem bytes) + minChunkSize (heapSize mem bytes) ≤ heapSize mem bytes

instance (mem bytes : Nat) : Decidable (InitAccepts mem bytes) :=
  decidable_of_iff
    (bytes < 2 ^ 32
      ∧ mem + bytes ≤ 2 ^ 32
      ∧ heapFooterBytes bytes < bytes
      ∧ heapBase mem < roundDown (mem + (bytes - heapFooterBytes bytes)) chunkUnit
      ∧ chunksz zHeapBytes < heapSize mem bytes
      ∧ chunk0Size (heapSize mem bytes) + minChunkSize (heapSize mem bytes) ≤ heapSize mem bytes)
    ⟨fun ⟨a, b, c, d, e, f⟩ => ⟨a, b, c, d, e, f⟩, fun ⟨a, b, c, d, e, f⟩ => ⟨a, b, c, d, e, f⟩⟩

/-- `sys_heap_init` over a buffer with any contents. -/
def sysHeapInit (memory : Memory) (mem bytes : Nat) : ZHeap :=
  let heapSz := heapSize mem bytes
  let h : ZHeap := { base := heapBase mem, memory := memory }
  let h := h.setEndChunk heapSz
  let h := h.setAvailBuckets 0
  let chunk0 := chunk0Size heapSz
  let h := (List.range (nbBuckets heapSz)).foldl (fun h i => h.setBucketNext i 0) h
  -- the chunk that holds the heap's own header
  let h := h.setChunkSize 0 chunk0
  let h := h.setLeftChunkSize 0 0
  let h := h.setChunkUsed 0 true
  -- the chunk that is the free heap
  let h := h.setChunkSize chunk0 (heapSz - chunk0)
  let h := h.setLeftChunkSize chunk0 chunk0
  -- the end marker
  let h := h.setChunkSize heapSz 0
  let h := h.setLeftChunkSize heapSz (heapSz - chunk0)
  let h := h.setChunkUsed heapSz true
  h.freeListAdd chunk0

end Zephyr.Heap
