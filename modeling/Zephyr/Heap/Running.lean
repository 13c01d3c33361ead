import Zephyr.Heap.Creating
import Zephyr.Heap.Resizing
import Zephyr.Heap.WellFormed
import Zephyr.Library.Run

/-! Runs of the allocator: a heap in any accepted buffer, its calls, and writes of the users into
their blocks.
-/

namespace Zephyr.Heap

open Library (Memory Tiles run RunMeets run_invariant_of_meets)

/-- A block that a call has returned and that is not freed yet. -/
structure Block where
  address : Nat
  bytes : Nat
  deriving DecidableEq, Repr

structure State where
  heap : ZHeap
  live : List Block

inductive Call where
  | alloc (bytes : Nat)
  | alignedAlloc (align bytes : Nat)
  | alignedRealloc (ptr : Option Nat) (align bytes : Nat)
  | free (ptr : Option Nat)
  | write (address : Nat) (byte : UInt8)
  deriving DecidableEq, Repr

instance (align : Nat) : Decidable (AlignAccepted align) :=
  inferInstanceAs (Decidable (_ ∧ _))

/-- The live blocks after a call that asked for `bytes` bytes has returned. -/
def grant (live : List Block) (bytes : Nat) : Option Nat → List Block
  | none => live
  | some address => { address := address, bytes := bytes } :: live

def without (live : List Block) (address : Nat) : List Block :=
  live.filter fun block => block.address ≠ address

def State.alignedAlloc (state : State) (align bytes : Nat) : Option State :=
  if AlignAccepted align then
    let answer := state.heap.sysHeapAlignedAlloc align bytes
    some { heap := answer.1, live := grant state.live bytes answer.2 }
  else none

/-- The block is live and the alignment passes the assertion of `sys_heap_aligned_realloc`. -/
def ReallocAccepted (state : State) (address align : Nat) : Prop :=
  (∃ block ∈ state.live, block.address = address)
  ∧ align < 2 ^ 32
  ∧ align &&& (align - 1) = 0

instance (state : State) (address align : Nat)
    : Decidable (ReallocAccepted state address align) :=
  inferInstanceAs (Decidable (_ ∧ _))

/-- One call. It is not made with a pointer to no live block, with an alignment that breaks an
assertion, or to write outside the live blocks.
-/
def step (state : State) : Call → Option State
  | .alloc bytes =>
      let answer := state.heap.sysHeapAlloc bytes
      some { heap := answer.1, live := grant state.live bytes answer.2 }
  | .alignedAlloc align bytes => state.alignedAlloc align bytes
  | .alignedRealloc none align bytes => state.alignedAlloc align bytes
  | .alignedRealloc (some address) align bytes =>
      if ReallocAccepted state address align then
        let answer := state.heap.sysHeapAlignedRealloc (some address) align bytes
        let live :=
          if bytes = 0 then without state.live address
          else
            match answer.2 with
            | none => state.live
            | some moved => { address := moved, bytes := bytes } :: without state.live address
        some { heap := answer.1, live := live }
      else none
  | .free none => some { state with heap := state.heap.sysHeapFree none }
  | .free (some address) =>
      if ∃ block ∈ state.live, block.address = address then
        some
          { heap := state.heap.sysHeapFree (some address),
            live := without state.live address }
      else none
  | .write address byte =>
      if ∃ block ∈ state.live, block.address ≤ address ∧ address < block.address + block.bytes then
        some
          { state with
            heap :=
              { state.heap with
                memory := Function.update state.heap.memory (address - state.heap.base) byte } }
      else none

/-- The call asks `alloc_chunk` only for sizes that are counted without wrapping around and
that have a bucket.
-/
def AsksInRange (state : State) : Call → Prop
  | .alloc bytes =>
      InRange state.heap.endChunk bytes (bytesToChunksz state.heap.endChunk bytes)
  | .alignedAlloc align bytes => AlignedInRange state.heap.endChunk align bytes
  | .alignedRealloc none align bytes => AlignedInRange state.heap.endChunk align bytes
  | .alignedRealloc (some address) align bytes =>
      bytes = 0
      ∨ sizeTooBig state.heap.endChunk bytes = true
      ∨ ResizeInRange state.heap address align bytes
  | .free _ => True
  | .write _ _ => True

instance (state : State) : (call : Call) → Decidable (AsksInRange state call)
  | .alloc _ => inferInstanceAs (Decidable (InRange ..))
  | .alignedAlloc _ _ => inferInstanceAs (Decidable (AlignedInRange ..))
  | .alignedRealloc none _ _ => inferInstanceAs (Decidable (AlignedInRange ..))
  | .alignedRealloc (some _) _ _ => inferInstanceAs (Decidable (_ ∨ _ ∨ ResizeInRange ..))
  | .free _ => inferInstanceAs (Decidable True)
  | .write _ _ => inferInstanceAs (Decidable True)

/-! ### Live blocks and used chunks -/

variable {base last : Nat} {used : Nat → Option Nat} {live : List Block}

/-- Every live block lies in a used chunk of its own, and there are no other used chunks but
the heap's own.
-/
structure Owned (base last : Nat) (used : Nat → Option Nat) (live : List Block) : Prop where
  placed
    : ∀ {block}, block ∈ live
      → chunkOf base last block.address ≠ 0
        ∧ ∃ size,
            used (chunkOf base last block.address) = some size
            ∧ Within base last block.address block.bytes (chunkOf base last block.address) size
  distinct
    : live.Pairwise fun first second =>
        chunkOf base last first.address ≠ chunkOf base last second.address
  covered
    : ∀ {c size}, used c = some size → c ≠ 0
      → ∃ block ∈ live, chunkOf base last block.address = c

namespace Owned

theorem eq_of_chunk (owned : Owned base last used live) {first second : Block}
    (inFirst : first ∈ live) (inSecond : second ∈ live)
    (same : chunkOf base last first.address = chunkOf base last second.address)
    : first = second := by
  by_contra ne
  have symmetric : Std.Symm fun first second : Block =>
      chunkOf base last first.address ≠ chunkOf base last second.address := ⟨fun _ _ => Ne.symm⟩
  exact owned.distinct.forall inFirst inSecond ne same

theorem grant (owned : Owned base last used live) {mem bytes c size : Nat}
    (fresh : used c = none) (notFirst : c ≠ 0) (within : Within base last mem bytes c size)
    : Owned base last (Function.update used c (some size))
        ({ address := mem, bytes := bytes } :: live) := by
  have other : ∀ {block}, block ∈ live → chunkOf base last block.address ≠ c := by
    intro block member isC
    obtain ⟨-, size', found, -⟩ := owned.placed member
    rw [isC, fresh] at found
    cases found
  refine ⟨?_, ?_, ?_⟩
  · intro block member
    rcases List.mem_cons.mp member with rfl | member
    · rw [within.chunk, Function.update_self]
      exact ⟨notFirst, size, rfl, within⟩
    · obtain ⟨notFirst', size', found, within'⟩ := owned.placed member
      refine ⟨notFirst', size', ?_, within'⟩
      rw [Function.update_of_ne (other member), found]
  · refine List.pairwise_cons.mpr ⟨fun block member => ?_, owned.distinct⟩
    rw [within.chunk]
    exact (other member).symm
  · intro d size' found notFirst'
    by_cases isC : d = c
    · exact ⟨_, List.mem_cons_self, within.chunk.trans isC.symm⟩
    · rw [Function.update_of_ne isC] at found
      obtain ⟨block, member, chunk⟩ := owned.covered found notFirst'
      exact ⟨block, List.mem_cons_of_mem _ member, chunk⟩

theorem release (owned : Owned base last used live) {block : Block} (member : block ∈ live)
    : Owned base last (Function.update used (chunkOf base last block.address) none)
        (without live block.address) := by
  have other : ∀ {other}, other ∈ live → other.address ≠ block.address
      → chunkOf base last other.address ≠ chunkOf base last block.address := by
    intro other inLive ne same
    exact ne (congrArg Block.address (owned.eq_of_chunk inLive member same))
  refine ⟨?_, owned.distinct.filter _, ?_⟩
  · intro rest inRest
    obtain ⟨inLive, ne⟩ := List.mem_filter.mp inRest
    obtain ⟨notFirst, size, found, within⟩ := owned.placed inLive
    refine ⟨notFirst, size, ?_, within⟩
    rw [Function.update_of_ne (other inLive (by simpa using ne)), found]
  · intro c size found notFirst
    by_cases isC : c = chunkOf base last block.address
    · rw [isC, Function.update_self] at found
      cases found
    · rw [Function.update_of_ne isC] at found
      obtain ⟨rest, inLive, chunk⟩ := owned.covered found notFirst
      refine ⟨rest, List.mem_filter.mpr ⟨inLive, ?_⟩, chunk⟩
      have ne : rest.address ≠ block.address := fun same => isC (by rw [← chunk, same])
      simpa using ne

end Owned

/-- What holds of the heap at `base` with end chunk `last` between two calls. -/
def Sound (base last : Nat) (state : State) : Prop :=
  ∃ tiles, Shape state.heap base last tiles ∅ ∧ Owned base last (usedSizes tiles) state.live

theorem Sound.intro {heap : ZHeap} {live : List Block} {tiles : Tiles Bool}
    {used : Nat → Option Nat} (shape : Shape heap base last tiles ∅)
    (isUsed : usedSizes tiles = used) (owned : Owned base last used live)
    : Sound base last { heap := heap, live := live } :=
  ⟨tiles, shape, by rw [isUsed]; exact owned⟩

theorem Sound.wellFormed {state : State} (sound : Sound base last state) (sizes : Sizes last)
    (aligned : 8 ∣ base)
    : WellFormed state.heap := by
  obtain ⟨tiles, ⟨lists, shape⟩, -⟩ := sound
  exact shape.wellFormed sizes aligned

end Zephyr.Heap
