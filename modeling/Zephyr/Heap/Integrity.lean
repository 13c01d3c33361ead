import Zephyr.Heap.Running

/-! Heaps stay well formed as long as no request is for a bucket that does not exist. -/

namespace Zephyr.Heap

open Library (Memory Tiles run RunMeets run_invariant_of_meets)

variable {base last : Nat} {state next : State}

/-! ### Each call -/

theorem sound_of_answered {h : ZHeap} {tiles : Tiles Bool} {live : List Block} {bytes : Nat}
    {aligned : Nat → Prop} {answer : ZHeap × Option Nat}
    (answered : Answered base last h tiles bytes aligned answer)
    (shape : Shape h base last tiles ∅) (sizes : Sizes last)
    (owned : Owned base last (usedSizes tiles) live)
    : Sound base last { heap := answer.1, live := grant live bytes answer.2 } := by
  obtain ⟨after, result⟩ := answer
  cases result with
  | none =>
      have edits : Edits base last ⟨h, tiles, ∅⟩ ⟨after, tiles, ∅⟩ := answered
      exact Sound.intro (edits.shape sizes shape) rfl owned
  | some mem =>
      obtain ⟨tiles', c, size, shape', used, fresh, notFirst, within⟩ :=
        answered.1.granted shape sizes
      exact Sound.intro shape' used (owned.grant fresh notFirst within)

theorem alignedAlloc_sound (sizes : Sizes last) (aligned : 8 ∣ base)
    (sound : Sound base last state) {align bytes : Nat}
    (inRange : AlignedInRange state.heap.endChunk align bytes)
    (stepped : state.alignedAlloc align bytes = some next)
    : Sound base last next := by
  obtain ⟨tiles, shape, owned⟩ := sound
  obtain ⟨lists, represented⟩ := id shape
  rw [represented.endChunk] at inRange
  rw [State.alignedAlloc] at stepped
  by_cases accepted : AlignAccepted align
  · rw [if_pos accepted] at stepped
    cases stepped
    have answered := sysHeapAlignedAlloc_answered sizes shape aligned accepted inRange
    exact sound_of_answered answered shape sizes owned
  · rw [if_neg accepted] at stepped
    cases stepped

theorem free_sound (sizes : Sizes last) (sound : Sound base last state) {block : Block}
    (member : block ∈ state.live)
    : Sound base last
        { heap := state.heap.sysHeapFree (some block.address),
          live := without state.live block.address } := by
  obtain ⟨tiles, shape, owned⟩ := sound
  obtain ⟨lists, represented⟩ := id shape
  obtain ⟨notFirst, size, found, within⟩ := owned.placed member
  have chunk := memToChunkid_eq represented.base represented.endChunk block.address
  obtain ⟨tiles', freed, used⟩ :=
    (sysHeapFree_released shape sizes (usedSizes_eq_some.mp found) notFirst chunk).shape shape
      sizes (usedSizes_eq_some.mp found) notFirst
  exact Sound.intro freed used (owned.release member)

theorem realloc_sound (sizes : Sizes last) (aligned : 8 ∣ base) (sound : Sound base last state)
    {address align bytes : Nat}
    (inRange : AsksInRange state (.alignedRealloc (some address) align bytes))
    (stepped : step state (.alignedRealloc (some address) align bytes) = some next)
    : Sound base last next := by
  rw [step] at stepped
  by_cases accepted : ReallocAccepted state address align
  · rw [if_pos accepted] at stepped
    obtain ⟨⟨block, member, rfl⟩, small, single⟩ := accepted
    rw [← Option.some.inj stepped]
    by_cases none : bytes = 0
    · rw [ZHeap.sysHeapAlignedRealloc, if_pos none, if_pos none]
      dsimp only
      exact free_sound sizes sound member
    · rw [if_neg none]
      have inRange := inRange.resolve_left none
      obtain ⟨tiles, shape, owned⟩ := sound
      by_cases big : sizeTooBig state.heap.endChunk bytes = true
      · rw [ZHeap.sysHeapAlignedRealloc, if_neg none, if_pos big]
        exact Sound.intro shape rfl owned
      · rw [ZHeap.sysHeapAlignedRealloc, if_neg none, if_neg big]
        obtain ⟨notFirst, size, found, within⟩ := owned.placed member
        have resized := (resize_route sizes shape aligned (usedSizes_eq_some.mp found) within
          small single (inRange.resolve_left big)).resized shape sizes
            (usedSizes_eq_some.mp found) notFirst within
        generalize state.heap.resize block.address align bytes = answer at resized ⊢
        obtain ⟨h, result⟩ := answer
        cases result with
        | none => exact Sound.intro resized rfl owned
        | some mem =>
            obtain ⟨⟨tiles', c, size', shape', used, fresh, notFirst', within'⟩, -⟩ := resized
            exact Sound.intro shape' used ((owned.release member).grant fresh notFirst' within')
  · rw [if_neg accepted] at stepped
    cases stepped

theorem write_shape {tiles : Tiles Bool} (sizes : Sizes last)
    (shape : Shape state.heap base last tiles ∅)
    (owned : Owned base last (usedSizes tiles) state.live) {address : Nat} {byte : UInt8}
    (stepped : step state (.write address byte) = some next)
    : Shape next.heap base last tiles ∅
      ∧ next.live = state.live
      ∧ next.heap.freeBytes = state.heap.freeBytes
      ∧ next.heap.allocatedBytes = state.heap.allocatedBytes := by
  rw [step] at stepped
  obtain ⟨inBlock, stepped⟩ := Option.ite_none_right_eq_some.mp stepped
  obtain ⟨block, member, lower, upper⟩ := inBlock
  obtain ⟨lists, represented⟩ := id shape
  obtain ⟨notFirst, size, found, within⟩ := owned.placed member
  have above := within.above
  have below := within.below
  cases stepped
  refine ⟨payload_shape _ shape sizes (usedSizes_eq_some.mp found) notFirst ?_, rfl, rfl, rfl⟩
  intro place outside
  rw [represented.base, Function.update_of_ne (by omega)]

theorem write_sound (sizes : Sizes last) (sound : Sound base last state) {address : Nat}
    {byte : UInt8} (stepped : step state (.write address byte) = some next)
    : Sound base last next := by
  obtain ⟨tiles, shape, owned⟩ := sound
  obtain ⟨shape', live, -, -⟩ := write_shape sizes shape owned stepped
  exact Sound.intro shape' rfl (live ▸ owned)

theorem step_sound (sizes : Sizes last) (aligned : 8 ∣ base) {call : Call}
    (sound : Sound base last state) (inRange : AsksInRange state call)
    (stepped : step state call = some next)
    : Sound base last next := by
  cases call with
  | alloc bytes =>
      cases stepped
      obtain ⟨tiles, shape, owned⟩ := sound
      obtain ⟨lists, represented⟩ := id shape
      rw [AsksInRange, represented.endChunk] at inRange
      have answered := sysHeapAlloc_answered sizes shape inRange
      exact sound_of_answered answered shape sizes owned
  | alignedAlloc align bytes => exact alignedAlloc_sound sizes aligned sound inRange stepped
  | alignedRealloc ptr align bytes =>
      cases ptr with
      | none => exact alignedAlloc_sound sizes aligned sound inRange stepped
      | some address => exact realloc_sound sizes aligned sound inRange stepped
  | free ptr =>
      cases ptr with
      | none =>
          cases stepped
          exact sound
      | some address =>
          rw [step] at stepped
          split at stepped
          case isFalse => cases stepped
          case isTrue isLive =>
              obtain ⟨block, member, rfl⟩ := isLive
              rw [← Option.some.inj stepped]
              exact free_sound sizes sound member
  | write address byte => exact write_sound sizes sound stepped

/-! ### Every run -/

/-- A heap just created in a buffer with any contents. -/
def created (memory : Memory) (mem bytes : Nat) : State :=
  { heap := sysHeapInit memory mem bytes, live := [] }

theorem created_sound {memory : Memory} {mem bytes : Nat} (accepts : InitAccepts mem bytes)
    : Sound (heapBase mem) (heapSize mem bytes) (created memory mem bytes) := by
  obtain ⟨sizes, -, -⟩ := heapSize_sizes accepts
  have chunk0 := sizes.chunk0
  refine Sound.intro (sysHeapInit_shape accepts) rfl ⟨?_, List.Pairwise.nil, ?_⟩
  · exact fun member => (List.not_mem_nil member).elim
  · intro c size found notFirst
    rw [usedSizes_eq_some, freshTiles_eq_some (by omega)] at found
    rcases found with ⟨isOwn, -, -⟩ | ⟨-, -, isFree⟩
    · exact (notFirst isOwn).elim
    · cases isFree

theorem run_sound {memory : Memory} {mem bytes : Nat} {calls : List Call} {final : State}
    (accepts : InitAccepts mem bytes)
    (asks : RunMeets step AsksInRange (created memory mem bytes) calls)
    (ran : run step (created memory mem bytes) calls = some final)
    : Sound (heapBase mem) (heapSize mem bytes) final := by
  obtain ⟨sizes, aligned, -⟩ := heapSize_sizes accepts
  exact run_invariant_of_meets (Sound (heapBase mem) (heapSize mem bytes))
    (fun sound inRange stepped => step_sound sizes aligned sound inRange stepped)
    (created_sound accepts) asks ran

/-- In every run whose requests are all in range the heap is well formed in every state, and
its chunks reach from chunk 0 to the end marker.
-/
theorem heap_stays_wellFormed {memory : Memory} {mem bytes : Nat} {calls : List Call}
    {final : State} (accepts : InitAccepts mem bytes)
    (asks : RunMeets step AsksInRange (created memory mem bytes) calls)
    (ran : run step (created memory mem bytes) calls = some final)
    : WellFormed final.heap ∧ Chunk final.heap final.heap.endChunk := by
  obtain ⟨sizes, aligned, -⟩ := heapSize_sizes accepts
  have wellFormed := (run_sound accepts asks ran).wellFormed sizes aligned
  exact ⟨wellFormed, wellFormed.chunk_marker⟩

theorem heap_stays_wellFormed_run
    : ∃ final,
        run step (created (fun _ => 0) 536870912 256)
            [.alloc 20, .alignedAlloc 64 10, .alloc 7, .free (some 536870956),
              .alignedRealloc (some 536870980) 0 30]
          = some final
        ∧ WellFormed final.heap
        ∧ Chunk final.heap final.heap.endChunk := by
  have accepts : InitAccepts 536870912 256 := by decide
  have asks : RunMeets step AsksInRange (created (fun _ => 0) 536870912 256)
      [.alloc 20, .alignedAlloc 64 10, .alloc 7, .free (some 536870956),
        .alignedRealloc (some 536870980) 0 30] := by decide +kernel
  have runs : (run step (created (fun _ => 0) 536870912 256)
      [.alloc 20, .alignedAlloc 64 10, .alloc 7, .free (some 536870956),
        .alignedRealloc (some 536870980) 0 30]).isSome := by decide +kernel
  obtain ⟨final, ran⟩ := Option.isSome_iff_exists.mp runs
  exact ⟨final, ran, heap_stays_wellFormed accepts asks ran⟩

/-- The heap in a buffer of 128 bytes has 4 buckets. A request for 117 bytes passes
`size_too_big`, asks for bucket 4, whose word is the header of chunk 4, and takes that header
for the head of a list: chunk 4 is left without a size.
-/
theorem alloc_past_the_buckets
    : InitAccepts 536870912 128
      ∧ ∃ final, run step (created (fun _ => 0) 536870912 128) [.alloc 117] = some final
          ∧ ¬WellFormed final.heap := by
  refine ⟨by decide, _, rfl, fun wellFormed => ?_⟩
  generalize after : ((created (fun _ => 0) 536870912 128).heap.sysHeapAlloc 117).1 = h
    at wellFormed
  dsimp only at wellFormed
  have reads : h.endChunk = 15 ∧ h.chunkSize 0 = 4 ∧ h.chunkSize 4 = 0 := by
    rw [← after]
    decide +kernel
  have walk : Chunk h (h.rightChunk 0) := Chunk.first.right (by omega)
  rw [ZHeap.rightChunk, reads.2.1, Nat.zero_add] at walk
  have positive := (wellFormed.tiled walk (by omega)).1
  omega

end Zephyr.Heap
