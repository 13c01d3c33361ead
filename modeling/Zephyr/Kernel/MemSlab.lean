import Zephyr.Kernel.Waiting
import Zephyr.Library.Memory
import Zephyr.Library.Run

/-! The memory slab of `mem_slab.c`, whose free blocks hold the links of the free list. -/

namespace Zephyr.Kernel.MemSlab

open Zephyr.Library Zephyr.Kernel.Waiting

/-- `sizeof(void *)` -/
def ptrSize : Nat := 4

/-- `struct k_mem_slab`; addresses are numbers and 0 is `NULL`. -/
structure KMemSlab where
  waitQ : WaitQ Unit
  buffer : Nat
  freeList : Nat
  numBlocks : UInt32
  blockSize : Nat
  numUsed : UInt32

/-- The loop of `create_free_list` over the blocks that are left, from `p` on. -/
def linkBlocks (blockSize : Nat) : Nat → Memory → Nat → Nat → Memory × Nat
  | 0, memory, freeList, _ => (memory, freeList)
  | left + 1, memory, freeList, p =>
      linkBlocks blockSize left (store memory p ptrSize freeList) p (p + blockSize)

/-- `create_free_list`, which gives the memory and the new head. -/
def createFreeList (memory : Memory) (slab : KMemSlab) : Except Int (Memory × KMemSlab) :=
  if (slab.blockSize ||| slab.buffer) &&& (ptrSize - 1) ≠ 0 then .error (-einval)
  else
    let (memory, freeList) :=
      linkBlocks slab.blockSize slab.numBlocks.toNat memory 0 slab.buffer
    .ok (memory, { slab with freeList := freeList })

def kMemSlabInit (prio : Nat → Int) (memory : Memory) (buffer blockSize : Nat)
    (numBlocks : UInt32)
    : Except Int (Memory × KMemSlab) :=
  createFreeList memory
    { waitQ := .init prio
      buffer := buffer
      freeList := 0
      numBlocks := numBlocks
      blockSize := blockSize
      numUsed := 0 }

/-- A call of `k_mem_slab_alloc` that has its result; `mem` is what it stores for the caller. -/
structure Return where
  thread : Nat
  result : Int
  mem : Option Nat
  deriving DecidableEq, Repr

def kMemSlabAlloc (memory : Memory) (slab : KMemSlab) (thread : Nat) (timeout : KTimeout)
    : KMemSlab × List Return :=
  if slab.freeList ≠ 0 then
    ({ slab with
        freeList := load memory slab.freeList ptrSize
        numUsed := slab.numUsed + 1 },
      [⟨thread, 0, some slab.freeList⟩])
  else if timeout = kNoWait then (slab, [⟨thread, -enomem, some 0⟩])
  else ({ slab with waitQ := slab.waitQ.zPendCurr ⟨thread, timeout, ()⟩ }, [])

/-- The end of `k_mem_slab_free`, which puts the block into the free list. -/
def release (memory : Memory) (slab : KMemSlab) (mem : Nat) : Memory × KMemSlab :=
  (store memory mem ptrSize slab.freeList,
    { slab with freeList := mem, numUsed := slab.numUsed - 1 })

def kMemSlabFree (memory : Memory) (slab : KMemSlab) (mem : Nat)
    : Memory × KMemSlab × List Return :=
  if slab.freeList = 0 then
    match slab.waitQ.zUnpendFirstThread with
    | (some pendingThread, waitQ) =>
        (memory, { slab with waitQ := waitQ }, [⟨pendingThread.thread, 0, some mem⟩])
    | (none, _) =>
        let (memory, slab) := release memory slab mem
        (memory, slab, [])
  else
    let (memory, slab) := release memory slab mem
    (memory, slab, [])

/-! ### Interleavings -/

inductive Call where
  | alloc (thread : Nat) (timeout : KTimeout)
  | free (thread mem : Nat)
  | write (thread mem offset : Nat) (value : UInt8)
  | event (event : Event)
  deriving DecidableEq, Repr

/-- A block that a caller was given and has not freed. -/
structure Lease where
  thread : Nat
  mem : Nat
  deriving DecidableEq, Repr

structure System where
  memory : Memory
  slab : KMemSlab
  owned : List Lease

/-- The leases that begin with calls that ended. -/
def granted (returns : List Return) : List Lease :=
  returns.filterMap fun call => if call.result = 0 then call.mem.map (⟨call.thread, ·⟩) else none

/-- Callers free and write the blocks that they own. -/
def step (system : System) : Call → Option System
  | .alloc thread timeout =>
      if system.slab.waitQ.mayCall thread timeout then
        let (slab, returns) := kMemSlabAlloc system.memory system.slab thread timeout
        some { system with slab := slab, owned := system.owned ++ granted returns }
      else none
  | .free thread mem =>
      if ⟨thread, mem⟩ ∈ system.owned then
        let (memory, slab, returns) := kMemSlabFree system.memory system.slab mem
        some
          { memory := memory
            slab := slab
            owned := system.owned.erase ⟨thread, mem⟩ ++ granted returns }
      else none
  | .write thread mem offset value =>
      if ⟨thread, mem⟩ ∈ system.owned ∧ offset < system.slab.blockSize then
        some { system with memory := Function.update system.memory (mem + offset) value }
      else none
  | .event event =>
      (system.slab.waitQ.event event).map fun (_, waitQ) =>
        { system with slab := { system.slab with waitQ := waitQ } }

def System.start (made : Memory × KMemSlab) : System where
  memory := made.1
  slab := made.2
  owned := []

/-- Following the links from `p` gives these blocks. -/
def Linked (memory : Memory) : Nat → List Nat → Prop
  | p, [] => p = 0
  | p, block :: rest => p = block ∧ block ≠ 0 ∧ Linked memory (load memory block ptrSize) rest

/-- The block with a number. -/
def KMemSlab.slot (slab : KMemSlab) (index : Nat) : Nat :=
  slab.buffer + index * slab.blockSize

/-- What `k_mem_slab_init` sets once and for all. -/
def KMemSlab.layout (slab : KMemSlab) : Nat × Nat × UInt32 :=
  (slab.buffer, slab.blockSize, slab.numBlocks)

/-- The buffer is an object in memory whose blocks are as large as a link at least. -/
structure Placed (buffer blockSize : Nat) (numBlocks : UInt32) : Prop where
  somewhere : 0 < buffer
  inside : buffer + numBlocks.toNat * blockSize ≤ 2 ^ 32
  sized : ptrSize ≤ blockSize

/-- Every block is free or owned, once; `free` are the blocks of the free list. -/
structure Sound (system : System) (free : List Nat) : Prop where
  placed : Placed system.slab.buffer system.slab.blockSize system.slab.numBlocks
  linked : Linked system.memory system.slab.freeList free
  distinct : (free ++ system.owned.map Lease.mem).Nodup
  slots
    : ∀ block ∈ free ++ system.owned.map Lease.mem,
        ∃ index < system.slab.numBlocks.toNat, block = system.slab.slot index
  counted : free.length + system.slab.numUsed.toNat = system.slab.numBlocks.toNat
  used : system.owned.length = system.slab.numUsed.toNat
  waiting : system.slab.waitQ.waiters ≠ [] → free = []

/-! ### Links -/

theorem Linked.of_agree {memory other : Memory} {p : Nat} {blocks : List Nat}
    (linked : Linked memory p blocks)
    (agree : ∀ block ∈ blocks, load other block ptrSize = load memory block ptrSize)
    : Linked other p blocks := by
  induction blocks generalizing p with
  | nil => exact linked
  | cons block rest ih =>
      obtain ⟨isBlock, somewhere, behind⟩ := linked
      refine ⟨isBlock, somewhere, ?_⟩
      rw [agree block List.mem_cons_self]
      exact ih behind fun other member => agree other (List.mem_cons_of_mem _ member)

theorem Linked.eq_nil_iff {memory : Memory} {p : Nat} {blocks : List Nat}
    (linked : Linked memory p blocks)
    : p = 0 ↔ blocks = [] := by
  cases blocks with
  | nil => exact iff_of_true linked rfl
  | cons block rest =>
      obtain ⟨isBlock, somewhere, _⟩ := linked
      exact iff_of_false (isBlock ▸ somewhere) (List.cons_ne_nil _ _)

theorem Placed.slot_lt {slab : KMemSlab}
    (placed : Placed slab.buffer slab.blockSize slab.numBlocks) {index : Nat}
    (inside : index < slab.numBlocks.toNat)
    : 0 < slab.slot index ∧ slab.slot index < 2 ^ 32 := by
  obtain ⟨somewhere, fits, sized⟩ := placed
  have last := Nat.mul_le_mul_right slab.blockSize (Nat.succ_le_of_lt inside)
  rw [Nat.succ_mul] at last
  unfold KMemSlab.slot
  unfold ptrSize at sized
  omega

theorem Placed.slot_injective {slab : KMemSlab}
    (placed : Placed slab.buffer slab.blockSize slab.numBlocks)
    : Function.Injective slab.slot := by
  intro left right same
  have sized := placed.sized
  unfold ptrSize at sized
  exact Nat.eq_of_mul_eq_mul_right (by omega) (Nat.add_left_cancel same)

/-- Different blocks do not overlap. -/
theorem slot_apart {slab : KMemSlab} {left right : Nat} (different : slab.slot left ≠ slab.slot right)
    : slab.slot left + slab.blockSize ≤ slab.slot right
      ∨ slab.slot right + slab.blockSize ≤ slab.slot left := by
  unfold KMemSlab.slot at *
  rcases Nat.lt_trichotomy left right with less | rfl | more
  · have := Nat.mul_le_mul_right slab.blockSize (Nat.succ_le_of_lt less)
    rw [Nat.succ_mul] at this
    omega
  · exact absurd rfl different
  · have := Nat.mul_le_mul_right slab.blockSize (Nat.succ_le_of_lt more)
    rw [Nat.succ_mul] at this
    omega

theorem load_of_slot {slab : KMemSlab}
    (placed : Placed slab.buffer slab.blockSize slab.numBlocks) {memory other : Memory}
    {left right : Nat} (different : slab.slot left ≠ slab.slot right)
    (outside
      : ∀ place,
          place < slab.slot left ∨ slab.slot left + slab.blockSize ≤ place
          → other place = memory place)
    : load other (slab.slot right) ptrSize = load memory (slab.slot right) ptrSize := by
  refine load_congr fun place low high => outside place ?_
  have sized := placed.sized
  have apart := slot_apart different
  omega

theorem linkBlocks_linked {slab : KMemSlab}
    (placed : Placed slab.buffer slab.blockSize slab.numBlocks) {memory : Memory}
    {left done freeList : Nat} (all : done + left = slab.numBlocks.toNat)
    (linked : Linked memory freeList ((List.range done).reverse.map slab.slot))
    : Linked (linkBlocks slab.blockSize left memory freeList (slab.slot done)).1
        (linkBlocks slab.blockSize left memory freeList (slab.slot done)).2
        ((List.range slab.numBlocks.toNat).reverse.map slab.slot) := by
  induction left generalizing done memory freeList with
  | zero =>
      rw [← all]
      exact linked
  | succ left ih =>
      rw [linkBlocks]
      have next : slab.slot done + slab.blockSize = slab.slot (done + 1) := by
        unfold KMemSlab.slot
        rw [Nat.succ_mul]
        omega
      rw [next]
      refine ih (by omega) ?_
      rw [List.range_succ, List.reverse_append, List.reverse_singleton, List.singleton_append,
        List.map_cons]
      have small : freeList < 256 ^ ptrSize := by
        cases isDone : done with
        | zero =>
            rw [isDone] at linked
            have none : freeList = 0 := linked
            rw [none]
            decide
        | succ before =>
            rw [isDone, List.range_succ, List.reverse_append, List.reverse_singleton,
              List.singleton_append, List.map_cons] at linked
            rw [linked.1]
            exact (placed.slot_lt (by omega)).2
      refine ⟨rfl, Nat.ne_of_gt (placed.slot_lt (by omega)).1, ?_⟩
      rw [load_store_of_lt small]
      refine linked.of_agree fun block member => ?_
      obtain ⟨index, inRange, rfl⟩ := List.mem_map.mp member
      have before := List.mem_range.mp (List.mem_reverse.mp inRange)
      have different : slab.slot done ≠ slab.slot index :=
        fun same => Nat.ne_of_gt before (placed.slot_injective same)
      refine load_of_slot placed different fun place outside => store_outside ?_
      have sized := placed.sized
      omega

theorem start_sound {prio : Nat → Int} {memory : Memory} {buffer blockSize : Nat}
    {numBlocks : UInt32} {made : Memory × KMemSlab} (placed : Placed buffer blockSize numBlocks)
    (initialised : kMemSlabInit prio memory buffer blockSize numBlocks = .ok made)
    : ∃ free, Sound (.start made) free := by
  unfold kMemSlabInit createFreeList at initialised
  split at initialised
  · exact nomatch initialised
  · simp only [Except.ok.injEq] at initialised
    subst initialised
    generalize isSlab : ({
        waitQ := WaitQ.init prio
        buffer := buffer
        freeList := 0
        numBlocks := numBlocks
        blockSize := blockSize
        numUsed := 0 } : KMemSlab) = slab
    have placed : Placed slab.buffer slab.blockSize slab.numBlocks := by
      rw [← isSlab]
      exact placed
    have nothing : Linked memory 0 ((List.range 0).reverse.map slab.slot) := rfl
    have linked := linkBlocks_linked placed (Nat.zero_add _) nothing
    have first : slab.slot 0 = slab.buffer := by simp [KMemSlab.slot]
    rw [first] at linked
    refine ⟨(List.range slab.numBlocks.toNat).reverse.map slab.slot, ?_⟩
    have distinct : ((List.range slab.numBlocks.toNat).reverse.map slab.slot).Nodup :=
      (List.nodup_reverse.mpr List.nodup_range).map placed.slot_injective
    subst isSlab
    refine ⟨placed, linked, ?_, ?_, ?_, rfl, fun pended => absurd rfl pended⟩
    · simpa only [System.start, List.map_nil, List.append_nil] using distinct
    · intro block member
      simp only [System.start, List.map_nil, List.append_nil] at member
      obtain ⟨index, inRange, rfl⟩ := List.mem_map.mp member
      exact ⟨index, List.mem_range.mp (List.mem_reverse.mp inRange), rfl⟩
    · simp [System.start]

/-! ### Calls -/

theorem alloc_sound {system next : System} {free : List Nat} {thread : Nat} {timeout : KTimeout}
    (sound : Sound system free) (stepped : step system (.alloc thread timeout) = some next)
    : ∃ rest, Sound next rest := by
  simp only [step] at stepped
  split at stepped
  · simp only [Option.some.injEq] at stepped
    subst stepped
    unfold kMemSlabAlloc
    by_cases available : system.slab.freeList ≠ 0
    · simp only [available, ne_eq, not_false_eq_true, if_true]
      cases free with
      | nil => exact absurd sound.linked available
      | cons block rest =>
          obtain ⟨isBlock, somewhere, behind⟩ := sound.linked
          have granted : granted [⟨thread, 0, some system.slab.freeList⟩]
              = [⟨thread, block⟩] := by
            rw [isBlock]
            rfl
          -- The block goes from the free list to the caller.
          have moved : (rest ++ (system.owned ++ [(⟨thread, block⟩ : Lease)]).map Lease.mem).Perm
              (block :: rest ++ system.owned.map Lease.mem) := by
            rw [List.map_append, ← List.append_assoc]
            exact (List.perm_append_comm).trans (List.Perm.refl _)
          have counted := sound.counted
          rw [List.length_cons] at counted
          have more : (system.slab.numUsed + 1).toNat = system.slab.numUsed.toNat + 1 := by
            have small := system.slab.numBlocks.toNat_lt
            rw [UInt32.toNat_add, UInt32.toNat_one]
            omega
          refine ⟨rest, sound.placed, ?_, ?_, ?_, ?_, ?_, ?_⟩
          · rw [isBlock]
            exact behind
          · rw [granted, moved.nodup_iff]
            exact sound.distinct
          · rw [granted]
            intro other member
            exact sound.slots other (moved.mem_iff.mp member)
          · dsimp only
            omega
          · simp only [granted, List.length_append, List.length_singleton, sound.used, more]
          · intro pended
            exact absurd (sound.waiting pended) (List.cons_ne_nil _ _)
    · simp only [available, if_false]
      have none : free = [] := sound.linked.eq_nil_iff.mp (not_not.mp available)
      split
      · refine ⟨free, ?_⟩
        have nothing : granted [⟨thread, -enomem, some 0⟩] = [] := rfl
        rw [nothing, List.append_nil]
        exact sound
      · refine ⟨free, ?_⟩
        have nothing : granted [] = [] := rfl
        rw [nothing, List.append_nil]
        exact { sound with waiting := fun _ => none }
  · exact nomatch stepped

theorem release_sound {system : System} {free : List Nat} {thread mem : Nat}
    (sound : Sound system free) (owned : ⟨thread, mem⟩ ∈ system.owned)
    (alone : system.slab.waitQ.waiters = [])
    : Sound
        { memory := (release system.memory system.slab mem).1
          slab := (release system.memory system.slab mem).2
          owned := system.owned.erase ⟨thread, mem⟩ }
        (mem :: free) := by
  have left := List.perm_cons_erase owned
  have moved : (mem :: free ++ (system.owned.erase ⟨thread, mem⟩).map Lease.mem).Perm
      (free ++ system.owned.map Lease.mem) := by
    refine List.Perm.trans ?_ ((left.map _).symm.append_left free)
    exact List.perm_middle.symm
  have distinct := moved.nodup_iff.mpr sound.distinct
  have isSlot := sound.slots mem (moved.mem_iff.mp List.mem_cons_self)
  obtain ⟨index, inside, rfl⟩ := isSlot
  have length := left.length_eq
  rw [List.length_cons, sound.used] at length
  have fewer : (system.slab.numUsed - 1).toNat = system.slab.numUsed.toNat - 1 := by
    have one : (1 : UInt32) ≤ system.slab.numUsed := by
      rw [UInt32.le_iff_toNat_le, UInt32.toNat_one]
      omega
    rw [UInt32.toNat_sub_of_le _ _ one]
    rfl
  have small : system.slab.freeList < 256 ^ ptrSize := by
    cases free with
    | nil =>
        have none : system.slab.freeList = 0 := sound.linked
        rw [none]
        decide
    | cons block rest =>
        obtain ⟨other, bound, isOther⟩ :=
          sound.slots block (List.mem_append_left _ List.mem_cons_self)
        rw [sound.linked.1, isOther]
        exact (sound.placed.slot_lt bound).2
  refine ⟨sound.placed, ⟨rfl, ?_, ?_⟩, distinct, ?_, ?_, ?_, fun pended => absurd alone pended⟩
  · exact Nat.ne_of_gt (sound.placed.slot_lt inside).1
  · simp only [release]
    rw [load_store_of_lt small]
    refine sound.linked.of_agree fun block member => ?_
    obtain ⟨other, bound, rfl⟩ := sound.slots block (List.mem_append_left _ member)
    have different : system.slab.slot index ≠ system.slab.slot other := by
      intro same
      rw [List.cons_append, List.nodup_cons] at distinct
      exact distinct.1 (List.mem_append_left _ (same ▸ member))
    refine load_of_slot sound.placed different fun place outside => store_outside ?_
    have sized := sound.placed.sized
    omega
  · intro block member
    exact sound.slots block (moved.mem_iff.mp member)
  · have counted := sound.counted
    simp only [release, List.length_cons, fewer]
    omega
  · simp only [release, fewer]
    omega

theorem kMemSlabFree_released {memory : Memory} {slab : KMemSlab} {mem : Nat}
    (alone : slab.waitQ.waiters = [])
    : kMemSlabFree memory slab mem
      = ((release memory slab mem).1, (release memory slab mem).2, []) := by
  simp only [kMemSlabFree, WaitQ.zUnpendFirstThread, alone, ite_self]

theorem kMemSlabFree_handed {memory : Memory} {slab : KMemSlab} {mem : Nat}
    {pendingThread : Waiter Unit} {rest : List (Waiter Unit)} (none : slab.freeList = 0)
    (waiting : slab.waitQ.waiters = pendingThread :: rest)
    : kMemSlabFree memory slab mem
      = (memory, { slab with waitQ := { slab.waitQ with waiters := rest } },
          [⟨pendingThread.thread, 0, some mem⟩]) := by
  rw [kMemSlabFree, if_pos none, WaitQ.zUnpendFirstThread, waiting]

theorem free_sound {system next : System} {free : List Nat} {thread mem : Nat}
    (sound : Sound system free) (stepped : step system (.free thread mem) = some next)
    : ∃ rest, Sound next rest := by
  simp only [step] at stepped
  split at stepped
  · rename_i owned
    simp only [Option.some.injEq] at stepped
    subst stepped
    cases isWaiters : system.slab.waitQ.waiters with
    | nil =>
        have nothing : granted [] = [] := rfl
        refine ⟨mem :: free, ?_⟩
        rw [kMemSlabFree_released isWaiters, nothing, List.append_nil]
        exact release_sound sound owned isWaiters
    | cons pendingThread rest =>
        -- The block goes from one caller to the other.
        have isFree : free = [] := by
          refine sound.waiting ?_
          rw [isWaiters]
          exact List.cons_ne_nil _ _
        have granted : granted [⟨pendingThread.thread, 0, some mem⟩]
            = [⟨pendingThread.thread, mem⟩] := rfl
        refine ⟨free, ?_⟩
        rw [kMemSlabFree_handed (sound.linked.eq_nil_iff.mpr isFree) isWaiters, granted]
        have left := List.perm_cons_erase owned
        have moved : (free
              ++ (system.owned.erase ⟨thread, mem⟩
                  ++ [(⟨pendingThread.thread, mem⟩ : Lease)]).map Lease.mem).Perm
            (free ++ system.owned.map Lease.mem) := by
          refine List.Perm.append_left free ?_
          rw [List.map_append]
          exact List.perm_append_comm.trans (left.map Lease.mem).symm
        refine ⟨sound.placed, sound.linked, ?_, ?_, sound.counted, ?_, fun _ => isFree⟩
        · rw [moved.nodup_iff]
          exact sound.distinct
        · intro block member
          exact sound.slots block (moved.mem_iff.mp member)
        · have length := left.length_eq
          rw [List.length_cons] at length
          rw [List.length_append, List.length_singleton, ← length]
          exact sound.used
  · exact nomatch stepped

theorem write_sound {system next : System} {free : List Nat} {thread mem offset : Nat}
    {value : UInt8} (sound : Sound system free)
    (stepped : step system (.write thread mem offset value) = some next)
    : ∃ rest, Sound next rest := by
  simp only [step] at stepped
  split at stepped
  · rename_i enabled
    obtain ⟨owned, inside⟩ := enabled
    rw [← Option.some.inj stepped]
    have isOwned : mem ∈ system.owned.map Lease.mem := List.mem_map.mpr ⟨_, owned, rfl⟩
    obtain ⟨index, bound, rfl⟩ := sound.slots mem (List.mem_append_right _ isOwned)
    refine ⟨free, { sound with linked := ?_ }⟩
    refine sound.linked.of_agree fun block member => ?_
    obtain ⟨other, bound, rfl⟩ := sound.slots block (List.mem_append_left _ member)
    have different : system.slab.slot index ≠ system.slab.slot other := by
      intro same
      exact (List.disjoint_of_nodup_append sound.distinct) member (same ▸ isOwned)
    refine load_of_slot sound.placed different fun place outside => ?_
    exact Function.update_of_ne (by omega) _ _
  · exact nomatch stepped

theorem step_sound {system next : System} {call : Call} (sound : ∃ free, Sound system free)
    (stepped : step system call = some next)
    : ∃ free, Sound next free := by
  obtain ⟨free, sound⟩ := sound
  cases call with
  | alloc thread timeout => exact alloc_sound sound stepped
  | free thread mem => exact free_sound sound stepped
  | write thread mem offset value => exact write_sound sound stepped
  | event event =>
      obtain ⟨⟨timedOut, waitQ⟩, happened, rfl⟩ := Option.map_eq_some_iff.mp stepped
      refine ⟨free, { sound with waiting := fun pended => sound.waiting fun nobody => ?_ }⟩
      exact pended (WaitQ.event_eq_nil happened nobody)

theorem step_layout {system next : System} {call : Call} (stepped : step system call = some next)
    : next.slab.layout = system.slab.layout := by
  cases call with
  | alloc thread timeout =>
      simp only [step] at stepped
      split at stepped
      · rw [← Option.some.inj stepped]
        simp only [kMemSlabAlloc]
        split
        · rfl
        · split
          · rfl
          · rfl
      · exact nomatch stepped
  | free thread mem =>
      simp only [step] at stepped
      split at stepped
      · rw [← Option.some.inj stepped]
        simp only [kMemSlabFree, WaitQ.zUnpendFirstThread]
        cases system.slab.waitQ.waiters with
        | nil =>
            rw [ite_self]
            rfl
        | cons pendingThread rest =>
            split
            · rfl
            · rfl
      · exact nomatch stepped
  | write thread mem offset value =>
      simp only [step] at stepped
      split at stepped
      · rw [← Option.some.inj stepped]
      · exact nomatch stepped
  | event event =>
      obtain ⟨_, _, rfl⟩ := Option.map_eq_some_iff.mp stepped
      rfl

theorem kMemSlabInit_layout {prio : Nat → Int} {memory : Memory} {buffer blockSize : Nat}
    {numBlocks : UInt32} {made : Memory × KMemSlab}
    (initialised : kMemSlabInit prio memory buffer blockSize numBlocks = .ok made)
    : made.2.layout = (buffer, blockSize, numBlocks) := by
  unfold kMemSlabInit createFreeList at initialised
  split at initialised
  · exact nomatch initialised
  · rw [← Except.ok.inj initialised]
    rfl

/-- In every interleaving the free list has no repeated block and accounts for the blocks that are
not used, each block is a slot of the buffer with one owner at most, and threads wait only when
the free list is empty.
-/
theorem slab_accounts {prio : Nat → Int} {memory : Memory} {buffer blockSize : Nat}
    {numBlocks : UInt32} {made : Memory × KMemSlab} {calls : List Call} {final : System}
    (placed : Placed buffer blockSize numBlocks)
    (initialised : kMemSlabInit prio memory buffer blockSize numBlocks = .ok made)
    (ran : run step (.start made) calls = some final)
    : ∃ free,
        Linked final.memory final.slab.freeList free
        ∧ free.Nodup
        ∧ free.length + final.slab.numUsed.toNat = numBlocks.toNat
        ∧ (final.owned.map Lease.mem).Nodup
        ∧ (∀ lease ∈ final.owned, lease.mem ∉ free)
        ∧ (∀ lease ∈ final.owned,
            ∃ index < numBlocks.toNat, lease.mem = buffer + index * blockSize)
        ∧ (final.slab.waitQ.waiters ≠ [] → final.slab.freeList = 0) := by
  obtain ⟨free, sound⟩ := run_invariant (fun system => ∃ free, Sound system free) step_sound
    (start_sound placed initialised) ran
  have layout : final.slab.layout = (buffer, blockSize, numBlocks) :=
    run_invariant (fun system => system.slab.layout = (buffer, blockSize, numBlocks))
      (fun same stepped => (step_layout stepped).trans same) (kMemSlabInit_layout initialised) ran
  simp only [KMemSlab.layout, Prod.mk.injEq] at layout
  obtain ⟨isBuffer, isSize, isNumber⟩ := layout
  have distinct := List.nodup_append.mp sound.distinct
  have member : ∀ lease ∈ final.owned, lease.mem ∈ final.owned.map Lease.mem :=
    fun lease owned => List.mem_map.mpr ⟨lease, owned, rfl⟩
  refine ⟨free, sound.linked, distinct.1, ?_, distinct.2.1, ?_, ?_, ?_⟩
  · rw [← isNumber]
    exact sound.counted
  · intro lease owned isFree
    exact distinct.2.2 lease.mem isFree lease.mem (member lease owned) rfl
  · intro lease owned
    rw [← isBuffer, ← isSize, ← isNumber]
    exact sound.slots lease.mem (List.mem_append_right _ (member lease owned))
  · intro pended
    exact sound.linked.eq_nil_iff.mpr (sound.waiting pended)

def twoBlocks : List Call :=
  [.alloc 1 kNoWait, .alloc 2 kNoWait, .write 1 1008 0 255, .alloc 3 kForever, .free 1 1008,
    .free 2 1000]

/-- The block that the first caller frees goes to the third, which waits. -/
theorem twoBlocks_account
    : ∃ made final,
        kMemSlabInit (fun _ => 0) (fun _ => 0) 1000 8 2 = .ok made
        ∧ run step (.start made) twoBlocks = some final
        ∧ final.owned = [⟨3, 1008⟩]
        ∧ ∃ free,
            Linked final.memory final.slab.freeList free
            ∧ free.length + final.slab.numUsed.toNat = 2 := by
  have runs : ∃ made final,
      kMemSlabInit (fun _ => 0) (fun _ => 0) 1000 8 2 = .ok made
      ∧ run step (.start made) twoBlocks = some final
      ∧ final.owned = [⟨3, 1008⟩] := by
    refine ⟨_, _, rfl, rfl, ?_⟩
    decide +kernel
  obtain ⟨made, final, initialised, ran, owned⟩ := runs
  obtain ⟨free, linked, _, counted, _⟩ :=
    slab_accounts ⟨by decide, by decide, by decide⟩ initialised ran
  exact ⟨made, final, initialised, ran, owned, free, linked, counted⟩

/-- Blocks of no bytes are accepted, and then one block is given to two callers. -/
theorem empty_blocks_shared
    : ∃ made final,
        kMemSlabInit (fun _ => 0) (fun _ => 0) 1000 0 2 = .ok made
        ∧ run step (.start made) [.alloc 1 kNoWait, .alloc 2 kNoWait] = some final
        ∧ final.owned = [⟨1, 1000⟩, ⟨2, 1000⟩] := by
  refine ⟨_, _, rfl, rfl, ?_⟩
  decide +kernel

end Zephyr.Kernel.MemSlab
