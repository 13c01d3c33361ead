import Zephyr.Kernel.Base
import Zephyr.Library.PackedBits
import Zephyr.Library.Run

/-! The multi-queue ready queue of `priority_q.h`, one list for each priority with a bitmap of those
that are not empty, and its equivalence to the sorted list of `z_priq_dumb_add`.
-/

namespace Zephyr.Kernel.Priq

open Zephyr.Library Zephyr.Library.PackedBits

/-- The numbers of priorities and the width of a word of the bitmap. -/
structure Config where
  numCoop : Nat
  numPreempt : Nat
  nbits : Nat
  coop_le : numCoop ≤ 128
  preempt_le : numPreempt ≤ 128
  nbits_pos : 0 < nbits

/-- `K_NUM_THREAD_PRIO` -/
def Config.numThreadPrio (config : Config) : Nat :=
  config.numPreempt + config.numCoop + 1

/-- `PRIQ_BITMAP_SIZE` -/
def Config.bitmapSize (config : Config) : Nat :=
  (config.numThreadPrio + (config.nbits - 1)) / config.nbits

/-- From `K_HIGHEST_THREAD_PRIO` to `K_LOWEST_THREAD_PRIO`, the idle thread's, as far as they go
into the `int8_t` of a thread.
-/
def Config.Supported (config : Config) (prio : Int) : Prop :=
  -config.numCoop ≤ prio ∧ prio ≤ config.numPreempt ∧ prio ≤ 127

instance (config : Config) (prio : Int) : Decidable (config.Supported prio) :=
  inferInstanceAs (Decidable (_ ∧ _ ∧ _))

structure PrioInfo where
  offsetPrio : Nat
  idx : Nat
  bit : Nat

/-- `get_prio_info`; `offset_prio` is a `uint8_t` and `K_HIGHEST_THREAD_PRIO` is `-numCoop`. -/
def Config.getPrioInfo (config : Config) (oldPrio : Int) : PrioInfo :=
  let offsetPrio := ((oldPrio - -config.numCoop) % 256).toNat
  { offsetPrio, idx := offsetPrio / config.nbits, bit := offsetPrio % config.nbits }

variable {config : Config} {α : Type}

/-- `struct _priq_mq` -/
structure PriqMq (config : Config) (α : Type) where
  queues : Nat → List α
  bitmask : List (BitVec config.nbits)
  length_eq : bitmask.length = config.bitmapSize

def PriqMq.empty : PriqMq config α where
  queues := fun _ => []
  bitmask := List.replicate config.bitmapSize 0
  length_eq := List.length_replicate

def PriqMq.setWord (pq : PriqMq config α) (idx : Nat) (word : BitVec config.nbits)
    : PriqMq config α :=
  { pq with
    bitmask := pq.bitmask.set idx word
    length_eq := by rw [List.length_set, pq.length_eq] }

def PriqMq.zPriqMqAdd (pq : PriqMq config α) (prio : α → Int) (thread : α) : PriqMq config α :=
  let pos := config.getPrioInfo (prio thread)
  { pq with
    queues := Function.update pq.queues pos.offsetPrio
      (pq.queues pos.offsetPrio ++ [thread]) }.setWord
    pos.idx (pq.bitmask.getD pos.idx 0 ||| BitVec.ofNat config.nbits 1 <<< pos.bit)

/-- `sys_dlist_remove` takes the thread out of the list that it is in. -/
def PriqMq.zPriqMqRemove [DecidableEq α] (pq : PriqMq config α) (prio : α → Int) (thread : α)
    : PriqMq config α :=
  let pos := config.getPrioInfo (prio thread)
  let removed := { pq with queues := fun index => (pq.queues index).erase thread }
  if removed.queues pos.offsetPrio = [] then
    removed.setWord pos.idx
      (pq.bitmask.getD pos.idx 0 &&& ~~~(BitVec.ofNat config.nbits 1 <<< pos.bit))
  else removed

/-- The loop of `z_priq_mq_best` over the words of the bitmap. -/
def PriqMq.bestFrom (pq : PriqMq config α) : List (BitVec config.nbits) → Nat → Option α
  | [], _ => none
  | word :: rest, i =>
      if word = 0 then pq.bestFrom rest (i + 1)
      else
        match (pq.queues (i * config.nbits + lowestSet word)).head? with
        | some thread => some thread
        | none => pq.bestFrom rest (i + 1)

def PriqMq.zPriqMqBest (pq : PriqMq config α) : Option α :=
  pq.bestFrom pq.bitmask 0

/-! ### Both queues -/

/-- The threads' priorities with both kinds of ready queue. -/
structure Queues (config : Config) (α : Type) where
  prio : α → Int
  mq : PriqMq config α
  dumb : List α

inductive Op (α : Type) where
  | add (thread : α) (prio : Int)
  | remove (thread : α)
  deriving DecidableEq, Repr

/-- A thread that is not queued is added with a priority of its own; one that is queued is
removed.
-/
def step [DecidableEq α] (state : Queues config α) : Op α → Option (Queues config α)
  | .add thread prio =>
      if thread ∈ state.dumb ∨ ¬config.Supported prio then none
      else
        let prios := Function.update state.prio thread prio
        some
          { prio := prios
            mq := state.mq.zPriqMqAdd prios thread
            dumb := zPriqDumbAdd prios thread state.dumb }
  | .remove thread =>
      if thread ∈ state.dumb then
        some
          { state with
            mq := state.mq.zPriqMqRemove state.prio thread
            dumb := state.dumb.erase thread }
      else none

def start : Queues config α where
  prio := fun _ => 0
  mq := .empty
  dumb := []

/-- Each list holds the threads of its priority in the order of the sorted list, and the bitmap
marks the lists that are not empty.
-/
structure Simulates (state : Queues config α) : Prop where
  nodup : state.dumb.Nodup
  sorted : state.dumb.Pairwise fun left right => state.prio left ≤ state.prio right
  supported : ∀ thread ∈ state.dumb, config.Supported (state.prio thread)
  lists
    : ∀ index : Nat,
        state.mq.queues index
        = state.dumb.filter fun thread => state.prio thread = index - config.numCoop
  marked : ∀ index, bitAt state.mq.bitmask index = true ↔ state.mq.queues index ≠ []

theorem offsetPrio_eq {prio : Int} (supported : config.Supported prio)
    : ((config.getPrioInfo prio).offsetPrio : Int) = prio + config.numCoop
      ∧ (config.getPrioInfo prio).offsetPrio < config.numThreadPrio := by
  have coop := config.coop_le
  obtain ⟨low, high, byte⟩ := supported
  simp only [Config.getPrioInfo, Config.numThreadPrio]
  omega

theorem idx_eq (prio : Int)
    : (config.getPrioInfo prio).idx = (config.getPrioInfo prio).offsetPrio / config.nbits := rfl

theorem bit_eq (prio : Int)
    : (config.getPrioInfo prio).bit = (config.getPrioInfo prio).offsetPrio % config.nbits := rfl

theorem eq_offsetPrio_iff {prio : Int} (supported : config.Supported prio) (index : Nat)
    : prio = index - config.numCoop ↔ index = (config.getPrioInfo prio).offsetPrio := by
  have offset := (offsetPrio_eq supported).1
  omega

theorem idx_lt {prio : Int} (supported : config.Supported prio)
    : (config.getPrioInfo prio).idx < config.bitmapSize := by
  have inside := (offsetPrio_eq supported).2
  have last : (config.getPrioInfo prio).offsetPrio / config.nbits
      ≤ (config.numThreadPrio - 1) / config.nbits := Nat.div_le_div_right (by omega)
  have size : config.bitmapSize = (config.numThreadPrio - 1) / config.nbits + 1 := by
    rw [Config.bitmapSize, ← Nat.add_div_right _ config.nbits_pos]
    congr 1
    have pos := config.nbits_pos
    omega
  rw [size]
  exact Nat.lt_succ_of_le last

theorem Simulates.start : Simulates (start : Queues config α) where
  nodup := List.nodup_nil
  sorted := List.Pairwise.nil
  supported := by
    intro thread member
    exact absurd member List.not_mem_nil
  lists := fun _ => rfl
  marked := by
    intro index
    simp only [Priq.start, PriqMq.empty, bitAt_replicate_zero, ne_eq, not_true_eq_false,
      Bool.false_eq_true]

theorem Simulates.add [DecidableEq α] {state : Queues config α} (simulates : Simulates state)
    {thread : α} {prio : Int} (new : thread ∉ state.dumb) (supported : config.Supported prio)
    : Simulates
        { prio := Function.update state.prio thread prio
          mq := state.mq.zPriqMqAdd (Function.update state.prio thread prio) thread
          dumb := zPriqDumbAdd (Function.update state.prio thread prio) thread state.dumb } := by
  generalize isPrios : Function.update state.prio thread prio = prios
  have its : prios thread = prio := by rw [← isPrios, Function.update_self]
  have others : ∀ other ∈ state.dumb, prios other = state.prio other := by
    intro other member
    rw [← isPrios, Function.update_of_ne]
    rintro rfl
    exact new member
  have sorted : state.dumb.Pairwise fun left right => prios left ≤ prios right := by
    refine simulates.sorted.imp_of_mem fun {left right} inLeft inRight before => ?_
    rwa [others left inLeft, others right inRight]
  have offset := eq_offsetPrio_iff supported
  refine ⟨?_, ?_, ?_, ?_, ?_⟩
  · rw [zPriqDumbAdd_eq_stableInsert, (perm_stableInsert _ _ _).nodup_iff]
    exact List.nodup_cons.mpr ⟨new, simulates.nodup⟩
  · dsimp only
    rw [zPriqDumbAdd_eq_stableInsert]
    exact increasing_stableInsert sorted
  · intro other member
    dsimp only at member ⊢
    rw [zPriqDumbAdd_eq_stableInsert, mem_stableInsert] at member
    rcases member with rfl | old
    · rwa [its]
    · rw [others other old]
      exact simulates.supported other old
  · intro index
    dsimp only
    have same : state.dumb.filter (fun other => prios other = index - config.numCoop)
        = state.mq.queues index := by
      rw [simulates.lists]
      refine List.filter_congr fun other member => ?_
      rw [others other member]
    rw [zPriqDumbAdd_eq_stableInsert, filter_stableInsert _ sorted, same, its]
    simp only [PriqMq.zPriqMqAdd, PriqMq.setWord, its, offset]
    by_cases isIndex : index = (config.getPrioInfo prio).offsetPrio
    · rw [if_pos isIndex, isIndex, Function.update_self]
    · rw [if_neg isIndex, Function.update_of_ne isIndex]
  · intro index
    simp only [PriqMq.zPriqMqAdd, PriqMq.setWord, its]
    have inside : (config.getPrioInfo prio).idx < state.mq.bitmask.length := by
      rw [state.mq.length_eq]
      exact idx_lt supported
    rw [idx_eq] at inside
    rw [idx_eq, bit_eq, bitAt_setBit config.nbits_pos inside, Bool.or_eq_true, decide_eq_true_iff]
    by_cases isIndex : index = (config.getPrioInfo prio).offsetPrio
    · subst isIndex
      rw [Function.update_self]
      exact iff_of_true (.inl rfl) (List.concat_ne_nil _ _)
    · rw [Function.update_of_ne isIndex, simulates.marked]
      exact or_iff_right isIndex

theorem Simulates.remove [DecidableEq α] {state : Queues config α} (simulates : Simulates state)
    {thread : α} (queued : thread ∈ state.dumb)
    : Simulates
        { state with
          mq := state.mq.zPriqMqRemove state.prio thread
          dumb := state.dumb.erase thread } := by
  have supported := simulates.supported thread queued
  have offset := eq_offsetPrio_iff supported
  generalize isPrio : state.prio thread = prio at *
  have inside : (config.getPrioInfo prio).idx < state.mq.bitmask.length := by
    rw [state.mq.length_eq]
    exact idx_lt supported
  have queues : ∀ index,
      (state.mq.zPriqMqRemove state.prio thread).queues index
      = (state.mq.queues index).erase thread := by
    intro index
    simp only [PriqMq.zPriqMqRemove]
    split
    · rfl
    · rfl
  refine ⟨simulates.nodup.erase _, simulates.sorted.sublist List.erase_sublist, ?_, ?_, ?_⟩
  · intro other member
    exact simulates.supported other (List.mem_of_mem_erase member)
  · intro index
    rw [queues, simulates.lists, (simulates.nodup.filter _).erase_eq_filter,
      simulates.nodup.erase_eq_filter, List.filter_filter, List.filter_filter]
    simp only [Bool.and_comm]
  · intro index
    rw [queues]
    -- Only the list of the thread's priority loses a thread.
    have others : index ≠ (config.getPrioInfo prio).offsetPrio
        → (state.mq.queues index).erase thread = state.mq.queues index := by
      intro different
      refine List.erase_of_not_mem fun member => different ?_
      rw [simulates.lists, List.mem_filter, decide_eq_true_iff, isPrio] at member
      exact (offset index).mp member.2
    have bits : bitAt (state.mq.zPriqMqRemove state.prio thread).bitmask index
        = (if (state.mq.queues (config.getPrioInfo prio).offsetPrio).erase thread = [] then
            !decide (index = (config.getPrioInfo prio).offsetPrio)
              && bitAt state.mq.bitmask index
          else bitAt state.mq.bitmask index) := by
      simp only [PriqMq.zPriqMqRemove, PriqMq.setWord, isPrio]
      split
      · dsimp only
        rw [idx_eq] at inside
        rw [idx_eq, bit_eq]
        exact bitAt_clearBit config.nbits_pos inside index
      · rfl
    have wasQueued : thread ∈ state.mq.queues (config.getPrioInfo prio).offsetPrio := by
      rw [simulates.lists, List.mem_filter, decide_eq_true_iff, isPrio]
      exact ⟨queued, (offset _).mpr rfl⟩
    have wasMarked := (simulates.marked _).mpr (List.ne_nil_of_mem wasQueued)
    dsimp only
    rw [bits]
    by_cases isIndex : index = (config.getPrioInfo prio).offsetPrio
    · subst isIndex
      split
      · rename_i emptied
        simp [emptied]
      · rename_i left
        exact iff_of_true wasMarked left
    · rw [others isIndex, ← simulates.marked]
      simp [isIndex]

theorem step_simulates [DecidableEq α] {state next : Queues config α} {op : Op α}
    (simulates : Simulates state) (stepped : step state op = some next)
    : Simulates next := by
  cases op with
  | add thread prio =>
      simp only [step] at stepped
      split at stepped
      · exact nomatch stepped
      · rename_i enabled
        obtain ⟨new, supported⟩ := not_or.mp enabled
        rw [← Option.some.inj stepped]
        exact simulates.add new (not_not.mp supported)
  | remove thread =>
      simp only [step] at stepped
      split at stepped
      · rename_i queued
        rw [← Option.some.inj stepped]
        exact simulates.remove queued
      · exact nomatch stepped

/-! ### The best thread -/

theorem Simulates.mem_queues {state : Queues config α} (simulates : Simulates state) {thread : α}
    (queued : thread ∈ state.dumb)
    : thread ∈ state.mq.queues (config.getPrioInfo (state.prio thread)).offsetPrio := by
  rw [simulates.lists, List.mem_filter, decide_eq_true_iff]
  exact ⟨queued, (eq_offsetPrio_iff (simulates.supported thread queued) _).mpr rfl⟩

theorem Simulates.head_eq {state : Queues config α} (simulates : Simulates state) {index : Nat}
    (filled : state.mq.queues index ≠ [])
    (first : ∀ lower < index, state.mq.queues lower = [])
    : (state.mq.queues index).head? = state.dumb.head? := by
  have lists := simulates.lists index
  cases isDumb : state.dumb with
  | nil =>
      rw [isDumb, List.filter_nil] at lists
      exact absurd lists filled
  | cons best rest =>
      have inDumb : best ∈ state.dumb := by
        rw [isDumb]
        exact List.mem_cons_self
      have supported := simulates.supported best inDumb
      have offset := (offsetPrio_eq supported).1
      obtain ⟨other, member⟩ := List.exists_mem_of_ne_nil _ filled
      rw [lists, List.mem_filter, decide_eq_true_iff] at member
      have least : state.prio best ≤ state.prio other := by
        have sorted := simulates.sorted
        rw [isDumb] at sorted member
        rcases List.mem_cons.mp member.1 with rfl | later
        · exact le_refl _
        · exact (List.pairwise_cons.mp sorted).1 other later
      have notLower : ¬(config.getPrioInfo (state.prio best)).offsetPrio < index := by
        intro lower
        exact List.ne_nil_of_mem (simulates.mem_queues inDumb) (first _ lower)
      have isPrio : state.prio best = index - config.numCoop := by omega
      rw [lists, isDumb, List.filter_cons_of_pos (by simpa using isPrio)]
      rfl

theorem Simulates.bestFrom_eq {state : Queues config α} (simulates : Simulates state)
    {words : List (BitVec config.nbits)} {i : Nat} (isRest : words = state.mq.bitmask.drop i)
    (first : ∀ lower < config.nbits * i, state.mq.queues lower = [])
    : state.mq.bestFrom words i = state.dumb.head? := by
  induction words generalizing i with
  | nil =>
      have ended := List.drop_eq_nil_iff.mp isRest.symm
      rw [state.mq.length_eq] at ended
      cases isDumb : state.dumb with
      | nil => rfl
      | cons best rest =>
          -- The list of a queued thread is marked in a word that the loop has seen.
          exfalso
          have inDumb : best ∈ state.dumb := by
            rw [isDumb]
            exact List.mem_cons_self
          have word := idx_lt (simulates.supported best inDumb)
          refine List.ne_nil_of_mem (simulates.mem_queues inDumb) (first _ ?_)
          rw [Nat.mul_comm]
          exact (Nat.div_lt_iff_lt_mul config.nbits_pos).mp (lt_of_lt_of_le word ended)
  | cons word rest ih =>
      have inside : i < state.mq.bitmask.length := by
        by_contra outside
        rw [List.drop_eq_nil_of_le (by omega)] at isRest
        exact nomatch isRest
      rw [List.drop_eq_getElem_cons inside, List.cons.injEq] at isRest
      obtain ⟨isWord, isRest⟩ := isRest
      have bits : ∀ place < config.nbits,
          bitAt state.mq.bitmask (config.nbits * i + place) = word.getLsbD place := by
        intro place inWord
        rw [bitAt_word _ _ inWord, List.getD_eq_getElem _ _ inside, isWord]
      -- Lists whose bits are clear are empty.
      have clear : ∀ place, (∀ lower < place, word.getLsbD lower = false) → place ≤ config.nbits
          → ∀ lower < config.nbits * i + place, state.mq.queues lower = [] := by
        intro place low bound lower below
        by_cases before : lower < config.nbits * i
        · exact first lower before
        · by_contra filled
          have marked := (simulates.marked lower).mpr filled
          have isBit := bits (lower - config.nbits * i) (by omega)
          rw [Nat.add_sub_cancel' (by omega), marked, low _ (by omega)] at isBit
          exact nomatch isBit
      rw [PriqMq.bestFrom]
      split
      · rename_i zero
        refine ih isRest ?_
        rw [Nat.mul_succ]
        exact clear config.nbits (fun lower inWord => eq_zero_iff.mp zero lower inWord) le_rfl
      · rename_i nonzero
        obtain ⟨inWord, set, low⟩ := lowestSet_spec nonzero
        have filled := (simulates.marked _).mp ((bits _ inWord).trans set)
        have best := simulates.head_eq filled (clear _ low (by omega))
        rw [Nat.mul_comm i]
        cases isHead : (state.mq.queues (config.nbits * i + lowestSet word)).head? with
        | none => exact absurd (List.head?_eq_none_iff.mp isHead) filled
        | some thread =>
            dsimp only
            rw [← best, isHead]

/-- In every run of additions and removals the best thread of the multi-queue is that of the
sorted list.
-/
theorem mq_best_eq_dumb_best [DecidableEq α] {ops : List (Op α)} {final : Queues config α}
    (ran : run step start ops = some final)
    : final.mq.zPriqMqBest = final.dumb.head? := by
  have simulates : Simulates final := run_invariant Simulates step_simulates .start ran
  exact simulates.bestFrom_eq rfl fun lower below => absurd below (by omega)

/-- Three priorities in a bitmap of one word. -/
def smallConfig : Config where
  numCoop := 1
  numPreempt := 2
  nbits := 32
  coop_le := by decide
  preempt_le := by decide
  nbits_pos := by decide

def smallOps : List (Op Nat) :=
  [.add 1 1, .add 2 (-1), .add 3 (-1), .remove 2, .add 2 0]

theorem smallOps_best
    : ∃ final : Queues smallConfig Nat,
        run step start smallOps = some final
        ∧ final.dumb = [3, 2, 1]
        ∧ final.mq.zPriqMqBest = some 3 := by
  refine ⟨_, rfl, by decide, ?_⟩
  rw [mq_best_eq_dumb_best (show run step start smallOps = some _ from rfl)]
  decide

end Zephyr.Kernel.Priq
