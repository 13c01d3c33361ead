import Mathlib
import Zephyr.MemDomain.Model

/-! The partitions of a domain stay apart and are counted, as long as a partition that is added
is also apart from those that the overlap check does not look at, and no free slot is removed.
-/

namespace Zephyr.MemDomain

open Library Kernel

def KMemPartition.Covers (part : KMemPartition) (address : Nat) : Prop :=
  part.start.toNat ≤ address ∧ address < part.start.toNat + part.size.toNat

def Overlap (part other : KMemPartition) : Prop :=
  ∃ address, part.Covers address ∧ other.Covers address

/-- What the users of a domain rely on. -/
structure Partitioned (domain : KMemDomain) : Prop where
  apart
  : ∀ {i j : Nat} {part other},
      i ≠ j
      → domain.partitions[i]? = some part
      → domain.partitions[j]? = some other
      → ¬Overlap part other
  counted
  : domain.numPartitions.toNat = domain.partitions.countP (fun part => part.size ≠ 0)

structure Sound (config : Config) (domain : KMemDomain) : Prop where
  partitioned : Partitioned domain
  length : domain.partitions.length = config.slots
  bounded
  : ∀ part ∈ domain.partitions, part.start.toNat + part.size.toNat < 2 ^ 32
  unused
  : ∀ {i : Nat} {part},
      config.maxPartitions.toNat ≤ i → domain.partitions[i]? = some part → part.size = 0

/-! ### Overlapping -/

theorem overlap_iff {part other : KMemPartition}
    : Overlap part other
      ↔ part.size ≠ 0
        ∧ other.size ≠ 0
        ∧ part.start.toNat < other.start.toNat + other.size.toNat
        ∧ other.start.toNat < part.start.toNat + part.size.toNat := by
  have nonzero (size : UInt32) : size ≠ 0 ↔ 0 < size.toNat := by
    rw [Nat.pos_iff_ne_zero, ne_eq, ne_eq, ← UInt32.toNat_inj, UInt32.toNat_zero]
  rw [nonzero, nonzero]
  constructor
  · rintro ⟨address, ⟨low, high⟩, ⟨otherLow, otherHigh⟩⟩
    omega
  · rintro ⟨positive, otherPositive, below, above⟩
    refine ⟨max part.start.toNat other.start.toNat, ⟨?_, ?_⟩, ⟨?_, ?_⟩⟩ <;> omega

instance Overlap.decidable (part other : KMemPartition) : Decidable (Overlap part other) :=
  decidable_of_iff _ overlap_iff.symm

theorem Overlap.symm {part other : KMemPartition} (overlap : Overlap part other)
    : Overlap other part := by
  obtain ⟨address, covers, otherCovers⟩ := overlap
  exact ⟨address, otherCovers, covers⟩

theorem not_overlap_of_free {part other : KMemPartition} (free : other.size = 0)
    : ¬Overlap part other :=
  fun overlap => (overlap_iff.mp overlap).2.1 free

/-- A partition that the check accepts is not empty, does not wrap around, and is apart from
the slots that the check looks at.
-/
theorem checkAddPartition_eq_true {domain : KMemDomain} {part : Option KMemPartition}
    (bounded : ∀ dpart ∈ domain.partitions, dpart.start.toNat + dpart.size.toNat < 2 ^ 32)
    (accepted : checkAddPartition domain part = true)
    : ∃ added,
        part = some added
        ∧ added.size ≠ 0
        ∧ added.start.toNat + added.size.toNat < 2 ^ 32
        ∧ ∀ dpart ∈ domain.partitions.take domain.numPartitions.toNat, ¬Overlap added dpart := by
  cases part with
  | none => cases accepted
  | some added =>
      simp only [checkAddPartition] at accepted
      split at accepted
      · cases accepted
      rename_i filled
      split at accepted
      · cases accepted
      rename_i ends
      have forward : added.start.toNat + added.size.toNat < 2 ^ 32 := by
        rw [UInt32.le_iff_toNat_le, UInt32.toNat_add] at ends
        have := added.start.toNat_lt
        have := added.size.toNat_lt
        omega
      refine ⟨added, rfl, filled, forward, ?_⟩
      intro dpart looked overlap
      have inside := bounded dpart (List.mem_of_mem_take looked)
      have passed := List.all_eq_true.mp accepted dpart looked
      obtain ⟨-, otherFilled, below, above⟩ := overlap_iff.mp overlap
      rw [Bool.or_eq_true, decide_eq_true_iff] at passed
      rcases passed with free | apart
      · exact otherFilled free
      · rw [Bool.not_eq_true', Bool.and_eq_false_iff, decide_eq_false_iff_not,
          decide_eq_false_iff_not, gt_iff_lt, gt_iff_lt, UInt32.lt_iff_toNat_lt,
          UInt32.lt_iff_toNat_lt, UInt32.toNat_add, UInt32.toNat_add,
          Nat.mod_eq_of_lt forward, Nat.mod_eq_of_lt inside] at apart
        rcases apart with apart | apart
        · exact apart above
        · exact apart below

/-! ### Filling and freeing a slot -/

theorem getElem?_set_cases {α : Type} {xs : List α} {i k : Nat} {x y : α}
    (found : (xs.set i x)[k]? = some y)
    : (k = i ∧ y = x) ∨ (k ≠ i ∧ xs[k]? = some y) := by
  rw [List.getElem?_set] at found
  by_cases same : i = k
  · rw [if_pos same] at found
    obtain ⟨-, taken⟩ := Option.ite_none_right_eq_some.mp found
    exact .inl ⟨same.symm, (Option.some.inj taken).symm⟩
  · rw [if_neg same] at found
    exact .inr ⟨Ne.symm same, found⟩

namespace Sound

variable {config : Config} {domain : KMemDomain}

theorem zeroed (config : Config) : Sound config (zeroed config) := by
  have isFree {part} (found : part ∈ (MemDomain.zeroed config).partitions) : part.size = 0 := by
    rw [List.eq_of_mem_replicate found]
  refine ⟨⟨?_, ?_⟩, List.length_replicate, ?_, ?_⟩
  · intro i j part other _ _ found
    exact not_overlap_of_free (isFree (List.mem_of_getElem? found))
  · refine (List.countP_eq_zero.mpr ?_).symm
    intro part found
    simpa using isFree found
  · intro part found
    rw [isFree found]
    exact part.start.toNat_lt
  · intro i part _ found
    exact isFree (List.mem_of_getElem? found)

/-- Only the slots that the platform supports are filled, so the counter does not overflow. -/
theorem count_lt (sound : Sound config domain) {i : Nat} {free : KMemPartition}
    (supported : i < config.maxPartitions.toNat) (found : domain.partitions[i]? = some free)
    (isFree : free.size = 0)
    : domain.partitions.countP (fun part => part.size ≠ 0) < config.maxPartitions.toNat := by
  have split := List.take_append_drop config.maxPartitions.toNat domain.partitions
  have late : (domain.partitions.drop config.maxPartitions.toNat).countP
      (fun part => part.size ≠ 0) = 0 := by
    rw [List.countP_eq_zero]
    intro part member
    obtain ⟨k, atPlace⟩ := List.mem_iff_getElem?.mp member
    rw [List.getElem?_drop] at atPlace
    simpa only [decide_not, Bool.not_eq_true', decide_eq_false_iff_not, not_not] using
      sound.unused (Nat.le_add_right _ k) atPlace
  have early : (domain.partitions.take config.maxPartitions.toNat).countP
      (fun part => part.size ≠ 0) < config.maxPartitions.toNat := by
    refine Nat.lt_of_lt_of_le ?_ (List.length_take_le _ domain.partitions)
    refine Nat.lt_of_le_of_ne List.countP_le_length ?_
    intro full
    rw [List.countP_eq_length] at full
    have member : free ∈ domain.partitions.take config.maxPartitions.toNat := by
      refine List.mem_iff_getElem?.mpr ⟨i, ?_⟩
      rw [List.getElem?_take, if_pos supported, found]
    exact of_decide_eq_true (full free member) isFree
  rw [← split, List.countP_append, late]
  omega

theorem fill (sound : Sound config domain) {i : Nat} {free part : KMemPartition}
    (supported : i < config.maxPartitions.toNat) (found : domain.partitions[i]? = some free)
    (isFree : free.size = 0) (filled : part.size ≠ 0)
    (forward : part.start.toNat + part.size.toNat < 2 ^ 32)
    (apart : ∀ other ∈ domain.partitions, ¬Overlap part other)
    : Sound config
        { partitions := domain.partitions.set i part
          numPartitions := domain.numPartitions + 1 } := by
  obtain ⟨inRange, atSlot⟩ := List.getElem?_eq_some_iff.mp found
  refine ⟨⟨?_, ?_⟩, ?_, ?_, ?_⟩
  · intro k l left right different atLeft atRight
    rcases getElem?_set_cases atLeft with ⟨rfl, rfl⟩ | ⟨-, oldLeft⟩
    · rcases getElem?_set_cases atRight with ⟨rfl, rfl⟩ | ⟨-, oldRight⟩
      · exact absurd rfl different
      · exact apart right (List.mem_of_getElem? oldRight)
    · rcases getElem?_set_cases atRight with ⟨rfl, rfl⟩ | ⟨-, oldRight⟩
      · exact fun overlap => apart left (List.mem_of_getElem? oldLeft) overlap.symm
      · exact sound.partitioned.apart different oldLeft oldRight
  · have below := sound.count_lt supported found isFree
    have small := config.maxPartitions.toNat_lt
    rw [List.countP_set inRange, atSlot, UInt8.toNat_add, sound.partitioned.counted,
      UInt8.toNat_one, if_pos (decide_eq_true filled), if_neg (by simp [isFree]), Nat.sub_zero,
      Nat.mod_eq_of_lt (by omega)]
  · rw [List.length_set, sound.length]
  · intro other member
    rcases List.mem_or_eq_of_mem_set member with member | rfl
    · exact sound.bounded other member
    · exact forward
  · intro k other beyond atPlace
    rcases getElem?_set_cases atPlace with ⟨rfl, -⟩ | ⟨-, atPlace⟩
    · omega
    · exact sound.unused beyond atPlace

theorem free (sound : Sound config domain) {i : Nat} {part : KMemPartition}
    (found : domain.partitions[i]? = some part) (filled : part.size ≠ 0)
    : Sound config
        { partitions := domain.partitions.modify i (fun dpart => { dpart with size := 0 })
          numPartitions := domain.numPartitions - 1 } := by
  obtain ⟨inRange, atSlot⟩ := List.getElem?_eq_some_iff.mp found
  have freed : domain.partitions.modify i (fun dpart => { dpart with size := 0 })
      = domain.partitions.set i { part with size := 0 } := by
    rw [List.modify_eq_set_getElem?, found]
    rfl
  rw [freed]
  refine ⟨⟨?_, ?_⟩, ?_, ?_, ?_⟩
  · intro k l left right different atLeft atRight
    rcases getElem?_set_cases atLeft with ⟨rfl, rfl⟩ | ⟨-, oldLeft⟩
    · exact fun overlap => not_overlap_of_free rfl overlap.symm
    · rcases getElem?_set_cases atRight with ⟨rfl, rfl⟩ | ⟨-, oldRight⟩
      · exact not_overlap_of_free rfl
      · exact sound.partitioned.apart different oldLeft oldRight
  · have counted := sound.partitioned.counted
    have positive : 0 < domain.partitions.countP (fun part => part.size ≠ 0) :=
      List.countP_pos_iff.mpr ⟨part, List.mem_of_getElem? found, decide_eq_true filled⟩
    have least : (1 : UInt8) ≤ domain.numPartitions := by
      rw [UInt8.le_iff_toNat_le, counted]
      exact positive
    rw [List.countP_set inRange, atSlot, UInt8.toNat_sub_of_le _ _ least, counted,
      UInt8.toNat_one, if_pos (decide_eq_true filled), if_neg (by simp), Nat.add_zero]
  · rw [List.length_set, sound.length]
  · intro other member
    rcases List.mem_or_eq_of_mem_set member with member | rfl
    · exact sound.bounded other member
    · exact part.start.toNat_lt
  · intro k other beyond atPlace
    rcases getElem?_set_cases atPlace with ⟨-, rfl⟩ | ⟨-, atPlace⟩
    · rfl
    · exact sound.unused beyond atPlace

/-! ### Calls -/

/-- The loop of `k_mem_domain_init` has filled the slots up to `i`, which the check looks at. -/
theorem initPartitions (sound : Sound config domain) {i : Nat}
    {parts : List (Option KMemPartition)} (filled : domain.numPartitions.toNat = i)
    (rest : ∀ part ∈ domain.partitions.drop i, part.size = 0)
    (enough : i + parts.length ≤ config.maxPartitions.toNat)
    : Sound config (initPartitions domain i parts).1 := by
  induction parts generalizing domain i with
  | nil => exact sound
  | cons part parts ih =>
      rw [List.length_cons] at enough
      rw [MemDomain.initPartitions]
      split
      · rename_i accepted
        obtain ⟨added, rfl, nonempty, forward, apart⟩ :=
          checkAddPartition_eq_true sound.bounded accepted
        have fits := config.fits
        have inRange : i < domain.partitions.length := by rw [sound.length]; omega
        have isFree : domain.partitions[i].size = 0 := by
          refine rest _ (List.mem_iff_getElem?.mpr ⟨0, ?_⟩)
          rw [List.getElem?_drop, Nat.add_zero, List.getElem?_eq_getElem inRange]
        refine ih (sound.fill (by omega) (List.getElem?_eq_getElem inRange) isFree nonempty forward
          ?_) ?_ ?_ (by omega)
        · intro other member
          rw [← List.take_append_drop i domain.partitions, List.mem_append] at member
          rcases member with member | member
          · exact apart other (filled ▸ member)
          · exact not_overlap_of_free (rest other member)
        · have small := config.maxPartitions.toNat_lt
          rw [UInt8.toNat_add, filled, UInt8.toNat_one, Nat.mod_eq_of_lt (by omega)]
        · intro other member
          rw [List.drop_set_of_lt (by omega)] at member
          rw [← List.drop_drop] at member
          exact rest other (List.mem_of_mem_drop member)
      · exact sound

theorem init (sound : Sound config domain) (parts : List (Option KMemPartition))
    : Sound config (kMemDomainInit config domain parts).1 := by
  rw [kMemDomainInit]
  split
  · rename_i enough
    refine (Sound.zeroed config).initPartitions rfl ?_ (by rwa [Nat.zero_add])
    intro part member
    rw [List.eq_of_mem_replicate (List.mem_of_mem_drop member)]
  · exact sound

/-- A partition is added in a free slot, where it is apart from the partitions that the check
looks at, or the domain stays as it is.
-/
theorem add_cases (sound : Sound config domain) (part : Option KMemPartition)
    : (∃ i added free,
        part = some added
        ∧ added.size ≠ 0
        ∧ added.start.toNat + added.size.toNat < 2 ^ 32
        ∧ (∀ other ∈ domain.partitions.take domain.numPartitions.toNat, ¬Overlap added other)
        ∧ i < config.maxPartitions.toNat
        ∧ domain.partitions[i]? = some free
        ∧ free.size = 0
        ∧ kMemDomainAddPartition config domain part
          = ({ partitions := domain.partitions.set i added
               numPartitions := domain.numPartitions + 1 },
              0))
      ∨ ((kMemDomainAddPartition config domain part).1 = domain
          ∧ (kMemDomainAddPartition config domain part).2 < 0) := by
  rw [kMemDomainAddPartition]
  split
  · rename_i accepted
    obtain ⟨added, rfl, filled, forward, apart⟩ :=
      checkAddPartition_eq_true sound.bounded accepted
    dsimp only
    split
    · exact .inr ⟨rfl, (by decide : -enospc < 0)⟩
    · rename_i i found
      obtain ⟨inRange, isFree, -⟩ := List.findIdx?_eq_some_iff_getElem.mp found
      rw [List.length_take, Nat.lt_min] at inRange
      rw [List.getElem_take, decide_eq_true_iff] at isFree
      exact .inl ⟨i, added, _, rfl, filled, forward, apart, inRange.1,
        List.getElem?_eq_getElem inRange.2, isFree, rfl⟩
  · exact .inr ⟨rfl, (by decide : -einval < 0)⟩

theorem remove_cases (config : Config) (domain : KMemDomain) (part : Option KMemPartition)
    : (∃ i removed found,
        part = some removed
        ∧ domain.partitions[i]? = some found
        ∧ found.size = removed.size
        ∧ kMemDomainRemovePartition config domain part
          = ({ partitions := domain.partitions.modify i (fun dpart => { dpart with size := 0 })
               numPartitions := domain.numPartitions - 1 },
              0))
      ∨ ((kMemDomainRemovePartition config domain part).1 = domain
          ∧ (kMemDomainRemovePartition config domain part).2 < 0) := by
  cases part with
  | none => exact .inr ⟨rfl, (by decide : -einval < 0)⟩
  | some removed =>
      rw [kMemDomainRemovePartition]
      split
      · exact .inr ⟨rfl, (by decide : -enoent < 0)⟩
      · rename_i i found
        obtain ⟨inRange, matched, -⟩ := List.findIdx?_eq_some_iff_getElem.mp found
        rw [List.length_take, Nat.lt_min] at inRange
        rw [List.getElem_take, Bool.and_eq_true, decide_eq_true_iff, decide_eq_true_iff] at matched
        exact .inl ⟨i, removed, _, rfl, List.getElem?_eq_getElem inRange.2, matched.2, rfl⟩

end Sound

/-- A partition that is added is apart from those in the slots behind the first
`num_partitions`, and a partition that is removed is not empty.
-/
def Meets (config : Config) (domain : KMemDomain) : Call → Prop
  | .init _ => True
  | .add part =>
      (kMemDomainAddPartition config domain part).2 = 0
      → ∀ other ∈ domain.partitions.drop domain.numPartitions.toNat,
          ∀ added ∈ part, ¬Overlap added other
  | .remove part =>
      (kMemDomainRemovePartition config domain part).2 = 0 → ∀ removed ∈ part, removed.size ≠ 0

theorem Sound.step {config : Config} {domain next : KMemDomain} {made : Call}
    (sound : Sound config domain) (meets : Meets config domain made)
    (stepped : step config domain made = some next)
    : Sound config next := by
  rw [← Option.some.inj stepped]
  cases made with
  | init parts => exact sound.init parts
  | add part =>
      rcases sound.add_cases part with
        ⟨i, added, free, rfl, filled, forward, apart, supported, found, isFree, result⟩
        | ⟨same, -⟩
      · rw [call, result]
        refine sound.fill supported found isFree filled forward ?_
        intro other member
        rw [← List.take_append_drop domain.numPartitions.toNat domain.partitions,
          List.mem_append] at member
        rcases member with looked | member
        · exact apart other looked
        · exact meets (by rw [result]) other member added rfl
      · rw [call, same]
        exact sound
  | remove part =>
      rcases remove_cases config domain part with
        ⟨i, removed, found, rfl, atSlot, sameSize, result⟩ | ⟨same, -⟩
      · rw [call, result]
        exact sound.free atSlot (sameSize ▸ meets (by rw [result]) removed rfl)
      · rw [call, same]
        exact sound

theorem Sound.meets_of_partitioned {config : Config} {domain next : KMemDomain} {made : Call}
    (sound : Sound config domain) (stepped : MemDomain.step config domain made = some next)
    (partitioned : Partitioned next)
    : Meets config domain made := by
  rw [← Option.some.inj stepped] at partitioned
  cases made with
  | init parts => trivial
  | add part =>
      rcases sound.add_cases part with
        ⟨i, added, free, rfl, filled, forward, apart, supported, found, isFree, result⟩
        | ⟨-, failed⟩
      · rintro - other member added' ⟨⟩ overlap
        rw [call, result] at partitioned
        obtain ⟨inRange, -⟩ := List.getElem?_eq_some_iff.mp found
        obtain ⟨k, atPlace⟩ := List.mem_iff_getElem?.mp (List.mem_of_mem_drop member)
        have different : i ≠ k := by
          rintro rfl
          rw [found] at atPlace
          exact not_overlap_of_free (Option.some.inj atPlace ▸ isFree) overlap
        refine partitioned.apart different ?_ ?_ overlap
        · exact List.getElem?_set_self inRange
        · dsimp only
          rw [List.getElem?_set_ne different, atPlace]
      · intro zero
        omega
  | remove part =>
      rcases remove_cases config domain part with
        ⟨i, removed, found, rfl, atSlot, sameSize, result⟩ | ⟨-, failed⟩
      · rintro - removed' ⟨⟩ empty
        rw [call, result] at partitioned
        have isFree : found = { found with size := 0 } := by rw [← sameSize.trans empty]
        have same : domain.partitions.modify i (fun dpart => { dpart with size := 0 })
            = domain.partitions := by
          rw [List.modify_eq_set_getElem?, atSlot]
          obtain ⟨inRange, rfl⟩ := List.getElem?_eq_some_iff.mp atSlot
          change domain.partitions.set i { domain.partitions[i] with size := 0 } = _
          rw [← isFree, List.set_getElem_self]
        have counted := partitioned.counted
        rw [same, ← sound.partitioned.counted] at counted
        have changed : domain.numPartitions - 1 ≠ domain.numPartitions := by grind
        exact changed (UInt8.toNat_inj.mp counted)
      · intro zero
        omega

theorem call_failed {config : Config} {domain : KMemDomain} {made : Call}
    (noInit : made.isInit = false) (failed : (call config domain made).2 < 0)
    : (call config domain made).1 = domain := by
  cases made with
  | init parts => cases noInit
  | add part =>
      revert failed
      rw [call, kMemDomainAddPartition]
      split
      · dsimp only
        split
        · exact fun _ => rfl
        · exact fun failed => absurd failed (Int.lt_irrefl 0)
      · exact fun _ => rfl
  | remove part =>
      rcases Sound.remove_cases config domain part with
        ⟨i, removed, found, -, -, -, result⟩ | ⟨same, -⟩
      · rw [call, result] at failed
        exact absurd failed (Int.lt_irrefl 0)
      · exact same

/-- An add or remove that fails changes nothing. After each of a series of calls the partitions
are apart and counted, exactly when every call meets the condition.
-/
theorem partitioned_iff_meets (config : Config)
    : (∀ domain made,
        made.isInit = false
        → (call config domain made).2 < 0
        → (call config domain made).1 = domain)
      ∧ ∀ calls,
          (∀ front domain,
            front <+: calls
            → run (step config) (zeroed config) front = some domain
            → Partitioned domain)
          ↔ RunMeets (step config) (Meets config) (zeroed config) calls := by
  refine ⟨fun domain made => call_failed, fun calls => ⟨?_, ?_⟩⟩
  · intro partitioned
    have enabled : ∀ domain call, (step config domain call).isSome := fun _ _ => rfl
    obtain ⟨last, ran⟩ := exists_run enabled calls (zeroed config)
    exact runMeets_of_good (Sound config) Partitioned Sound.step Sound.meets_of_partitioned
      (Sound.zeroed config) ran partitioned
  · intro conditions front domain early reached
    exact (run_invariant_of_meets (Sound config) Sound.step (Sound.zeroed config)
      (conditions.of_initial early) reached).partitioned

/-- A domain with 16 slots, of which the platform supports 8. -/
def smallConfig : Config where
  slots := 16
  maxPartitions := 8
  fits := by decide

/-- The first of two partitions is removed before one is added that starts inside the second. -/
def overlappingCalls : List Call :=
  [.init [some { start := 0x1000, size := 0x100 }, some { start := 0x2000, size := 0x100 }],
    .remove (some { start := 0x1000, size := 0x100 }),
    .add (some { start := 0x2080, size := 0x100 })]

/-- The second partition is in a slot behind the first `num_partitions`, which the check of the
third does not look at. Removing an empty partition from a domain without any makes the counter
255.
-/
theorem overlap_accepted_and_free_slot_counted
    : (∃ domain,
        run (step smallConfig) (zeroed smallConfig) overlappingCalls = some domain
        ∧ domain.numPartitions = 2
        ∧ ¬Partitioned domain)
      ∧ ∃ domain,
          run (step smallConfig) (zeroed smallConfig) [.remove (some {})] = some domain
          ∧ domain.numPartitions = 255
          ∧ ¬Partitioned domain := by
  refine ⟨⟨_, rfl, rfl, ?_⟩, ⟨_, rfl, rfl, ?_⟩⟩
  · intro partitioned
    exact partitioned.apart (by decide : 0 ≠ 1) rfl rfl (by decide)
  · intro partitioned
    exact absurd partitioned.counted (by decide)

end Zephyr.MemDomain
