import Mathlib
import Zephyr.Kernel.Base

/-! The check of a user's buffer against the regions of an ARMv7-M MPU, from
`arm_mpu_v7_internal.h` and the Cortex-M `arm_mpu_internal.h`, and how the MPU itself decides on
an access.
-/

namespace Zephyr.Mpu

open Kernel

/-- `RBAR` without the region number, masked with `MPU_RBAR_ADDR_Msk`. -/
def mpuRegionGetBase (rbar : UInt32) : UInt32 :=
  rbar &&& 0xFFFFFFE0

/-- The `SIZE` field of `RASR`. -/
def rasrSize (rasr : UInt32) : UInt32 :=
  (rasr &&& 0x3E) >>> 1

/-- The registers of a region. The base of a region is a multiple of its size, and the `SRD` field
disables no sub-region.
-/
structure Region where
  rbar : UInt32
  rasr : UInt32
  aligned
  : 2 ^ ((rasrSize rasr).toNat + 1) ∣ (mpuRegionGetBase rbar).toNat
  noneDisabled
  : rasr &&& 0xFF00 = 0

def isEnabledRegion (region : Region) : Bool :=
  region.rasr &&& 1 ≠ 0

def getRegionAp (region : Region) : UInt32 :=
  (region.rasr &&& 0x07000000) >>> 24

/-- A shift by 32 bits, for the region of 4 GiB, gives 0. -/
def isInRegion (region : Region) (start size : UInt32) : Bool :=
  let rAddrStart := mpuRegionGetBase region.rbar
  let rSizeLshift := rasrSize region.rasr + 1
  let rAddrEnd := rAddrStart + UInt32.ofNat (2 ^ rSizeLshift.toNat) - 1
  let size := if size = 0 then 0 else size - 1
  -- u32_add_overflow
  if 2 ^ 32 ≤ start.toNat + size.toNat then false
  else start ≥ rAddrStart && start + size ≤ rAddrEnd

def pRwURo : UInt32 := 2

def pRwURw : UInt32 := 3

def pRoURo : UInt32 := 6

def ro : UInt32 := 7

def mpuUserReadAccessibleMsk : UInt32 :=
  pRwURo &&& pRwURw &&& pRoURo &&& ro

def isUserAccessibleRegion (region : Region) (write : Bool) : Bool :=
  let rAp := getRegionAp region
  if write then rAp = pRwURw
  else rAp &&& mpuUserReadAccessibleMsk ≠ 0

/-- The regions are listed by ascending number and looked at in reversed order. -/
def mpuBufferValidate (regions : List Region) (addr size : UInt32) (write : Bool) : Int :=
  match regions.reverse.find? (fun region =>
    isEnabledRegion region && isInRegion region addr size) with
  | some region => if isUserAccessibleRegion region write then 0 else -eperm
  | none => -eperm

/-! ### The decision of the MPU -/

/-- The byte at `address` is in the region. -/
def Region.Covers (region : Region) (address : Nat) : Prop :=
  (mpuRegionGetBase region.rbar).toNat ≤ address
  ∧ address < (mpuRegionGetBase region.rbar).toNat + 2 ^ ((rasrSize region.rasr).toNat + 1)

instance Region.Covers.decidable (region : Region) (address : Nat)
    : Decidable (region.Covers address) :=
  inferInstanceAs (Decidable (_ ∧ _))

/-- The enabled region with the highest number that has the byte. -/
def decidingRegion (regions : List Region) (address : Nat) : Option Region :=
  regions.reverse.find? (fun region => isEnabledRegion region && decide (region.Covers address))

/-- What the access permissions of a region grant to user mode. -/
def Region.Grants (region : Region) (write : Bool) : Prop :=
  (getRegionAp region).toNat ∈ if write then [3] else [2, 3, 6, 7]

instance Region.Grants.decidable (region : Region) (write : Bool)
    : Decidable (region.Grants write) :=
  inferInstanceAs (Decidable (_ ∈ _))

def UserAccessible (regions : List Region) (write : Bool) (address : Nat) : Prop :=
  ∃ region, decidingRegion regions address = some region ∧ region.Grants write

/-- The addresses of a buffer of `size` bytes. -/
def InBuffer (addr size : UInt32) (address : Nat) : Prop :=
  addr.toNat ≤ address ∧ address < addr.toNat + size.toNat

instance InBuffer.decidable (addr size : UInt32) (address : Nat)
    : Decidable (InBuffer addr size address) :=
  inferInstanceAs (Decidable (_ ∧ _))

end Zephyr.Mpu

/-! A buffer that is found valid is accessible to user mode, byte by byte, unless a region with a
higher number has a part of the buffer and denies the access to it.
-/

namespace Zephyr.Mpu

open Kernel

/-! ### Regions -/

theorem rasrSize_lt (rasr : UInt32) : (rasrSize rasr).toNat < 32 := by
  have masked : (rasr &&& 0x3E).toNat ≤ 0x3E := by
    rw [UInt32.toNat_and]
    exact Nat.and_le_right
  rw [rasrSize, UInt32.toNat_shiftRight]
  change (rasr &&& 0x3E).toNat >>> 1 < 32
  rw [Nat.shiftRight_eq_div_pow]
  omega

/-- Since its base is a multiple of its size, a region ends within the address space. -/
theorem Region.end_le (region : Region)
    : (mpuRegionGetBase region.rbar).toNat + 2 ^ ((rasrSize region.rasr).toNat + 1) ≤ 2 ^ 32 := by
  have small := rasrSize_lt region.rasr
  have divides : 2 ^ ((rasrSize region.rasr).toNat + 1) ∣ 2 ^ 32 :=
    Nat.pow_dvd_pow 2 (by omega)
  have below : (mpuRegionGetBase region.rbar).toNat < 2 ^ 32 := UInt32.toNat_lt _
  have room := Nat.le_of_dvd (Nat.sub_pos_of_lt below) (Nat.dvd_sub divides region.aligned)
  omega

theorem rAddrEnd_toNat (region : Region)
    : (mpuRegionGetBase region.rbar + UInt32.ofNat (2 ^ (rasrSize region.rasr + 1).toNat)
        - 1).toNat + 1
      = (mpuRegionGetBase region.rbar).toNat + 2 ^ ((rasrSize region.rasr).toNat + 1) := by
  have ends := region.end_le
  have positive : 0 < 2 ^ ((rasrSize region.rasr).toNat + 1) := Nat.two_pow_pos _
  have shift : (rasrSize region.rasr + 1).toNat = (rasrSize region.rasr).toNat + 1 := by
    have := rasrSize_lt region.rasr
    rw [UInt32.toNat_add, UInt32.toNat_one, Nat.mod_eq_of_lt (by omega)]
  rw [UInt32.toNat_sub, UInt32.toNat_add, UInt32.toNat_ofNat', UInt32.toNat_one, shift]
  omega

theorem isInRegion_iff {region : Region} {start size : UInt32} (nonzero : size ≠ 0)
    : isInRegion region start size = true
      ↔ ∀ address, InBuffer start size address → region.Covers address := by
  have ends := region.end_le
  have last := rAddrEnd_toNat region
  have least : 1 ≤ size.toNat := Nat.pos_of_ne_zero (fun zero => nonzero (UInt32.toNat_inj.mp zero))
  have lessOne : (size - 1).toNat = size.toNat - 1 :=
    UInt32.toNat_sub_of_le _ _ (UInt32.le_iff_toNat_le.mpr least)
  simp only [isInRegion, if_neg nonzero, lessOne, InBuffer, Region.Covers]
  constructor
  · intro inside address place
    split at inside
    · cases inside
    · rw [Bool.and_eq_true, decide_eq_true_iff, decide_eq_true_iff, ge_iff_le,
        UInt32.le_iff_toNat_le, UInt32.le_iff_toNat_le, UInt32.toNat_add, lessOne] at inside
      omega
  · intro covers
    have first := covers start.toNat (by omega)
    have final := covers (start.toNat + size.toNat - 1) (by omega)
    rw [if_neg (by omega), Bool.and_eq_true, decide_eq_true_iff, decide_eq_true_iff, ge_iff_le,
      UInt32.le_iff_toNat_le, UInt32.le_iff_toNat_le, UInt32.toNat_add, lessOne]
    omega

theorem getRegionAp_lt (region : Region) : (getRegionAp region).toNat < 8 := by
  have masked : (region.rasr &&& 0x07000000).toNat ≤ 0x07000000 := by
    rw [UInt32.toNat_and]
    exact Nat.and_le_right
  rw [getRegionAp, UInt32.toNat_shiftRight]
  change (region.rasr &&& 0x07000000).toNat >>> 24 < 8
  rw [Nat.shiftRight_eq_div_pow]
  omega

theorem grants_iff {region : Region} {write : Bool}
    : region.Grants write ↔ isUserAccessibleRegion region write = true := by
  have small := getRegionAp_lt region
  have value : getRegionAp region = UInt32.ofNat (getRegionAp region).toNat := by simp
  rw [isUserAccessibleRegion, Region.Grants]
  generalize (getRegionAp region).toNat = ap at *
  rw [value]
  clear value
  revert ap write
  decide

/-! ### Buffers -/

theorem find?_eq_some_of_imp {α : Type} {p q : α → Bool} {xs : List α} {x : α}
    (stronger : ∀ y, q y = true → p y = true) (found : xs.find? p = some x) (has : q x = true)
    : xs.find? q = some x := by
  rw [List.find?_eq_some_iff_append] at found ⊢
  obtain ⟨-, front, back, split, skipped⟩ := found
  refine ⟨has, front, back, split, ?_⟩
  intro y member
  have unmatched := skipped y member
  rw [Bool.not_eq_true', ← Bool.not_eq_true] at unmatched ⊢
  exact mt (stronger y) unmatched

theorem mpuBufferValidate_eq_zero {regions : List Region} {addr size : UInt32} {write : Bool}
    (returned : mpuBufferValidate regions addr size write = 0)
    : ∃ region,
        regions.reverse.find? (fun region =>
          isEnabledRegion region && isInRegion region addr size) = some region
        ∧ region.Grants write := by
  rw [mpuBufferValidate] at returned
  split at returned
  · rename_i region found
    split at returned
    · rename_i grants
      exact ⟨region, found, grants_iff.mpr grants⟩
    · cases returned
  · cases returned

/-- When a buffer is found valid, all its bytes are accessible exactly when every region that
decides on a byte of the buffer, but does not have the whole of it, grants the access.
-/
theorem valid_buffer_accessible_iff {regions : List Region} {addr size : UInt32} {write : Bool}
    (nonzero : size ≠ 0) (returned : mpuBufferValidate regions addr size write = 0)
    : (∀ address, InBuffer addr size address → UserAccessible regions write address)
      ↔ ∀ address other region,
          InBuffer addr size address
          → decidingRegion regions address = some region
          → InBuffer addr size other
          → ¬region.Covers other
          → region.Grants write := by
  obtain ⟨found, first, grants⟩ := mpuBufferValidate_eq_zero returned
  have matched := List.find?_some first
  rw [Bool.and_eq_true, isInRegion_iff nonzero] at matched
  constructor
  · intro accessible address other region inside decides _ _
    obtain ⟨same, decides', granted⟩ := accessible address inside
    rw [decides] at decides'
    rwa [Option.some.inj decides']
  · intro partly address inside
    obtain ⟨region, decides⟩ : ∃ region, decidingRegion regions address = some region := by
      refine Option.isSome_iff_exists.mp (List.find?_isSome.mpr ⟨found, ?_, ?_⟩)
      · exact List.mem_of_find?_eq_some first
      · rw [Bool.and_eq_true, decide_eq_true_iff]
        exact ⟨matched.1, matched.2 address inside⟩
    refine ⟨region, decides, ?_⟩
    by_cases whole : ∀ other, InBuffer addr size other → region.Covers other
    · have enabled := List.find?_some decides
      rw [Bool.and_eq_true] at enabled
      have same := find?_eq_some_of_imp
        (q := fun region => isEnabledRegion region && isInRegion region addr size) ?_ decides ?_
      · rw [first] at same
        rwa [← Option.some.inj same]
      · intro candidate
        rw [Bool.and_eq_true, Bool.and_eq_true, isInRegion_iff nonzero, decide_eq_true_iff]
        exact fun both => ⟨both.1, both.2 address inside⟩
      · rw [Bool.and_eq_true, isInRegion_iff nonzero]
        exact ⟨enabled.1, whole⟩
    · rw [not_forall] at whole
      obtain ⟨other, outside⟩ := whole
      rw [Classical.not_imp] at outside
      exact partly address other region inside decides outside.1 outside.2

/-- 1 KiB that users may write, with a guard of 32 bytes for the privileged mode inside it. -/
def guardedRegions : List Region :=
  [{ rbar := 0x20000000, rasr := 0x03000013, aligned := by decide, noneDisabled := by decide },
    { rbar := 0x20000040, rasr := 0x01000009, aligned := by decide, noneDisabled := by decide }]

theorem guarded_buffer_accessible
    : mpuBufferValidate guardedRegions 0x20000080 0x100 true = 0
      ∧ ∀ address,
          InBuffer 0x20000080 0x100 address → UserAccessible guardedRegions true address := by
  have returned : mpuBufferValidate guardedRegions 0x20000080 0x100 true = 0 := by decide
  refine ⟨returned, (valid_buffer_accessible_iff (by decide) returned).mpr ?_⟩
  intro address other region inside decides _ _
  have listed := List.mem_of_find?_eq_some decides
  have covers := List.find?_some decides
  rw [Bool.and_eq_true, decide_eq_true_iff] at covers
  rcases List.mem_pair.mp listed with rfl | rfl
  · -- the guard lies in front of the buffer
    exact absurd (Nat.lt_of_le_of_lt inside.1 covers.2.2) (by decide)
  · decide

/-- A buffer around the guard is found valid, although its bytes in the guard are not accessible.
-/
theorem guard_not_noticed
    : mpuBufferValidate guardedRegions 0x20000000 0x100 true = 0
      ∧ InBuffer 0x20000000 0x100 0x20000040
      ∧ ¬UserAccessible guardedRegions true 0x20000040 := by
  refine ⟨by decide, by decide, ?_⟩
  rintro ⟨region, decides, granted⟩
  have isGuard : decidingRegion guardedRegions 0x20000040 = guardedRegions[1]? := rfl
  rw [isGuard] at decides
  rw [← Option.some.inj decides] at granted
  exact absurd granted (by decide)

end Zephyr.Mpu
