import Mathlib
import Zephyr.Library.PackedBits

/-! The bit arrays of `bitarray.c`: allocating and freeing regions of bits.
`size_t` has 32 bits; the pointer arguments are valid.
-/

namespace Zephyr.BitArray

open Zephyr.Library.PackedBits

def efault : Int := 14

def einval : Int := 22

def enospc : Int := 28

/-- `sys_bitarray_t` as `SYS_BITARRAY_DEFINE` makes it: as many bundles of 32 bits as needed. -/
@[ext]
structure SysBitarray where
  numBits : Nat
  bundles : List (BitVec 32)
  numBits_pos : 0 < numBits
  numBits_lt : numBits < 2 ^ 32
  length_eq : bundles.length = (numBits + 31) / 32

/-- The bit with a number, also behind the end of the array in its last bundle. -/
def SysBitarray.bit (bitarray : SysBitarray) (number : Nat) : Bool :=
  bitAt bitarray.bundles number

def SysBitarray.bundle (bitarray : SysBitarray) (idx : Nat) : BitVec 32 :=
  bitarray.bundles.getD idx 0

def SysBitarray.setBundle (bitarray : SysBitarray) (idx : Nat) (bundle : BitVec 32) : SysBitarray :=
  { bitarray with
    bundles := bitarray.bundles.set idx bundle
    length_eq := by rw [List.length_set, bitarray.length_eq] }

/-- The macro `BIT`. -/
def cBit (n : Nat) : BitVec 32 :=
  1#32 <<< n

/-- `find_lsb_set`: one more than the lowest set place, or zero. -/
def findLsbSet (op : BitVec 32) : Nat :=
  if op = 0#32 then 0 else lowestSet op + 1

/-! ### Regions -/

structure BundleData where
  sidx : Nat
  eidx : Nat
  soff : Nat
  eoff : Nat
  smask : BitVec 32
  emask : BitVec 32
  deriving DecidableEq, Repr

/-- `offset + num_bits - 1` -/
def offEnd (offset numBits : Nat) : Nat :=
  (offset + numBits + (2 ^ 32 - 1)) % 2 ^ 32

def setupBundleData (offset numBits : Nat) : BundleData :=
  let sidx := offset / 32
  let soff := offset % 32
  let eidx := offEnd offset numBits / 32
  let eoff := offEnd offset numBits % 32
  let smask := ~~~(cBit soff - 1#32)
  let emask := (cBit eoff - 1#32) ||| cBit eoff
  { sidx, eidx, soff, eoff
    smask := if sidx = eidx then smask &&& emask else smask
    emask }

/-- A bundle of the start or the end of a region as it is compared with the mask. -/
def matchBundle (matchSet : Bool) (bundle : BitVec 32) : BitVec 32 :=
  if matchSet then bundle else ~~~bundle

/-- The bit that a mismatch is reported for: the lowest one of the bundle. -/
def mismatchBit (mismatchBundle : BitVec 32) (mismatchBundleIdx : Nat) : Nat :=
  (findLsbSet mismatchBundle - 1 + mismatchBundleIdx * 32) % 2 ^ 32

/-- The loop over the bundles between the first and the last. -/
def matchBetween (bitarray : SysBitarray) (matchSet : Bool) : Nat → Nat → Option Nat
  | 0, _ => none
  | left + 1, idx =>
      let bundle := if matchSet then ~~~bitarray.bundle idx else bitarray.bundle idx
      if bundle ≠ 0#32 then some (mismatchBit bundle idx)
      else matchBetween bitarray matchSet left (idx + 1)

/-- `match_region`: nothing when the region matches, else the mismatched bit. -/
def matchRegion (bitarray : SysBitarray) (offset numBits : Nat) (matchSet : Bool)
    : BundleData × Option Nat :=
  let bd := setupBundleData offset numBits
  let start := matchBundle matchSet (bitarray.bundle bd.sidx)
  if start &&& bd.smask ≠ bd.smask then
    (bd, some (mismatchBit (~~~start &&& bd.smask) bd.sidx))
  else if bd.sidx = bd.eidx then (bd, none)
  else
    let last := matchBundle matchSet (bitarray.bundle bd.eidx)
    if last &&& bd.emask ≠ bd.emask then
      (bd, some (mismatchBit (~~~last &&& bd.emask) bd.eidx))
    else (bd, matchBetween bitarray matchSet (bd.eidx - (bd.sidx + 1)) (bd.sidx + 1))

/-- `|= mask` or `&= ~mask` -/
def changeBundle (toSet : Bool) (mask bundle : BitVec 32) : BitVec 32 :=
  if toSet then bundle ||| mask else bundle &&& ~~~mask

/-- The loop that fills the bundles between the first and the last. -/
def setBetween (toSet : Bool) : Nat → Nat → SysBitarray → SysBitarray
  | 0, _, bitarray => bitarray
  | left + 1, idx, bitarray =>
      setBetween toSet left (idx + 1) (bitarray.setBundle idx (if toSet then ~~~0#32 else 0#32))

def setRegion (bitarray : SysBitarray) (toSet : Bool) (bd : BundleData) : SysBitarray :=
  let started :=
    bitarray.setBundle bd.sidx (changeBundle toSet bd.smask (bitarray.bundle bd.sidx))
  if bd.sidx = bd.eidx then started
  else
    let ended :=
      started.setBundle bd.eidx (changeBundle toSet bd.emask (started.bundle bd.eidx))
    setBetween toSet (bd.eidx - (bd.sidx + 1)) (bd.sidx + 1) ended

/-! ### Allocating and freeing -/

/-- The first loop of `sys_bitarray_alloc`: the first bit that is not allocated. -/
def firstFree : List (BitVec 32) → Nat → Nat
  | [], bitIdx => bitIdx
  | bundle :: rest, bitIdx =>
      if ~~~bundle = 0#32 then firstFree rest ((bitIdx + 32) % 2 ^ 32)
      else if bundle ≠ 0#32 then (bitIdx + (findLsbSet (~~~bundle) - 1)) % 2 ^ 32
      else bitIdx

/-- The second loop of `sys_bitarray_alloc`, for at most so many turns; nothing when they do not
suffice.
-/
def allocLoop (bitarray : SysBitarray) (numBits offEnd : Nat)
    : Nat → Nat → Option (Int × Option Nat × SysBitarray)
  | 0, _ => none
  | turns + 1, bitIdx =>
      if bitIdx ≤ offEnd then
        match matchRegion bitarray bitIdx numBits false with
        | (bd, none) => some (0, some bitIdx, setRegion bitarray true bd)
        | (_, some mismatch) =>
            allocLoop bitarray numBits offEnd turns ((mismatch + 1) % 2 ^ 32)
      else some (-enospc, none, bitarray)

/-- `sys_bitarray_alloc` with its code, the offset and the array it leaves. -/
def sysBitarrayAlloc (bitarray : SysBitarray) (numBits : Nat)
    : Option (Int × Option Nat × SysBitarray) :=
  if numBits = 0 ∨ numBits > bitarray.numBits then some (-einval, none, bitarray)
  else
    allocLoop bitarray numBits (bitarray.numBits - numBits) (bitarray.numBits + 1)
      (firstFree bitarray.bundles 0)

def sysBitarrayFree (bitarray : SysBitarray) (numBits offset : Nat) : Int × SysBitarray :=
  if numBits = 0 ∨ numBits > bitarray.numBits ∨ offset ≥ bitarray.numBits
      ∨ offEnd offset numBits ≥ bitarray.numBits then
    (-einval, bitarray)
  else
    match matchRegion bitarray offset numBits true with
    | (bd, none) => (0, setRegion bitarray false bd)
    | (_, some _) => (-efault, bitarray)

end Zephyr.BitArray
