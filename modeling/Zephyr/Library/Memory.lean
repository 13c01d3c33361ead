import Mathlib

/-! A flat memory of bytes with little-endian words in it. -/

namespace Zephyr.Library

/-- The byte at each address. -/
abbrev Memory := Nat → UInt8

/-- The word of `width` bytes at `address`. -/
def load (memory : Memory) (address : Nat) : (width : Nat) → Nat
  | 0 => 0
  | width + 1 => (memory address).toNat + 256 * load memory (address + 1) width

def store (memory : Memory) (address width value : Nat) : Memory :=
  fun place =>
    if address ≤ place ∧ place < address + width then
      UInt8.ofNat (value / 256 ^ (place - address))
    else
      memory place

/-- `memcpy` of `count` bytes to `target`, read before any of them is written. -/
def copyBytes (memory : Memory) (target source count : Nat) : Memory :=
  fun place =>
    if target ≤ place ∧ place < target + count then
      memory (source + (place - target))
    else
      memory place

theorem load_congr {memory other : Memory} {address width : Nat}
    (agree : ∀ place, address ≤ place → place < address + width → other place = memory place)
    : load other address width = load memory address width := by
  induction width generalizing address with
  | zero => rfl
  | succ width ih =>
      rw [load, load, agree address (Nat.le_refl _) (by omega),
        ih fun place lower upper => agree place (by omega) (by omega)]

theorem store_outside {memory : Memory} {address width value place : Nat}
    (outside : place < address ∨ address + width ≤ place)
    : store memory address width value place = memory place := by
  rw [store, if_neg (by omega)]

theorem load_store_outside {memory : Memory} {address width value place count : Nat}
    (outside : place + count ≤ address ∨ address + width ≤ place)
    : load (store memory address width value) place count = load memory place count :=
  load_congr fun _ _ _ => store_outside (by omega)

theorem load_store {memory : Memory} {address width value : Nat}
    : load (store memory address width value) address width = value % 256 ^ width := by
  -- the stored word past its first byte is the store of the quotient one address further
  induction width generalizing memory address value with
  | zero => simp only [load, Nat.pow_zero, Nat.mod_one]
  | succ width ih =>
      have rest : load (store memory address (width + 1) value) (address + 1) width
          = load (store memory (address + 1) width (value / 256)) (address + 1) width := by
        refine load_congr fun place lower upper => ?_
        have shift : place - address = (place - (address + 1)).succ := by omega
        rw [store, store, if_pos (by omega), if_pos (by omega), Nat.div_div_eq_div_mul,
          ← Nat.pow_succ', shift]
      have first : (UInt8.ofNat value).toNat = value % 256 := UInt8.toNat_ofNat'
      rw [load, rest, ih, store, if_pos (by omega), Nat.sub_self, Nat.pow_zero, Nat.div_one,
        first, Nat.pow_succ', Nat.mod_mul]

theorem load_store_of_lt {memory : Memory} {address width value : Nat}
    (fits : value < 256 ^ width)
    : load (store memory address width value) address width = value := by
  rw [load_store, Nat.mod_eq_of_lt fits]

end Zephyr.Library
