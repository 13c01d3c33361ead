import Mathlib.Data.List.Nodup
import Mathlib.Data.Nat.ModEq

/-! Ring storage: a window of `count` slots from `start` on, taken around the end. -/

namespace Zephyr.Library

variable {α : Type*}

/-- The contents of `count` slots from `start` on in a ring of `capacity` slots. -/
def window (slots : Nat → α) (capacity start count : Nat) : List α :=
  (List.range count).map (fun i => slots ((start + i) % capacity))

@[simp]
theorem window_length (slots : Nat → α) (capacity start count : Nat)
    : (window slots capacity start count).length = count := by
  simp [window]

@[simp]
theorem window_zero (slots : Nat → α) (capacity start : Nat)
    : window slots capacity start 0 = [] :=
  rfl

/-- Two different offsets below the capacity name two different slots. -/
theorem ring_slot_ne {capacity start i j : Nat} (less : i < j) (bound : j < capacity)
    : (start + i) % capacity ≠ (start + j) % capacity := by
  intro same
  have congruent : i ≡ j [MOD capacity] := Nat.ModEq.add_left_cancel' start same
  have equal := Nat.ModEq.eq_of_lt_of_lt congruent (lt_trans less bound) bound
  omega

theorem window_congr {slots other : Nat → α} {capacity start count : Nat}
    (same
      : ∀ i < count, slots ((start + i) % capacity) = other ((start + i) % capacity))
    : window slots capacity start count = window other capacity start count :=
  List.map_congr_left (fun i member => same i (List.mem_range.mp member))

theorem window_push {slots : Nat → α} {capacity start count : Nat} (room : count < capacity)
    (item : α)
    : window (Function.update slots ((start + count) % capacity) item) capacity start (count + 1)
      = window slots capacity start count ++ [item] := by
  rw [window, List.range_succ, List.map_append, List.map_cons, List.map_nil,
    Function.update_self]
  congr 1
  refine window_congr ?_
  intro i less
  exact Function.update_of_ne (ring_slot_ne less room) _ _

theorem window_pop (slots : Nat → α) (capacity start count : Nat)
    : window slots capacity start (count + 1)
      = slots (start % capacity) :: window slots capacity ((start + 1) % capacity) count := by
  rw [window, List.range_succ_eq_map, List.map_cons, List.map_map]
  congr 1
  refine List.map_congr_left ?_
  intro i _
  change slots ((start + (i + 1)) % capacity) = _
  rw [Nat.mod_add_mod, Nat.add_assoc, Nat.add_comm 1 i]

theorem window_mod (slots : Nat → α) (capacity start count : Nat)
    : window slots capacity (start % capacity) count = window slots capacity start count := by
  simp only [window, Nat.mod_add_mod]

theorem window_rotate {capacity : Nat} (positive : 0 < capacity) (slots : Nat → α) (start : Nat)
    (item : α)
    : window (Function.update slots (start % capacity) item) capacity (start + 1) capacity
      = (window slots capacity start capacity).tail ++ [item] := by
  obtain ⟨less, rfl⟩ := Nat.exists_eq_add_one_of_ne_zero positive.ne'
  have slot : start % (less + 1) = (start + 1 + less) % (less + 1) := by
    rw [Nat.add_assoc, Nat.add_comm 1 less, Nat.add_mod_right]
  rw [slot, window_push (Nat.lt_succ_self less), window_pop, List.tail_cons, window_mod]

/-! ### Places -/

/-! ### Contiguous copies -/

/-- Copy a list into the slots from `start` on, one after the other. -/
def copyIn (slots : Nat → α) (start : Nat) : List α → Nat → α
  | [] => slots
  | item :: rest => copyIn (Function.update slots start item) (start + 1) rest

/-- The contents of `count` slots from `start` on, without going around the end. -/
def copyOut (slots : Nat → α) (start count : Nat) : List α :=
  (List.range count).map (fun i => slots (start + i))

@[simp]
theorem copyOut_length (slots : Nat → α) (start count : Nat)
    : (copyOut slots start count).length = count := by
  simp [copyOut]

end Zephyr.Library
