import Mathlib.Data.List.Basic

/-! Loops whose turns go on with a state or leave with a result, and rules for them. -/

namespace Zephyr.Library

variable {σ ρ : Type*}

/-- The result of a loop that ends within `fuel` turns. -/
def loop (turn : σ → σ ⊕ ρ) : Nat → σ → Option ρ
  | 0, _ => none
  | fuel + 1, state =>
      match turn state with
      | .inl next => loop turn fuel next
      | .inr result => some result

/-- A loop ends whose turns keep an invariant and use up a measure. -/
theorem loop_ends {turn : σ → σ ⊕ ρ} (invariant : σ → Prop) (measure : σ → Nat)
    (turns
      : ∀ {state next},
          invariant state
          → turn state = .inl next
          → invariant next ∧ measure next < measure state)
    {fuel : Nat} {state : σ} (start : invariant state) (enough : measure state < fuel)
    : ∃ result, loop turn fuel state = some result := by
  induction fuel generalizing state with
  | zero => exact absurd enough (Nat.not_lt_zero _)
  | succ fuel ih =>
      rw [loop]
      cases turned : turn state with
      | inl next =>
          obtain ⟨kept, less⟩ := turns start turned
          exact ih kept (by omega)
      | inr result => exact ⟨result, rfl⟩

/-- What every turn keeps holds where the loop is left. -/
theorem loop_invariant {turn : σ → σ ⊕ ρ} (invariant : σ → Prop) (good : ρ → Prop)
    (turns : ∀ {state next}, invariant state → turn state = .inl next → invariant next)
    (leaves : ∀ {state result}, invariant state → turn state = .inr result → good result)
    {fuel : Nat} {state : σ} {result : ρ} (start : invariant state)
    (ended : loop turn fuel state = some result)
    : good result := by
  induction fuel generalizing state with
  | zero => cases ended
  | succ fuel ih =>
      rw [loop] at ended
      cases turned : turn state with
      | inl next =>
          rw [turned] at ended
          exact ih (turns start turned) ended
      | inr left =>
          rw [turned] at ended
          exact Option.some.inj ended ▸ leaves start turned

end Zephyr.Library
