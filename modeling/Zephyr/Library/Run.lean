import Mathlib.Data.List.Basic
import Mathlib.Logic.Function.Iterate

/-! Runs of a partial step function and the invariant rules for them.
A step that is not enabled in a state is `none`; a run is a finite list of calls.
-/

namespace Zephyr.Library

variable {σ α : Type*}

/-- The state after making `calls` in order, or `none` once a call is not enabled. -/
def run (step : σ → α → Option σ) : σ → List α → Option σ
  | state, [] => some state
  | state, call :: rest => (step state call).bind (fun next => run step next rest)

/-- Each call of the run meets `meets` in the state it is made from. -/
def RunMeets (step : σ → α → Option σ) (meets : σ → α → Prop) : σ → List α → Prop
  | _, [] => True
  | state, call :: rest =>
      meets state call
      ∧ match step state call with
        | none => True
        | some next => RunMeets step meets next rest

instance RunMeets.decidable (step : σ → α → Option σ) (meets : σ → α → Prop)
    [∀ state call, Decidable (meets state call)]
    : (state : σ) → (calls : List α) → Decidable (RunMeets step meets state calls)
  | _, [] => .isTrue trivial
  | state, call :: rest =>
      match found : step state call with
      | none => decidable_of_iff (meets state call) (by simp [RunMeets, found])
      | some next =>
          have := RunMeets.decidable step meets next rest
          decidable_of_iff (meets state call ∧ RunMeets step meets next rest)
            (by simp [RunMeets, found])

theorem run_cons {step : σ → α → Option σ} {state final : σ} {call : α} {rest : List α}
    : run step state (call :: rest) = some final
      ↔ ∃ next, step state call = some next ∧ run step next rest = some final := by
  simp only [run, Option.bind_eq_some_iff]

/-- An invariant of every step that meets its side condition holds after every run whose
steps all meet it. Witness: induction over the calls.
-/
theorem run_invariant_of_meets (invariant : σ → Prop) {step : σ → α → Option σ}
    {meets : σ → α → Prop}
    (preserved
      : ∀ {state call next},
          invariant state
          → meets state call
          → step state call = some next
          → invariant next)
    {calls : List α} {state final : σ} (start : invariant state)
    (conditions : RunMeets step meets state calls)
    (ran : run step state calls = some final)
    : invariant final := by
  induction calls generalizing state with
  | nil => exact Option.some.inj ran ▸ start
  | cons call rest ih =>
      obtain ⟨next, stepped, continued⟩ := run_cons.mp ran
      rw [RunMeets, stepped] at conditions
      exact ih (preserved start conditions.1 stepped) conditions.2 continued

theorem RunMeets.of_initial {step : σ → α → Option σ} {meets : σ → α → Prop} {state : σ}
    {calls front : List α} (conditions : RunMeets step meets state calls)
    (early : front <+: calls)
    : RunMeets step meets state front := by
  induction calls generalizing state front with
  | nil => rwa [List.prefix_nil.mp early]
  | cons call rest ih =>
      rcases List.prefix_cons_iff.mp early with rfl | ⟨front, rfl, shorter⟩
      · trivial
      refine ⟨conditions.1, ?_⟩
      have later := conditions.2
      cases stepped : step state call with
      | none => trivial
      | some next =>
          rw [stepped] at later
          exact ih later shorter

theorem exists_run {step : σ → α → Option σ} (enabled : ∀ state call, (step state call).isSome)
    (calls : List α) (state : σ)
    : ∃ final, run step state calls = some final := by
  induction calls generalizing state with
  | nil => exact ⟨state, rfl⟩
  | cons call rest ih =>
      obtain ⟨next, stepped⟩ := Option.isSome_iff_exists.mp (enabled state call)
      obtain ⟨final, ran⟩ := ih next
      exact ⟨final, run_cons.mpr ⟨next, stepped, ran⟩⟩

/-- When every state of a run is good, its steps, of which something is `given`, meet a side
condition without which a step from the invariant does not lead to a good state.
-/
theorem runMeets_of_good_given (invariant good : σ → Prop) {step : σ → α → Option σ}
    {given meets : σ → α → Prop}
    (preserved
      : ∀ {state call next},
          invariant state
          → given state call
          → meets state call
          → step state call = some next
          → invariant next)
    (needed
      : ∀ {state call next},
          invariant state
          → given state call
          → step state call = some next
          → good next
          → meets state call)
    {calls : List α} {state last : σ} (start : invariant state)
    (conditions : RunMeets step given state calls)
    (ran : run step state calls = some last)
    (always : ∀ front final, front <+: calls → run step state front = some final → good final)
    : RunMeets step meets state calls := by
  induction calls generalizing state with
  | nil => trivial
  | cons call rest ih =>
      obtain ⟨next, stepped, continued⟩ := run_cons.mp ran
      have first := always [call] next (List.prefix_cons_inj call |>.mpr List.nil_prefix)
        (run_cons.mpr ⟨next, stepped, rfl⟩)
      rw [RunMeets, stepped] at conditions
      have met := needed start conditions.1 stepped first
      rw [RunMeets, stepped]
      refine ⟨met, ih (preserved start conditions.1 met stepped) conditions.2 continued ?_⟩
      intro front final early ran
      exact always (call :: front) final ((List.prefix_cons_inj call).mpr early)
        (run_cons.mpr ⟨next, stepped, ran⟩)

theorem RunMeets.of_mem {step : σ → α → Option σ} {meets : σ → α → Prop} {calls : List α}
    (always : ∀ call ∈ calls, ∀ state, meets state call) (state : σ)
    : RunMeets step meets state calls := by
  induction calls generalizing state with
  | nil => trivial
  | cons call rest ih =>
      refine ⟨always call List.mem_cons_self state, ?_⟩
      cases step state call with
      | none => trivial
      | some next => exact ih (fun call member => always call (List.mem_cons_of_mem _ member)) next

theorem RunMeets.of_forall {step : σ → α → Option σ} {meets : σ → α → Prop}
    (always : ∀ state call, meets state call) (state : σ) (calls : List α)
    : RunMeets step meets state calls :=
  .of_mem (fun call _ state => always state call) state

theorem RunMeets.and {step : σ → α → Option σ} {first second : σ → α → Prop} {state : σ}
    {calls : List α} (left : RunMeets step first state calls)
    (right : RunMeets step second state calls)
    : RunMeets step (fun state call => first state call ∧ second state call) state calls := by
  induction calls generalizing state with
  | nil => trivial
  | cons call rest ih =>
      refine ⟨⟨left.1, right.1⟩, ?_⟩
      have left' := left.2
      have right' := right.2
      cases stepped : step state call with
      | none => trivial
      | some next =>
          rw [stepped] at left' right'
          exact ih left' right'

/-- When every state of a run is good, its steps meet a side condition without which a step from
the invariant does not lead to a good state.
-/
theorem runMeets_of_good (invariant good : σ → Prop) {step : σ → α → Option σ}
    {meets : σ → α → Prop}
    (preserved
      : ∀ {state call next},
          invariant state
          → meets state call
          → step state call = some next
          → invariant next)
    (needed
      : ∀ {state call next},
          invariant state → step state call = some next → good next → meets state call)
    {calls : List α} {state last : σ} (start : invariant state)
    (ran : run step state calls = some last)
    (always : ∀ front final, front <+: calls → run step state front = some final → good final)
    : RunMeets step meets state calls := by
  have nothing : RunMeets step (fun _ _ => True) state calls :=
    .of_forall (fun _ _ => trivial) state calls
  refine runMeets_of_good_given invariant good ?_ ?_ start nothing ran always
  · exact fun holds _ met stepped => preserved holds met stepped
  · exact fun holds _ stepped isGood => needed holds stepped isGood

theorem run_invariant (invariant : σ → Prop) {step : σ → α → Option σ}
    (preserved
      : ∀ {state call next},
          invariant state → step state call = some next → invariant next)
    {calls : List α} {state final : σ} (start : invariant state)
    (ran : run step state calls = some final)
    : invariant final := by
  induction calls generalizing state with
  | nil => exact Option.some.inj ran ▸ start
  | cons call rest ih =>
      obtain ⟨next, stepped, continued⟩ := run_cons.mp ran
      exact ih (preserved start stepped) continued

/-- A loop whose turns keep an invariant and use up a measure has ended after as many turns as
the measure says, with the invariant.
-/
theorem iterate_ends {turn : σ → σ} (ended : σ → Prop) (measure : σ → Nat)
    (invariant : σ → Prop) (preserved : ∀ {state}, invariant state → invariant (turn state))
    (decreases
      : ∀ {state}, invariant state → ¬ended state → measure (turn state) < measure state)
    (stays : ∀ {state}, ended state → turn state = state)
    {state : σ} (start : invariant state)
    : ended (turn^[measure state] state) ∧ invariant (turn^[measure state] state) := by
  suffices bounded : ∀ turns {state}, invariant state → measure state ≤ turns
      → ended (turn^[turns] state) ∧ invariant (turn^[turns] state) by
    exact bounded _ start (Nat.le_refl _)
  intro turns
  induction turns with
  | zero =>
      intro state holds none
      refine ⟨?_, holds⟩
      by_contra running
      have := decreases holds running
      omega
  | succ turns ih =>
      intro state holds less
      rw [Function.iterate_succ_apply]
      by_cases done : ended state
      · rw [stays done, Function.iterate_fixed (stays done)]
        exact ⟨done, holds⟩
      · have := decreases holds done
        exact ih (preserved holds) (by omega)

end Zephyr.Library
