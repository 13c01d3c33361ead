import Zephyr.Smf.Model

/-! What the loops over ancestors and a transition do to a context. -/

namespace Zephyr.Smf

open Zephyr.Library

variable {S : Type*} {ctx next final : Ctx S} {calls : List (Call S)}

/-- Only actions were called, and none of them asked for a transition. -/
structure Ctx.Acted (ctx next : Ctx S) (calls : List (Call S)) : Prop where
  current : next.current = ctx.current
  previous : next.previous = ctx.previous
  exit : next.exit = ctx.exit
  transitions : next.transitions = ctx.transitions
  cut : next.cut = ctx.cut
  calls : next.calls = calls.reverse ++ ctx.calls

theorem Ctx.Acted.refl (ctx : Ctx S) : ctx.Acted ctx [] :=
  ⟨rfl, rfl, rfl, rfl, rfl, rfl⟩

theorem Ctx.Acted.trans {later : List (Call S)} (first : ctx.Acted next calls)
    (second : next.Acted final later)
    : ctx.Acted final (calls ++ later) where
  current := second.current.trans first.current
  previous := second.previous.trans first.previous
  exit := second.exit.trans first.exit
  transitions := second.transitions.trans first.transitions
  cut := second.cut.trans first.cut
  calls := by
    rw [second.calls, first.calls, List.reverse_append, List.append_assoc]

theorem notices_acted (ctx : Ctx S) (notices : List Notice)
    : ctx.Acted (ctx.notices notices) []
      ∧ (ctx.notices notices).active = ctx.active := by
  unfold Ctx.notices
  induction notices generalizing ctx with
  | nil => exact ⟨.refl ctx, rfl⟩
  | cons notice rest ih =>
      obtain ⟨acted, active⟩ := ih (ctx.notice notice)
      have first : ctx.Acted (ctx.notice notice) [] ∧ (ctx.notice notice).active = ctx.active := by
        cases notice <;> exact ⟨⟨rfl, rfl, rfl, rfl, rfl, rfl⟩, rfl⟩
      exact ⟨first.1.trans acted, active.trans first.2⟩

/-! ### Loops over ancestors -/

section

variable {shared : S → Bool} {act : Ctx S → S → Bool × Ctx S} {has : S → Bool}
variable {call : S → Call S} {list : List S}
variable {isShared : Ctx S → S → Bool}

theorem visit_acted (effect : List S → S → List S)
    (acts
      : ∀ ctx state,
          ctx.Acted (act ctx state).2 (([state].filter has).map call)
          ∧ (act ctx state).2.active = effect ctx.active state)
    (same : ∀ {ctx next calls}, ctx.Acted next calls → isShared next = isShared ctx)
    (list : List S) (ctx : Ctx S)
    : (∃ calls, ctx.Acted (visit isShared act list ctx).2 calls)
      ∧ ((visit isShared act list ctx).1 = false
          → ctx.Acted (visit isShared act list ctx).2
              (((list.filter (fun state => !isShared ctx state)).filter has).map call)
            ∧ (visit isShared act list ctx).2.active
              = (list.filter (fun state => !isShared ctx state)).foldl effect ctx.active) := by
  induction list generalizing ctx with
  | nil => exact ⟨⟨[], .refl ctx⟩, fun _ => ⟨.refl ctx, rfl⟩⟩
  | cons state rest ih =>
      unfold visit
      by_cases skipped : isShared ctx state = true
      · rw [if_pos skipped, List.filter_cons_of_neg (by simp [skipped])]
        exact ih ctx
      · obtain ⟨acted, active⟩ := acts ctx state
        rw [if_neg skipped, List.filter_cons_of_pos (by simp [skipped])]
        rcases isActed : act ctx state with ⟨_ | _, next⟩
        · rw [isActed] at acted active
          obtain ⟨⟨calls, later⟩, complete⟩ := ih next
          refine ⟨⟨_, acted.trans later⟩, fun goesOn => ?_⟩
          obtain ⟨later, isActive⟩ := complete goesOn
          rw [same acted] at later isActive
          refine ⟨?_, ?_⟩
          · rw [← List.singleton_append, List.filter_append, List.map_append]
            exact acted.trans later
          · rw [isActive, active]
            rfl
        · rw [isActed] at acted
          exact ⟨⟨_, acted⟩, nofun⟩

end

variable {machine : Machine S} {actions : Actions S} {state target : S}

theorem enterState_acted (machine : Machine S) (actions : Actions S) (ctx : Ctx S) (state : S)
    : ctx.Acted (enterState machine actions ctx state).2
        (([state].filter machine.entry).map .entry)
      ∧ (enterState machine actions ctx state).2.active = state :: ctx.active := by
  unfold enterState
  by_cases has : machine.entry state = true
  · obtain ⟨acted, active⟩ := notices_acted
      { ctx with active := state :: ctx.active, calls := .entry state :: ctx.calls }
      (actions.onEntry (.entry state :: ctx.calls))
    simp only [if_pos has, List.filter_cons_of_pos has, List.filter_nil]
    exact ⟨⟨acted.current, acted.previous, acted.exit, acted.transitions, acted.cut, acted.calls⟩,
      active⟩
  · simp only [if_neg has, List.filter_cons_of_neg has, List.filter_nil]
    exact ⟨⟨rfl, rfl, rfl, rfl, rfl, rfl⟩, trivial⟩

/-! ### Initial transitions -/

theorem initialLoop_leaf {fuel : Nat} (enough : machine.height ≤ machine.depth target + fuel)
    : machine.initial (initialLoop machine fuel target) = none
      ∧ target ∈ machine.lineage (initialLoop machine fuel target) := by
  induction fuel generalizing target with
  | zero => exact absurd (machine.depth_lt target) (Nat.not_lt.mpr enough)
  | succ fuel ih =>
      unfold initialLoop
      cases isInitial : machine.initial target with
      | none => exact ⟨isInitial, Forest.mem_lineage.mpr (Or.inl rfl)⟩
      | some inner =>
          have below := machine.initial_below isInitial
          have deeper := Forest.depth_lt_of_mem_above below
          have enough : machine.height ≤ machine.depth inner + fuel := by omega
          obtain ⟨isLeaf, isInside⟩ := ih enough
          refine ⟨isLeaf, Forest.mem_lineage.mpr (Or.inr ?_)⟩
          dsimp only
          rcases Forest.mem_lineage.mp isInside with same | above
          · rw [← same]
            exact below
          · exact Forest.above_trans above below

theorem deepest_leaf (machine : Machine S) (target : S) : machine.initial (deepest machine target) = none :=
  (initialLoop_leaf (Nat.le_add_left _ _)).1

theorem mem_lineage_deepest (target : S) : target ∈ machine.lineage (deepest machine target) :=
  (initialLoop_leaf (Nat.le_add_left _ _)).2

theorem deepest_eq (isLeaf : machine.initial target = none) : deepest machine target = target := by
  unfold deepest
  cases machine.height with
  | zero => rfl
  | succ height => rw [initialLoop, isLeaf]

theorem mem_above_deepest (hasInitial : machine.initial target ≠ none)
    : target ∈ machine.above (deepest machine target) := by
  rcases Forest.mem_lineage.mp (mem_lineage_deepest target) with same | isAbove
  · have isLeaf := deepest_leaf machine target
    rw [← same] at isLeaf
    exact absurd isLeaf hasInitial
  · exact isAbove

/-! ### Entering and exiting ancestors -/

variable [DecidableEq S]

theorem exitState_acted (machine : Machine S) (actions : Actions S) (ctx : Ctx S) (state : S)
    : ctx.Acted (exitState machine actions ctx state).2
        (([state].filter machine.exit).map .exit)
      ∧ (exitState machine actions ctx state).2.active = ctx.active.erase state := by
  unfold exitState
  by_cases has : machine.exit state = true
  · obtain ⟨acted, active⟩ := notices_acted
      { ctx with active := ctx.active.erase state, calls := .exit state :: ctx.calls }
      (actions.onExit (.exit state :: ctx.calls))
    simp only [if_pos has, List.filter_cons_of_pos has, List.filter_nil]
    exact ⟨⟨acted.current, acted.previous, acted.exit, acted.transitions, acted.cut, acted.calls⟩,
      active⟩
  · simp only [if_neg has, List.filter_cons_of_neg has, List.filter_nil]
    exact ⟨⟨rfl, rfl, rfl, rfl, rfl, rfl⟩, trivial⟩

theorem lastStateShareParen_acted (acted : ctx.Acted next calls)
    : lastStateShareParen machine next = lastStateShareParen machine ctx := by
  funext state
  unfold lastStateShareParen
  rw [acted.previous]

theorem getChildOf_eq {up down : List S} {parent : S}
    (isLineage : machine.lineage target = target :: (down.reverse ++ parent :: up))
    : getChildOf machine target (some parent) = (down ++ [target]).head? := by
  obtain ⟨child, more, isDown⟩ := List.exists_cons_of_ne_nil
    (List.append_ne_nil_of_right_ne_nil down (List.cons_ne_nil target []))
  have reversed := congrArg List.reverse isDown
  rw [List.reverse_append, List.reverse_singleton, List.singleton_append, List.reverse_cons]
    at reversed
  have split : machine.lineage target = more.reverse ++ child :: parent :: up := by
    rw [isLineage, ← List.cons_append, reversed, List.append_assoc, List.singleton_append]
  rw [isDown, List.head?_cons]
  exact Forest.find_child split

theorem entryLoop_eq {up down : List S} {fuel : Nat} (enough : down.length < fuel)
    (isLineage : machine.lineage target = target :: (down.reverse ++ up))
    (ctx : Ctx S)
    : entryLoop machine actions target fuel (down ++ [target]).head? ctx
      = visit (lastStateShareParen machine) (enterState machine actions) down ctx := by
  induction down generalizing up fuel ctx with
  | nil =>
      obtain ⟨fuel, rfl⟩ := Nat.exists_eq_add_one_of_ne_zero (Nat.ne_zero_of_lt enough)
      rw [List.nil_append, List.head?_cons, entryLoop, if_pos rfl]
      rfl
  | cons toExecute down ih =>
      obtain ⟨fuel, rfl⟩ := Nat.exists_eq_add_one_of_ne_zero (Nat.ne_zero_of_lt enough)
      have isBelow : toExecute ≠ target := by
        rintro rfl
        have nodup := machine.nodup_lineage toExecute
        rw [isLineage] at nodup
        simp at nodup
      have isNext : machine.lineage target = target :: (down.reverse ++ toExecute :: up) := by
        rw [isLineage, List.reverse_cons, List.append_assoc, List.singleton_append]
      have isChild := getChildOf_eq isNext
      have goesOn := ih (Nat.lt_of_succ_lt_succ enough) isNext
      rw [List.cons_append, List.head?_cons, entryLoop, if_neg isBelow, isChild, visit]
      by_cases shared : lastStateShareParen machine ctx toExecute = true
      · rw [if_pos shared, if_pos shared, goesOn]
      · rw [if_neg shared, if_neg shared]
        rcases enterState machine actions ctx toExecute with ⟨_ | _, next⟩
        · exact goesOn next
        · rfl

theorem executeAncestorEntryActions_eq (ctx : Ctx S) (target : S)
    : executeAncestorEntryActions machine actions ctx target
      = visit (lastStateShareParen machine) (enterState machine actions)
          (machine.above target).reverse ctx := by
  have isLast : getLastOf machine target = ((machine.above target).reverse ++ [target]).head? := by
    refine (Forest.find_root target).trans ?_
    rw [Forest.lineage_eq, ← List.head?_reverse, List.reverse_cons]
  have short : (machine.above target).reverse.length < machine.height + 1 := by
    rw [List.length_reverse]
    exact Nat.lt_succ_of_lt
      (Nat.lt_of_le_of_lt (Forest.length_above_le target) (machine.depth_lt target))
  have isLineage
      : machine.lineage target = target :: ((machine.above target).reverse.reverse ++ []) := by
    rw [Forest.lineage_eq, List.reverse_reverse, List.append_nil]
  unfold executeAncestorEntryActions
  rw [isLast]
  exact entryLoop_eq short isLineage ctx

/-- The states that a transition enters, or that are entered at first, from the outermost on. -/
def Machine.entries (machine : Machine S) (previous : Option S) (target : S) : List S :=
  (machine.above target).reverse.filter
    (fun state => !(previous.any (fun previous => shareParen machine previous state)))
  ++ [target]

/-- The states that a transition exits, from the innermost on. -/
def Machine.exits (machine : Machine S) (source target : S) : List S :=
  source :: (machine.above source).filter (fun state => !shareParen machine target state)

theorem executeEntry_acted (machine : Machine S) (actions : Actions S) (ctx : Ctx S) (target : S)
    : (∃ calls, ctx.Acted (executeAncestorEntryActions machine actions ctx target).2 calls)
      ∧ ((executeAncestorEntryActions machine actions ctx target).1 = false
          → ctx.Acted
              (enterState machine actions
                (executeAncestorEntryActions machine actions ctx target).2 target).2
              (((machine.entries ctx.previous target).filter machine.entry).map .entry)
            ∧ (enterState machine actions
                (executeAncestorEntryActions machine actions ctx target).2 target).2.active
              = (machine.entries ctx.previous target).reverse ++ ctx.active) := by
  have isShared : (fun state => !lastStateShareParen machine ctx state)
      = fun state => !(ctx.previous.any (fun previous => shareParen machine previous state)) := by
    funext state
    unfold lastStateShareParen
    cases ctx.previous <;> rfl
  obtain ⟨some, complete⟩ := visit_acted (fun active state => state :: active)
    (enterState_acted machine actions) lastStateShareParen_acted (machine.above target).reverse ctx
  rw [← executeAncestorEntryActions_eq, isShared] at complete
  rw [← executeAncestorEntryActions_eq] at some
  refine ⟨some, fun goesOn => ?_⟩
  obtain ⟨ancestors, isActive⟩ := complete goesOn
  obtain ⟨last, isLast⟩ := enterState_acted machine actions
    (executeAncestorEntryActions machine actions ctx target).2 target
  unfold Machine.entries
  refine ⟨?_, ?_⟩
  · rw [List.filter_append, List.map_append]
    exact ancestors.trans last
  · rw [isLast, isActive, List.reverse_append, List.reverse_singleton, List.singleton_append,
      List.cons_append, List.foldl_flip_cons_eq_append']

theorem executeExit_acted (machine : Machine S) (actions : Actions S) (ctx : Ctx S) (target : S)
    : (∃ calls, ctx.Acted (executeAncestorExitActions machine actions ctx target).2 calls)
      ∧ ((executeAncestorExitActions machine actions ctx target).1 = false
          → ctx.Acted (executeAncestorExitActions machine actions ctx target).2
              ((((machine.above ctx.current).filter
                  (fun state => !shareParen machine target state)).filter machine.exit).map .exit)
            ∧ (executeAncestorExitActions machine actions ctx target).2.active
              = ((machine.above ctx.current).filter
                  (fun state => !shareParen machine target state)).foldl List.erase ctx.active) :=
  visit_acted List.erase (exitState_acted machine actions) (fun _ => rfl)
    (machine.above ctx.current) ctx

/-! ### One transition -/

/-- What a transition that is completed does. -/
structure Completed (machine : Machine S) (ctx next : Ctx S) (target : S) : Prop where
  current : next.current = deepest machine target
  exit : next.exit = false
  cut : next.cut = ctx.cut
  active
    : next.active
      = (machine.entries (some ctx.current) (deepest machine target)).reverse
        ++ (machine.exits ctx.current target).foldl List.erase ctx.active
  transitions
    : next.transitions
      = { source := ctx.current
          requested := target
          target := deepest machine target
          calls :=
            ((machine.exits ctx.current target).filter machine.exit).map .exit
            ++ ((machine.entries (some ctx.current) (deepest machine target)).filter
                machine.entry).map .entry
          active := next.active
          afterCut := ctx.cut }
        :: ctx.transitions

/-- `smf_set_state` is ignored while a state is exited, is cut short, or completes a transition. -/
inductive Changed (machine : Machine S) (ctx : Ctx S) (target : S) : Ctx S → Prop where
  | ignored (exiting : ctx.exit = true) : Changed machine ctx target ctx
  | cut {next : Ctx S} (isCut : next.cut = true) (same : next.transitions = ctx.transitions)
      (isCurrent : next.current = ctx.current ∨ next.current = deepest machine target)
      : Changed machine ctx target next
  | completed {next : Ctx S} (completed : Completed machine ctx next target)
      : Changed machine ctx target next

theorem enterTarget_completed {outside inside : Ctx S}
    (left
      : ({ ctx with exit := true } : Ctx S).Acted outside
          (((machine.exits ctx.current target).filter machine.exit).map .exit))
    (isLeft
      : outside.active = (machine.exits ctx.current target).foldl List.erase ctx.active)
    (entered
      : (outside.moveTo (deepest machine target)).Acted inside
          (((machine.entries (some outside.current) (deepest machine target)).filter
            machine.entry).map .entry))
    (isEntered
      : inside.active
        = (machine.entries (some outside.current) (deepest machine target)).reverse
          ++ outside.active)
    : Completed machine ctx (inside.record ctx target) target := by
  have isSource : outside.current = ctx.current := left.current
  have isTarget : inside.current = deepest machine target := entered.current
  have isCalls : inside.calls = _ ++ outside.calls := entered.calls
  rw [left.calls, ← List.append_assoc, ← List.reverse_append] at isCalls
  rw [isSource] at isCalls isEntered
  rw [isLeft] at isEntered
  refine ⟨isTarget, entered.exit, entered.cut.trans left.cut, isEntered, ?_⟩
  have others : inside.transitions = ctx.transitions := entered.transitions.trans left.transitions
  unfold Ctx.record
  rw [isTarget, others, isCalls, List.length_append, Nat.add_sub_cancel, List.take_left,
    List.reverse_reverse]

theorem leaveAncestors_changed {left : Ctx S}
    (acted : ({ ctx with exit := true } : Ctx S).Acted left
      (([ctx.current].filter machine.exit).map .exit))
    (isActive : left.active = ctx.active.erase ctx.current)
    : Changed machine ctx target (leaveAncestors machine actions ctx left target) := by
  have begun : ({ ctx with exit := true } : Ctx S).Acted { left with newState := true }
      (([ctx.current].filter machine.exit).map .exit) :=
    ⟨acted.current, acted.previous, acted.exit, acted.transitions, acted.cut, acted.calls⟩
  obtain ⟨⟨_, some⟩, complete⟩ := executeExit_acted machine actions { left with newState := true }
    target
  unfold leaveAncestors
  rcases isExit : executeAncestorExitActions machine actions { left with newState := true } target
    with ⟨_ | _, outside⟩
  · rw [isExit] at complete
    obtain ⟨exited, isExited⟩ := complete rfl
    have left := begun.trans exited
    rw [← List.map_append, ← List.filter_append, acted.current, List.singleton_append,
      ← Machine.exits] at left
    rw [acted.current, isActive, ← List.foldl_cons, ← Machine.exits] at isExited
    obtain ⟨⟨_, some⟩, complete⟩ := executeEntry_acted machine actions
      (outside.moveTo (deepest machine target)) (deepest machine target)
    dsimp only
    rcases isEntry : executeAncestorEntryActions machine actions
      (outside.moveTo (deepest machine target)) (deepest machine target) with ⟨_ | _, inside⟩
    · rw [isEntry] at some complete
      obtain ⟨entered, isEntered⟩ := complete rfl
      dsimp only
      rw [show inside.current = deepest machine target from some.current]
      exact .completed (enterTarget_completed left isExited entered isEntered)
    · rw [isEntry] at some
      exact .cut rfl (some.transitions.trans left.transitions) (Or.inr some.current)
  · rw [isExit] at some
    exact .cut rfl (some.transitions.trans acted.transitions)
      (Or.inl (some.current.trans acted.current))

theorem smfSetState_changed (machine : Machine S) (actions : Actions S) (ctx : Ctx S) (target : S)
    : Changed machine ctx target (smfSetState machine actions ctx target) := by
  unfold smfSetState
  by_cases exiting : ctx.exit = true
  · rw [if_pos exiting]
    exact .ignored exiting
  · rw [if_neg exiting]
    obtain ⟨first, isFirst⟩ := exitState_acted machine actions { ctx with exit := true } ctx.current
    rcases isExit : exitState machine actions { ctx with exit := true } ctx.current
      with ⟨_ | _, left⟩
    · rw [isExit] at first isFirst
      exact leaveAncestors_changed first isFirst
    · rw [isExit] at first
      exact .cut rfl first.transitions (Or.inl first.current)

end Zephyr.Smf
