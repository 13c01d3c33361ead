import Zephyr.Smf.Activity

/-! Which run actions a call of `smf_run_state` calls.

An event goes from the current state to its ancestors until a run action answers it. The flags
`new_state` and `handled` carry the answer; a flag that is left over from before the call stops the
event at the current state.
-/

namespace Zephyr.Smf

variable {S : Type*} [DecidableEq S] {machine : Machine S} {actions : Actions S}
variable {ctx next final : Ctx S}

-----------------------------------------------------------------------------------------
-- What is asked for
-----------------------------------------------------------------------------------------

/-- The run actions of states in order, up to the first one that asks for a transition, declares the
event handled or terminates the machine.
-/
def propagate (machine : Machine S) (actions : Actions S) : List S → Ctx S → Ctx S
  | [], ctx => ctx
  | state :: rest, ctx =>
      if machine.run state then
        let ran := runAction machine actions ctx state
        if actions.onRun (.run state :: ctx.calls) = [] then propagate machine actions rest ran
        else ran
      else propagate machine actions rest ctx

/-- The context without the flags that carry the answer of a run action. -/
def Ctx.unflagged (ctx : Ctx S) : Ctx S :=
  { ctx with newState := false, handled := false }

/-- A call from outside. -/
inductive Op (S : Type*) where
  | run
  | setState (target : S)
  deriving DecidableEq, Repr

def Op.step (machine : Machine S) (actions : Actions S) (ctx : Ctx S) : Op S → Ctx S
  | .run => (smfRunState machine actions ctx).2
  | .setState target => smfSetState machine actions ctx target

/-- The context after it was initialised and after some calls. -/
def history (machine : Machine S) (actions : Actions S) (start : Ctx S) (initState : S)
    (ops : List (Op S))
    : Ctx S :=
  ops.foldl (Op.step machine actions) (smfSetInitial machine actions start initState)

/-- Entry and exit actions declare nothing handled. -/
def Actions.Quiet (actions : Actions S) : Prop :=
  ∀ calls, .handled ∉ actions.onEntry calls ∧ .handled ∉ actions.onExit calls

/-- In addition, no run action both asks for a transition and declares the event handled. -/
structure Actions.Tidy (actions : Actions S) : Prop where
  quiet : actions.Quiet
  onRun : ∀ calls target, .setState target ∈ actions.onRun calls
    → .notice .handled ∉ actions.onRun calls

-----------------------------------------------------------------------------------------
-- Flags in a transition
-----------------------------------------------------------------------------------------

/-- Entry and exit actions were called: no flag was cleared, and `new_state` and `exit` are as
before.
-/
structure Ctx.Noticed (actions : Actions S) (ctx next : Ctx S) : Prop where
  newState : next.newState = ctx.newState
  exit : next.exit = ctx.exit
  handled : ctx.handled = true → next.handled = true
  terminate : ctx.terminate = true → next.terminate = true
  quiet : actions.Quiet → next.handled = ctx.handled

omit [DecidableEq S] in
theorem Ctx.Noticed.trans (first : ctx.Noticed actions next) (second : next.Noticed actions final)
    : ctx.Noticed actions final where
  newState := second.newState.trans first.newState
  exit := second.exit.trans first.exit
  handled isHandled := second.handled (first.handled isHandled)
  terminate terminated := second.terminate (first.terminate terminated)
  quiet isQuiet := (second.quiet isQuiet).trans (first.quiet isQuiet)

omit [DecidableEq S] in
theorem notices_noticed (actions : Actions S) (ctx : Ctx S) {notices : List Notice}
    (quiet : actions.Quiet → .handled ∉ notices)
    : ctx.Noticed actions (ctx.notices notices) := by
  unfold Ctx.notices
  induction notices generalizing ctx with
  | nil => exact ⟨rfl, rfl, id, id, fun _ => rfl⟩
  | cons notice rest fromRest =>
      have first : ctx.Noticed actions (ctx.notice notice) := by
        cases notice with
        | terminate val => exact ⟨rfl, rfl, id, fun _ => rfl, fun _ => rfl⟩
        | handled =>
            exact ⟨rfl, rfl, fun _ => rfl, id,
              fun isQuiet => absurd List.mem_cons_self (quiet isQuiet)⟩
      exact first.trans
        (fromRest _ fun isQuiet inRest => quiet isQuiet (List.mem_cons_of_mem _ inRest))

omit [DecidableEq S] in
theorem enterState_noticed (machine : Machine S) (actions : Actions S) (ctx : Ctx S) (state : S)
    : ctx.Noticed actions (enterState machine actions ctx state).2
        ∧ ((enterState machine actions ctx state).1 = true
          → (enterState machine actions ctx state).2.terminate = true) := by
  unfold enterState
  by_cases has : machine.entry state = true
  · have noticed := notices_noticed actions
      { ctx with active := state :: ctx.active, calls := .entry state :: ctx.calls }
      fun isQuiet => (isQuiet (.entry state :: ctx.calls)).1
    simp only [if_pos has]
    exact ⟨⟨noticed.newState, noticed.exit, noticed.handled, noticed.terminate, noticed.quiet⟩, id⟩
  · simp only [if_neg has]
    exact ⟨⟨rfl, rfl, id, id, fun _ => rfl⟩, fun isFalse => by cases isFalse⟩

theorem exitState_noticed (machine : Machine S) (actions : Actions S) (ctx : Ctx S) (state : S)
    : ctx.Noticed actions (exitState machine actions ctx state).2
        ∧ ((exitState machine actions ctx state).1 = true
          → (exitState machine actions ctx state).2.terminate = true) := by
  unfold exitState
  by_cases has : machine.exit state = true
  · have noticed := notices_noticed actions
      { ctx with active := ctx.active.erase state, calls := .exit state :: ctx.calls }
      fun isQuiet => (isQuiet (.exit state :: ctx.calls)).2
    simp only [if_pos has]
    exact ⟨⟨noticed.newState, noticed.exit, noticed.handled, noticed.terminate, noticed.quiet⟩, id⟩
  · simp only [if_neg has]
    exact ⟨⟨rfl, rfl, id, id, fun _ => rfl⟩, fun isFalse => by cases isFalse⟩

omit [DecidableEq S] in
theorem visit_noticed {shared : Ctx S → S → Bool} {act : Ctx S → S → Bool × Ctx S}
    (acts
      : ∀ ctx state,
          ctx.Noticed actions (act ctx state).2
          ∧ ((act ctx state).1 = true → (act ctx state).2.terminate = true))
    (list : List S) (ctx : Ctx S)
    : ctx.Noticed actions (visit shared act list ctx).2
        ∧ ((visit shared act list ctx).1 = true
          → (visit shared act list ctx).2.terminate = true) := by
  induction list generalizing ctx with
  | nil => exact ⟨⟨rfl, rfl, id, id, fun _ => rfl⟩, fun isFalse => by cases isFalse⟩
  | cons state rest fromRest =>
      unfold visit
      split_ifs
      · exact fromRest ctx
      · obtain ⟨noticed, stops⟩ := acts ctx state
        rcases isActed : act ctx state with ⟨_ | _, next⟩
        · rw [isActed] at noticed
          exact ⟨noticed.trans (fromRest next).1, (fromRest next).2⟩
        · rw [isActed] at noticed stops
          exact ⟨noticed, stops⟩

theorem executeAncestorExitActions_noticed (machine : Machine S) (actions : Actions S) (ctx : Ctx S)
    (target : S)
    : ctx.Noticed actions (executeAncestorExitActions machine actions ctx target).2
        ∧ ((executeAncestorExitActions machine actions ctx target).1 = true
          → (executeAncestorExitActions machine actions ctx target).2.terminate = true) :=
  visit_noticed (exitState_noticed machine actions) (machine.above ctx.current) ctx

theorem executeAncestorEntryActions_noticed (machine : Machine S) (actions : Actions S)
    (ctx : Ctx S) (target : S)
    : ctx.Noticed actions (executeAncestorEntryActions machine actions ctx target).2
        ∧ ((executeAncestorEntryActions machine actions ctx target).1 = true
          → (executeAncestorEntryActions machine actions ctx target).2.terminate = true) := by
  rw [executeAncestorEntryActions_eq]
  exact visit_noticed (enterState_noticed machine actions) (machine.above target).reverse ctx

/-- No flag that answers an event is cleared, and a machine that is left in the middle of a
transition is terminated.
-/
structure Ctx.Grown (ctx next : Ctx S) : Prop where
  newState : ctx.newState = true → next.newState = true
  handled : ctx.handled = true → next.handled = true
  terminate : ctx.terminate = true → next.terminate = true
  exit : next.exit = true → next.terminate = true

/-- One of the flags that answer an event is set. -/
def Ctx.Answered (ctx : Ctx S) : Prop :=
  ctx.newState = true ∨ ctx.handled = true ∨ ctx.terminate = true

/-- The part of a transition behind the exit action of the current state. -/
theorem leaveAncestors_grown {begun : Ctx S} (machine : Machine S) (actions : Actions S)
    (target : S) (exiting : ctx.exit = true)
    : ctx.Grown (leaveAncestors machine actions begun ctx target)
        ∧ (leaveAncestors machine actions begun ctx target).newState = true
        ∧ (actions.Quiet
          → (leaveAncestors machine actions begun ctx target).handled = ctx.handled) := by
  unfold leaveAncestors
  obtain ⟨left, stops⟩ :=
    executeAncestorExitActions_noticed machine actions { ctx with newState := true } target
  rcases isLeft : executeAncestorExitActions machine actions { ctx with newState := true } target
    with ⟨_ | _, outside⟩
  · rw [isLeft] at left
    dsimp only
    generalize deepest machine target = inner
    obtain ⟨entered, stops⟩ :=
      executeAncestorEntryActions_noticed machine actions (outside.moveTo inner) inner
    rcases isEntered
      : executeAncestorEntryActions machine actions (outside.moveTo inner) inner
      with ⟨_ | _, inside⟩
    · rw [isEntered] at entered
      have last := entered.trans (enterState_noticed machine actions inside inside.current).1
      have isNew := last.newState.trans left.newState
      refine ⟨⟨fun _ => isNew, fun isHandled => last.handled (left.handled isHandled),
        fun terminated => last.terminate (left.terminate terminated), fun isExit => ?_⟩, isNew,
        fun isQuiet => (last.quiet isQuiet).trans (left.quiet isQuiet)⟩
      exact absurd (last.exit.symm.trans isExit) Bool.false_ne_true
    · rw [isEntered] at entered stops
      have isNew := entered.newState.trans left.newState
      exact ⟨⟨fun _ => isNew, fun isHandled => entered.handled (left.handled isHandled),
        fun terminated => entered.terminate (left.terminate terminated), fun _ => stops rfl⟩, isNew,
        fun isQuiet => (entered.quiet isQuiet).trans (left.quiet isQuiet)⟩
  · rw [isLeft] at left stops
    exact ⟨⟨fun _ => left.newState, left.handled, left.terminate, fun _ => stops rfl⟩,
      left.newState, left.quiet⟩

/-- A transition that is not ignored sets `new_state` or terminates the machine. -/
theorem smfSetState_grown (machine : Machine S) (actions : Actions S) (target : S)
    (inside : ctx.exit = false)
    : ctx.Grown (smfSetState machine actions ctx target)
        ∧ ((smfSetState machine actions ctx target).newState = true
          ∨ (smfSetState machine actions ctx target).terminate = true)
        ∧ (actions.Quiet → (smfSetState machine actions ctx target).handled = ctx.handled) := by
  unfold smfSetState
  rw [if_neg (by simp [inside])]
  obtain ⟨exited, stops⟩ := exitState_noticed machine actions { ctx with exit := true } ctx.current
  rcases isExited : exitState machine actions { ctx with exit := true } ctx.current
    with ⟨_ | _, left⟩
  · rw [isExited] at exited
    obtain ⟨grown, isNew, quiet⟩ := leaveAncestors_grown machine actions target exited.exit
    exact ⟨⟨fun _ => isNew, fun isHandled => grown.handled (exited.handled isHandled),
      fun terminated => grown.terminate (exited.terminate terminated), grown.exit⟩, .inl isNew,
      fun isQuiet => (quiet isQuiet).trans (exited.quiet isQuiet)⟩
  · rw [isExited] at exited stops
    have terminated := stops rfl
    exact ⟨⟨fun isNew => exited.newState.trans isNew, exited.handled, exited.terminate,
      fun _ => terminated⟩, .inr terminated, exited.quiet⟩

-----------------------------------------------------------------------------------------
-- Flags in a run action
-----------------------------------------------------------------------------------------

omit [DecidableEq S] in
theorem Ctx.Grown.refl (settled : ctx.exit = true → ctx.terminate = true) : ctx.Grown ctx :=
  ⟨id, id, id, settled⟩

omit [DecidableEq S] in
theorem Ctx.Grown.trans (first : ctx.Grown next) (second : next.Grown final) : ctx.Grown final :=
  ⟨fun isNew => second.newState (first.newState isNew),
    fun isHandled => second.handled (first.handled isHandled),
    fun terminated => second.terminate (first.terminate terminated), second.exit⟩

omit [DecidableEq S] in
theorem Ctx.Grown.answered (grown : ctx.Grown next) (answered : ctx.Answered) : next.Answered :=
  answered.imp grown.newState (Or.imp grown.handled grown.terminate)

theorem request_grown (machine : Machine S) (actions : Actions S) (asked : Request S)
    (settled : ctx.exit = true → ctx.terminate = true)
    : ctx.Grown (request machine actions ctx asked)
        ∧ (request machine actions ctx asked).Answered := by
  cases asked with
  | notice notice =>
      cases notice with
      | terminate val => exact ⟨⟨id, id, fun _ => rfl, fun _ => rfl⟩, .inr (.inr rfl)⟩
      | handled => exact ⟨⟨id, fun _ => rfl, id, settled⟩, .inr (.inl rfl)⟩
  | setState target =>
      by_cases exiting : ctx.exit = true
      · have ignored : smfSetState machine actions ctx target = ctx := if_pos exiting
        rw [request, ignored]
        exact ⟨.refl settled, .inr (.inr (settled exiting))⟩
      · obtain ⟨grown, isNew, _⟩ :=
          smfSetState_grown machine actions target (Bool.eq_false_of_not_eq_true exiting)
        exact ⟨grown, isNew.imp id Or.inr⟩

theorem requests_grown (machine : Machine S) (actions : Actions S) (requests : List (Request S))
    (settled : ctx.exit = true → ctx.terminate = true)
    : ctx.Grown (requests.foldl (request machine actions) ctx)
        ∧ (requests ≠ [] → (requests.foldl (request machine actions) ctx).Answered) := by
  induction requests generalizing ctx with
  | nil => exact ⟨.refl settled, fun isSome => absurd rfl isSome⟩
  | cons asked rest fromRest =>
      obtain ⟨grown, answered⟩ := request_grown machine actions asked settled
      have later := (fromRest grown.exit).1
      exact ⟨grown.trans later, fun _ => later.answered answered⟩

/-- Without a request for a transition `new_state` stays as it is, and without `smf_set_handled`
`handled` does.
-/
theorem requests_kept (machine : Machine S) (actions : Actions S) (requests : List (Request S))
    (settled : ctx.exit = true → ctx.terminate = true)
    : ((∀ target, .setState target ∉ requests)
        → (requests.foldl (request machine actions) ctx).newState = ctx.newState)
      ∧ (actions.Quiet → .notice .handled ∉ requests
        → (requests.foldl (request machine actions) ctx).handled = ctx.handled) := by
  induction requests generalizing ctx with
  | nil => exact ⟨fun _ => rfl, fun _ _ => rfl⟩
  | cons asked rest fromRest =>
      obtain ⟨keepsNew, keepsHandled⟩ :=
        fromRest (request_grown machine actions asked settled).1.exit
      refine ⟨fun none => ?_, fun isQuiet none => ?_⟩
      · refine (keepsNew fun target inRest => none target (List.mem_cons_of_mem _ inRest)).trans ?_
        cases asked with
        | notice notice => cases notice <;> rfl
        | setState target => exact absurd List.mem_cons_self (none target)
      · refine (keepsHandled isQuiet fun inRest => none (List.mem_cons_of_mem _ inRest)).trans ?_
        cases asked with
        | notice notice =>
            cases notice with
            | terminate val => rfl
            | handled => exact absurd List.mem_cons_self none
        | setState target =>
            by_cases exiting : ctx.exit = true
            · have ignored : smfSetState machine actions ctx target = ctx := if_pos exiting
              rw [request, ignored]
            · exact (smfSetState_grown machine actions target
                (Bool.eq_false_of_not_eq_true exiting)).2.2 isQuiet

/-- What a run action does to the flags: it answers the event exactly if it makes a request. -/
theorem runAction_grown (machine : Machine S) (actions : Actions S) (state : S)
    (settled : ctx.exit = true → ctx.terminate = true)
    : ctx.Grown (runAction machine actions ctx state)
        ∧ (actions.onRun (.run state :: ctx.calls) ≠ []
          → (runAction machine actions ctx state).Answered)
        ∧ (actions.onRun (.run state :: ctx.calls) = []
          → runAction machine actions ctx state
            = { ctx with calls := .run state :: ctx.calls }) := by
  have called : ({ ctx with calls := .run state :: ctx.calls } : Ctx S).exit = true
      → ({ ctx with calls := .run state :: ctx.calls } : Ctx S).terminate = true := settled
  obtain ⟨grown, answered⟩ :=
    requests_grown machine actions (actions.onRun (.run state :: ctx.calls)) called
  refine ⟨⟨grown.newState, grown.handled, grown.terminate, grown.exit⟩, answered, fun none => ?_⟩
  unfold runAction
  dsimp only
  rw [none]
  rfl

/-- A tidy run action does not leave both flags set. -/
theorem Actions.Tidy.runAction (tidy : actions.Tidy) (machine : Machine S) (state : S)
    (settled : ctx.exit = true → ctx.terminate = true) (noNew : ctx.newState = false)
    (noHandled : ctx.handled = false)
    : (runAction machine actions ctx state).newState = true
        → (runAction machine actions ctx state).handled = false := by
  intro isNew
  have called : ({ ctx with calls := .run state :: ctx.calls } : Ctx S).exit = true
      → ({ ctx with calls := .run state :: ctx.calls } : Ctx S).terminate = true := settled
  obtain ⟨keepsNew, keepsHandled⟩ :=
    requests_kept machine actions (actions.onRun (.run state :: ctx.calls)) called
  by_cases asks : ∃ target, .setState target ∈ actions.onRun (.run state :: ctx.calls)
  · obtain ⟨target, isAsked⟩ := asks
    exact (keepsHandled tidy.quiet (tidy.onRun _ target isAsked)).trans noHandled
  · have same := keepsNew fun target isAsked => asks ⟨target, isAsked⟩
    have : (Smf.runAction machine actions ctx state).newState = false := same.trans noNew
    exact absurd (this.symm.trans isNew) Bool.false_ne_true

-----------------------------------------------------------------------------------------
-- One event
-----------------------------------------------------------------------------------------

/-- A context between calls from outside in which no flag is left over. -/
structure Ctx.Fresh (ctx : Ctx S) : Prop where
  newState : ctx.newState = false
  handled : ctx.handled = false
  terminate : ctx.terminate = false
  settled : ctx.exit = true → ctx.terminate = true

/-- Where no flag is set before, the loop stops exactly where the event is answered. -/
theorem runLoop_propagates (machine : Machine S) (actions : Actions S) (list : List S)
    (fresh : ctx.Fresh)
    : (runLoop machine actions list ctx).2.unflagged
        = (propagate machine actions list ctx).unflagged := by
  induction list generalizing ctx with
  | nil => rfl
  | cons state rest fromRest =>
      unfold runLoop propagate
      by_cases has : machine.run state = true
      · rw [if_pos has, if_pos has]
        dsimp only
        obtain ⟨grown, answered, silent⟩ := runAction_grown machine actions state fresh.settled
        by_cases none : actions.onRun (.run state :: ctx.calls) = []
        · have same := silent none
          have next : (runAction machine actions ctx state).Fresh := by
            rw [same]
            exact ⟨fresh.newState, fresh.handled, fresh.terminate, fresh.settled⟩
          rw [if_pos none, if_neg (by simp [next.terminate]), if_neg (by simp [next.newState]),
            if_neg (by simp [next.handled])]
          exact fromRest next
        · rw [if_neg none]
          split_ifs with terminated isNew isHandled
          · rfl
          · rfl
          · rfl
          · rcases answered none with isAnswer | isAnswer | isAnswer
            · exact absurd isAnswer isNew
            · exact absurd isAnswer isHandled
            · exact absurd isAnswer terminated
      · rw [if_neg has, if_neg has]
        exact fromRest fresh

/-- The states that an event reaches when nobody answers it. -/
def Ctx.reached (machine : Machine S) (ctx : Ctx S) : List S :=
  if ctx.newState || ctx.handled then [ctx.current] else machine.lineage ctx.current

/-- The context behind the run action of the current state. -/
def ranCurrent (machine : Machine S) (actions : Actions S) (ctx : Ctx S) : Ctx S :=
  if machine.run ctx.current then runAction machine actions ctx ctx.current else ctx

theorem ranCurrent_grown (machine : Machine S) (actions : Actions S)
    (settled : ctx.exit = true → ctx.terminate = true)
    : ctx.Grown (ranCurrent machine actions ctx) := by
  unfold ranCurrent
  split_ifs
  · exact (runAction_grown machine actions ctx.current settled).1
  · exact .refl settled

theorem smfRunState_eq (machine : Machine S) (actions : Actions S) (going : ctx.terminate = false)
    : (smfRunState machine actions ctx).2
        = (executeAncestorRunActions machine actions (ranCurrent machine actions ctx)).2 := by
  unfold smfRunState
  rw [if_neg (by simp [going])]
  dsimp only [ranCurrent]
  rcases executeAncestorRunActions machine actions _ with ⟨_ | _, next⟩ <;> rfl

theorem executeAncestorRunActions_answered (machine : Machine S) (actions : Actions S)
    (answered : ctx.Answered)
    : (executeAncestorRunActions machine actions ctx).2.unflagged = ctx.unflagged := by
  unfold executeAncestorRunActions
  split_ifs with isNew terminated isHandled
  · rfl
  · rfl
  · rfl
  · rcases answered with isAnswer | isAnswer | isAnswer
    · exact absurd isAnswer isNew
    · exact absurd isAnswer isHandled
    · exact absurd isAnswer terminated

theorem executeAncestorRunActions_fresh (machine : Machine S) (actions : Actions S)
    (fresh : ctx.Fresh)
    : executeAncestorRunActions machine actions ctx
        = runLoop machine actions (machine.above ctx.current) ctx := by
  unfold executeAncestorRunActions
  rw [if_neg (by simp [fresh.newState]), if_neg (by simp [fresh.terminate]),
    if_neg (by simp [fresh.handled])]

/-- An event reaches the current state and its ancestors up to the first that answers it, or only
the current state, when a flag is left over.
-/
theorem smfRunState_propagates (machine : Machine S) (actions : Actions S)
    (going : ctx.terminate = false) (settled : ctx.exit = true → ctx.terminate = true)
    : (smfRunState machine actions ctx).2.unflagged
        = (propagate machine actions (ctx.reached machine) ctx).unflagged := by
  rw [smfRunState_eq machine actions going]
  obtain ⟨grown, answered, silent⟩ := runAction_grown machine actions ctx.current settled
  by_cases stale : (ctx.newState || ctx.handled) = true
  · have before : ctx.Answered := ((Bool.or_eq_true _ _).mp stale).imp id Or.inl
    unfold Ctx.reached ranCurrent
    rw [if_pos stale, propagate]
    by_cases has : machine.run ctx.current = true
    · rw [if_pos has, if_pos has,
        executeAncestorRunActions_answered machine actions (grown.answered before)]
      dsimp only
      split_ifs <;> rfl
    · rw [if_neg has, if_neg has, executeAncestorRunActions_answered machine actions before]
      rfl
  · have fresh : ctx.Fresh := by
      rw [Bool.or_eq_true, not_or] at stale
      exact ⟨Bool.eq_false_of_not_eq_true stale.1, Bool.eq_false_of_not_eq_true stale.2, going,
        settled⟩
    unfold Ctx.reached ranCurrent
    rw [if_neg stale, Library.Forest.lineage_eq, propagate]
    by_cases has : machine.run ctx.current = true
    · rw [if_pos has, if_pos has]
      dsimp only
      by_cases none : actions.onRun (.run ctx.current :: ctx.calls) = []
      · have same := silent none
        have next : (runAction machine actions ctx ctx.current).Fresh := by
          rw [same]
          exact ⟨fresh.newState, fresh.handled, fresh.terminate, fresh.settled⟩
        rw [if_pos none, executeAncestorRunActions_fresh machine actions next,
          runLoop_propagates machine actions _ next, same]
      · rw [if_neg none, executeAncestorRunActions_answered machine actions (answered none)]
    · rw [if_neg has, if_neg has, executeAncestorRunActions_fresh machine actions fresh]
      exact runLoop_propagates machine actions _ fresh

-----------------------------------------------------------------------------------------
-- Flags between calls
-----------------------------------------------------------------------------------------

/-- What a run leaves of the flags, unless it terminates the machine. -/
structure Ctx.Left (ctx next : Ctx S) : Prop where
  settled : next.exit = true → next.terminate = true
  terminate : ctx.terminate = true → next.terminate = true
  newState : next.terminate = false → next.newState = false

theorem runLoop_left (machine : Machine S) (actions : Actions S) (list : List S)
    (settled : ctx.exit = true → ctx.terminate = true)
    : ctx.Left (runLoop machine actions list ctx).2 := by
  induction list generalizing ctx with
  | nil => exact ⟨settled, id, fun _ => rfl⟩
  | cons state rest fromRest =>
      have grown := (runAction_grown machine actions state settled).1
      unfold runLoop
      dsimp only
      split_ifs with has terminated
      · exact ⟨grown.exit, grown.terminate,
          fun going => absurd (going.symm.trans terminated) Bool.false_ne_true⟩
      · exact ⟨grown.exit, grown.terminate, fun _ => rfl⟩
      · exact ⟨grown.exit, grown.terminate, fun _ => rfl⟩
      · have later := fromRest grown.exit
        exact ⟨later.settled, fun before => later.terminate (grown.terminate before),
          later.newState⟩
      · exact fromRest settled

theorem smfRunState_left (machine : Machine S) (actions : Actions S)
    (settled : ctx.exit = true → ctx.terminate = true)
    : ctx.Left (smfRunState machine actions ctx).2 := by
  by_cases terminated : ctx.terminate = true
  · have same : smfRunState machine actions ctx = (ctx.terminateVal, ctx) := if_pos terminated
    rw [same]
    exact ⟨settled, id, fun going => absurd (going.symm.trans terminated) Bool.false_ne_true⟩
  · rw [smfRunState_eq machine actions (Bool.eq_false_of_not_eq_true terminated)]
    have grown := ranCurrent_grown machine actions settled
    unfold executeAncestorRunActions
    split_ifs with isNew isEnd
    · exact ⟨grown.exit, grown.terminate, fun _ => rfl⟩
    · exact ⟨grown.exit, grown.terminate,
        fun going => absurd (going.symm.trans isEnd) Bool.false_ne_true⟩
    · exact ⟨grown.exit, grown.terminate, fun _ => Bool.eq_false_of_not_eq_true isNew⟩
    · have later := runLoop_left machine actions
        (machine.above (ranCurrent machine actions ctx).current) grown.exit
      exact ⟨later.settled, fun before => later.terminate (grown.terminate before), later.newState⟩

/-- Tidy run actions leave no flag behind in the loop. -/
theorem Actions.Tidy.runLoop (tidy : actions.Tidy) (machine : Machine S) (list : List S)
    (fresh : ctx.Fresh)
    : (runLoop machine actions list ctx).2.terminate = false
        → (runLoop machine actions list ctx).2.handled = false := by
  induction list generalizing ctx with
  | nil => exact fun _ => fresh.handled
  | cons state rest fromRest =>
      have grown := (runAction_grown machine actions state fresh.settled).1
      have single := tidy.runAction machine state fresh.settled fresh.newState fresh.handled
      unfold Smf.runLoop
      dsimp only
      split_ifs with has terminated isNew isHandled
      · exact fun going => absurd (going.symm.trans terminated) Bool.false_ne_true
      · exact fun _ => single isNew
      · exact fun _ => rfl
      · exact fromRest ⟨Bool.eq_false_of_not_eq_true isNew, Bool.eq_false_of_not_eq_true isHandled,
          Bool.eq_false_of_not_eq_true terminated, grown.exit⟩
      · exact fromRest fresh

theorem Actions.Tidy.smfRunState (tidy : actions.Tidy) (machine : Machine S) (fresh : ctx.Fresh)
    (going : (smfRunState machine actions ctx).2.terminate = false)
    : (smfRunState machine actions ctx).2.handled = false := by
  rw [smfRunState_eq machine actions fresh.terminate] at going ⊢
  have grown := ranCurrent_grown machine actions fresh.settled
  have single : (ranCurrent machine actions ctx).newState = true
      → (ranCurrent machine actions ctx).handled = false := by
    unfold ranCurrent
    split_ifs
    · exact tidy.runAction machine ctx.current fresh.settled fresh.newState fresh.handled
    · exact fun _ => fresh.handled
  by_cases answered : (ranCurrent machine actions ctx).Answered
  · revert going
    unfold executeAncestorRunActions
    split_ifs with isNew isEnd isHandled
    · exact fun _ => single isNew
    · exact fun going => absurd (going.symm.trans isEnd) Bool.false_ne_true
    · exact fun _ => rfl
    · rcases answered with isAnswer | isAnswer | isAnswer
      · exact absurd isAnswer isNew
      · exact absurd isAnswer isHandled
      · exact absurd isAnswer isEnd
  · simp only [Ctx.Answered, not_or, Bool.not_eq_true] at answered
    have next : (ranCurrent machine actions ctx).Fresh :=
      ⟨answered.1, answered.2.1, answered.2.2, grown.exit⟩
    rw [executeAncestorRunActions_fresh machine actions next] at going ⊢
    exact tidy.runLoop machine _ next going

/-- What is known between calls from outside: a machine in the middle of a transition is terminated,
and `new_state` is set exactly if the last call was `smf_set_state`.
-/
structure Ctx.Known (ctx : Ctx S) (actions : Actions S) (start : Ctx S) (ops : List (Op S))
    : Prop where
  settled : ctx.exit = true → ctx.terminate = true
  newState
    : ctx.terminate = false
      → (ctx.newState = true ↔ ∃ before target, ops = before ++ [.setState target])
  handled
    : ctx.terminate = false → actions.Tidy → start.handled = false → (∀ op ∈ ops, op = .run)
      → ctx.handled = false

theorem smfSetInitial_known (machine : Machine S) (actions : Actions S) (start : Ctx S)
    (initState : S)
    : (smfSetInitial machine actions start initState).Known actions start [] := by
  unfold smfSetInitial
  dsimp only
  generalize deepest machine initState = inner
  obtain ⟨entered, stops⟩ := executeAncestorEntryActions_noticed machine actions
    { current := inner, handled := start.handled } inner
  rcases isEntered
    : executeAncestorEntryActions machine actions { current := inner, handled := start.handled }
        inner
    with ⟨_ | _, inside⟩
  all_goals rw [isEntered] at entered
  · have last := entered.trans (enterState_noticed machine actions inside inner).1
    refine ⟨fun isExit => absurd (last.exit.symm.trans isExit) Bool.false_ne_true, fun _ => ?_,
      fun _ tidy clear _ => (last.quiet tidy.quiet).trans clear⟩
    have isNew := last.newState
    simp [isNew]
  · refine ⟨fun isExit => absurd (entered.exit.symm.trans isExit) Bool.false_ne_true, fun _ => ?_,
      fun _ tidy clear _ => (entered.quiet tidy.quiet).trans clear⟩
    have isNew : inside.newState = false := entered.newState
    simp [isNew]

theorem Ctx.Known.step {start : Ctx S} {ops : List (Op S)} (known : ctx.Known actions start ops)
    (machine : Machine S) (op : Op S)
    : (op.step machine actions ctx).Known actions start (ops ++ [op]) := by
  cases op with
  | run =>
      have left := smfRunState_left machine actions known.settled
      refine ⟨left.settled, fun going => ?_, fun going tidy clear runs => ?_⟩
      · refine iff_of_false (by simpa [Op.step] using left.newState going) ?_
        rintro ⟨before, target, same⟩
        exact absurd (List.append_inj_right' same rfl) (by simp)
      · have before : ctx.terminate = false :=
          Bool.eq_false_of_not_eq_true fun terminated =>
            absurd (going.symm.trans (left.terminate terminated)) Bool.false_ne_true
        have earlier : ∀ op ∈ ops, op = .run :=
          fun op isOp => runs op (List.mem_append_left _ isOp)
        have noNew : ctx.newState = false := by
          refine Bool.eq_false_of_not_eq_true fun isNew => ?_
          obtain ⟨_, target, rfl⟩ := (known.newState before).mp isNew
          exact absurd (earlier _ (List.mem_append_right _ List.mem_cons_self)) (by simp)
        exact tidy.smfRunState machine
          ⟨noNew, known.handled before tidy clear earlier, before, known.settled⟩ going
  | setState target =>
      have notRun : ¬∀ op ∈ ops ++ [Op.setState target], op = .run :=
        fun runs => absurd (runs _ (List.mem_append_right _ List.mem_cons_self)) (by simp)
      by_cases exiting : ctx.exit = true
      · have ignored : smfSetState machine actions ctx target = ctx := if_pos exiting
        have terminated := known.settled exiting
        rw [Op.step, ignored]
        exact ⟨known.settled,
          fun going => absurd (going.symm.trans terminated) Bool.false_ne_true,
          fun _ _ _ runs => absurd runs notRun⟩
      · obtain ⟨grown, isNew, _⟩ :=
          smfSetState_grown machine actions target (Bool.eq_false_of_not_eq_true exiting)
        refine ⟨grown.exit, fun going => iff_of_true ?_ ⟨ops, target, rfl⟩,
          fun _ _ _ runs => absurd runs notRun⟩
        rcases isNew with isNew | terminated
        · exact isNew
        · exact absurd (going.symm.trans terminated) Bool.false_ne_true

theorem history_known (machine : Machine S) (actions : Actions S) (start : Ctx S) (initState : S)
    (ops : List (Op S))
    : (history machine actions start initState ops).Known actions start ops := by
  induction ops using List.reverseRecOn with
  | nil => exact smfSetInitial_known machine actions start initState
  | append_singleton ops op known =>
      unfold history
      rw [List.foldl_append]
      exact known.step machine op

/-- **How far an event goes.** After any calls from outside, while the machine is not terminated, a
call of `smf_run_state` calls the run actions of the current state and its ancestors, up to the
first one that asks for a transition, declares the event handled or terminates the machine; but if
`new_state` or `handled` is set before, it calls that of the current state only. `new_state` is set
exactly if the last call was `smf_set_state`. `handled` is not set if the actions are tidy and all
calls were of `smf_run_state`.
-/
theorem event_propagates (machine : Machine S) (actions : Actions S) (start : Ctx S) (initState : S)
    (ops : List (Op S)) (going : (history machine actions start initState ops).terminate = false)
    : (smfRunState machine actions (history machine actions start initState ops)).2.unflagged
        = (propagate machine actions
            ((history machine actions start initState ops).reached machine)
            (history machine actions start initState ops)).unflagged
        ∧ ((history machine actions start initState ops).newState = true
          ↔ ∃ before target, ops = before ++ [.setState target])
        ∧ (actions.Tidy → start.handled = false → (∀ op ∈ ops, op = .run)
          → (history machine actions start initState ops).handled = false) := by
  have known := history_known machine actions start initState ops
  exact ⟨smfRunState_propagates machine actions going known.settled, known.newState going,
    known.handled going⟩

/-- Nobody answers an event. -/
def silent : Actions (Fin 4) :=
  ⟨fun _ => [], fun _ => [], fun _ => []⟩

theorem silent_tidy : silent.Tidy :=
  ⟨fun _ => ⟨List.not_mem_nil, List.not_mem_nil⟩, fun _ _ _ => List.not_mem_nil⟩

theorem silent_event_propagates
    : (smfRunState fourStates silent (history fourStates silent { current := 0 } 0 [.run])).2.calls
        = [.run 0, .run 1, .run 0, .run 1, .entry 1, .entry 0]
      ∧ (history fourStates silent { current := 0 } 0 [.run]).handled = false :=
  ⟨by decide +kernel,
    (event_propagates fourStates silent { current := 0 } 0 [.run] (by decide +kernel)).2.2
      silent_tidy rfl (by decide)⟩

/-- The state 1 goes to 2 and declares the event handled; nobody answers later ones. -/
def twoAnswers : Actions (Fin 4) where
  onEntry _ := []
  onRun
    | .run 1 :: _ => [.setState 2, .notice .handled]
    | _ => []
  onExit _ := []

/-- The state 0 has a run action, and is an ancestor of 1 and 2. It does not see the event after a
call of `smf_set_state` from outside, and not the one after an event with two answers.
-/
theorem ancestor_suppressed
    : (smfRunState fourStates silent
          (history fourStates silent { current := 0 } 0 [.setState 2])).2.calls
        = [.run 2, .entry 2, .exit 1, .entry 1, .entry 0]
      ∧ (smfRunState fourStates twoAnswers
          (history fourStates twoAnswers { current := 0 } 0 [.run])).2.calls
        = [.run 2, .entry 2, .exit 1, .run 1, .entry 1, .entry 0]
      ∧ (propagate fourStates twoAnswers (fourStates.lineage 2)
          (history fourStates twoAnswers { current := 0 } 0 [.run])).calls
        = [.run 0, .run 2, .entry 2, .exit 1, .run 1, .entry 1, .entry 0] := by
  decide +kernel

end Zephyr.Smf
