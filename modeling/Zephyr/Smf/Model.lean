import Zephyr.Library.Forest

/-! The hierarchical state machine framework of `lib/smf/smf.c`, with ancestor support and initial
transitions.
-/

namespace Zephyr.Smf

open Zephyr.Library

variable {S : Type*}

/-- The states of a machine: `struct smf_state`, where an action is there or is `NULL`. A state's
initial transition is to a state below it. The forest is finite, and so is its height.
-/
structure Machine (S : Type*) extends Forest S where
  initial : S → Option S
  entry : S → Bool
  run : S → Bool
  exit : S → Bool
  height : Nat
  initial_below : ∀ {state inner : S}, initial state = some inner → state ∈ toForest.above inner
  depth_lt : ∀ state, depth state < height

/-- An action of a state that is called. -/
inductive Call (S : Type*) where
  | entry (state : S)
  | run (state : S)
  | exit (state : S)
  deriving DecidableEq, Repr

/-- What an action of a state may ask for, besides a transition. -/
inductive Notice where
  | terminate (val : Int)
  | handled
  deriving DecidableEq, Repr

inductive Request (S : Type*) where
  | notice (notice : Notice)
  | setState (target : S)
  deriving DecidableEq, Repr

/-- What the actions do. They may remember all earlier calls; the latest call is the first one. -/
structure Actions (S : Type*) where
  onEntry : List (Call S) → List Notice
  onRun : List (Call S) → List (Request S)
  onExit : List (Call S) → List Notice

/-- A transition that was completed: from which state, to which one it was asked for and to which one
it led, the calls it made and the states that are entered after it. It may have begun although an
earlier one was cut short.
-/
structure Transition (S : Type*) where
  source : S
  requested : S
  target : S
  calls : List (Call S)
  active : List S
  afterCut : Bool
  deriving DecidableEq, Repr

/-- `struct smf_ctx` and `struct internal_ctx`. The calls, the states that are entered and not exited
since, the completed transitions, and whether a transition was cut short are kept for the proofs.
-/
structure Ctx (S : Type*) where
  current : S
  previous : Option S := none
  terminateVal : Int := 0
  newState : Bool := false
  terminate : Bool := false
  exit : Bool := false
  handled : Bool := false
  calls : List (Call S) := []
  active : List S := []
  transitions : List (Transition S) := []
  cut : Bool := false
  deriving DecidableEq, Repr

/-! ### Calls of actions -/

/-- `smf_set_terminate` and `smf_set_handled` -/
def Ctx.notice (ctx : Ctx S) : Notice → Ctx S
  | .terminate val => { ctx with terminate := true, terminateVal := val }
  | .handled => { ctx with handled := true }

def Ctx.notices (ctx : Ctx S) (notices : List Notice) : Ctx S :=
  notices.foldl Ctx.notice ctx

variable [DecidableEq S] (machine : Machine S) (actions : Actions S)

/-- A state is entered, with its entry action if there is one. After that `terminate` is looked
at.
-/
def enterState (ctx : Ctx S) (state : S) : Bool × Ctx S :=
  let ctx := { ctx with active := state :: ctx.active }
  if machine.entry state then
    let ctx := { ctx with calls := .entry state :: ctx.calls }
    let ctx := ctx.notices (actions.onEntry ctx.calls)
    (ctx.terminate, ctx)
  else (false, ctx)

def exitState (ctx : Ctx S) (state : S) : Bool × Ctx S :=
  let ctx := { ctx with active := ctx.active.erase state }
  if machine.exit state then
    let ctx := { ctx with calls := .exit state :: ctx.calls }
    let ctx := ctx.notices (actions.onExit ctx.calls)
    (ctx.terminate, ctx)
  else (false, ctx)

/-- A loop that leaves some states out, and ends once an action has terminated the machine. -/
def visit (shared : Ctx S → S → Bool) (act : Ctx S → S → Bool × Ctx S)
    : List S → Ctx S → Bool × Ctx S
  | [], ctx => (false, ctx)
  | state :: rest, ctx =>
      if shared ctx state then visit shared act rest ctx
      else
        match act ctx state with
        | (true, ctx) => (true, ctx)
        | (false, ctx) => visit shared act rest ctx

/-! ### Ancestors -/

/-- `share_paren(state->parent, target_state)` -/
def shareParen (state target : S) : Bool :=
  (machine.above state).contains target

/-- `last_state_share_paren` -/
def lastStateShareParen (ctx : Ctx S) (state : S) : Bool :=
  match ctx.previous with
  | none => false
  | some previous => shareParen machine previous state

/-- `get_child_of`, where `parent` may be `NULL` -/
def getChildOf (states : S) (parent : Option S) : Option S :=
  (machine.lineage states).find? (fun tmp => machine.parent tmp = parent)

/-- `get_last_of` -/
def getLastOf (states : S) : Option S :=
  getChildOf machine states none

/-- The loop of `smf_execute_ancestor_entry_actions` -/
def entryLoop (target : S) : Nat → Option S → Ctx S → Bool × Ctx S
  | 0, _, ctx => (false, ctx)
  | _ + 1, none, ctx => (false, ctx)
  | fuel + 1, some toExecute, ctx =>
      if toExecute = target then (false, ctx)
      else if lastStateShareParen machine ctx toExecute then
        entryLoop target fuel (getChildOf machine target (some toExecute)) ctx
      else
        match enterState machine actions ctx toExecute with
        | (true, ctx) => (true, ctx)
        | (false, ctx) => entryLoop target fuel (getChildOf machine target (some toExecute)) ctx

/-- `smf_execute_ancestor_entry_actions` -/
def executeAncestorEntryActions (ctx : Ctx S) (target : S) : Bool × Ctx S :=
  entryLoop machine actions target (machine.height + 1) (getLastOf machine target) ctx

/-- `smf_execute_ancestor_exit_actions` -/
def executeAncestorExitActions (ctx : Ctx S) (target : S) : Bool × Ctx S :=
  visit (fun _ tmpState => shareParen machine target tmpState) (exitState machine actions)
    (machine.above ctx.current) ctx

/-! ### Transitions -/

/-- `while (target->initial) target = target->initial` -/
def initialLoop : Nat → S → S
  | 0, target => target
  | fuel + 1, target =>
      match machine.initial target with
      | none => target
      | some inner => initialLoop fuel inner

/-- The deepest state that a target leads to. -/
def deepest (target : S) : S :=
  initialLoop machine machine.height target

/-- `smf_set_initial`, which leaves `handled` as it is -/
def smfSetInitial (ctx : Ctx S) (initState : S) : Ctx S :=
  let initState := deepest machine initState
  let ctx : Ctx S := { current := initState, handled := ctx.handled }
  match executeAncestorEntryActions machine actions ctx initState with
  | (true, ctx) => { ctx with cut := true }
  | (false, ctx) => (enterState machine actions ctx initState).2

/-- The states from which and to which a transition leads after its states were exited. -/
def Ctx.moveTo (ctx : Ctx S) (target : S) : Ctx S :=
  { ctx with exit := false, previous := some ctx.current, current := target }

/-- A transition that began in a context is recorded. -/
def Ctx.record (ctx : Ctx S) (begun : Ctx S) (requested : S) : Ctx S :=
  { ctx with
    transitions :=
      { source := begun.current
        requested := requested
        target := ctx.current
        calls := (ctx.calls.take (ctx.calls.length - begun.calls.length)).reverse
        active := ctx.active
        afterCut := begun.cut }
      :: ctx.transitions }

/-- `smf_set_state` behind the exit action of the current state -/
def leaveAncestors (begun ctx : Ctx S) (target : S) : Ctx S :=
  match executeAncestorExitActions machine actions { ctx with newState := true } target with
  | (true, ctx) => { ctx with cut := true }
  | (false, ctx) =>
      let inner := deepest machine target
      match executeAncestorEntryActions machine actions (ctx.moveTo inner) inner with
      | (true, ctx) => { ctx with cut := true }
      | (false, ctx) => (enterState machine actions ctx ctx.current).2.record begun target

/-- `smf_set_state` -/
def smfSetState (ctx : Ctx S) (target : S) : Ctx S :=
  if ctx.exit then ctx
  else
    match exitState machine actions { ctx with exit := true } ctx.current with
    | (true, next) => { next with cut := true }
    | (false, next) => leaveAncestors machine actions ctx next target

/-! ### Runs -/

def request (ctx : Ctx S) : Request S → Ctx S
  | .notice notice => ctx.notice notice
  | .setState target => smfSetState machine actions ctx target

/-- The run action of a state. -/
def runAction (ctx : Ctx S) (state : S) : Ctx S :=
  let ctx := { ctx with calls := .run state :: ctx.calls }
  (actions.onRun ctx.calls).foldl (request machine actions) ctx

/-- The loop of `smf_execute_ancestor_run_actions`, with whether the machine terminates -/
def runLoop : List S → Ctx S → Bool × Ctx S
  | [], ctx => (false, { ctx with newState := false })
  | tmpState :: rest, ctx =>
      if machine.run tmpState then
        let ctx := runAction machine actions ctx tmpState
        if ctx.terminate then (true, ctx)
        else if ctx.newState then (false, { ctx with newState := false })
        else if ctx.handled then (false, { ctx with handled := false, newState := false })
        else runLoop rest ctx
      else runLoop rest ctx

/-- `smf_execute_ancestor_run_actions` -/
def executeAncestorRunActions (ctx : Ctx S) : Bool × Ctx S :=
  if ctx.newState then (false, { ctx with newState := false })
  else if ctx.terminate then (true, ctx)
  else if ctx.handled then (false, { ctx with handled := false })
  else runLoop machine actions (machine.above ctx.current) ctx

/-- `smf_run_state` -/
def smfRunState (ctx : Ctx S) : Int × Ctx S :=
  if ctx.terminate then (ctx.terminateVal, ctx)
  else
    let ctx := if machine.run ctx.current then runAction machine actions ctx ctx.current else ctx
    match executeAncestorRunActions machine actions ctx with
    | (true, ctx) => (ctx.terminateVal, ctx)
    | (false, ctx) => (0, ctx)

/-- The context after it was initialised and after some calls of `smf_run_state`. -/
def runs (ctx : Ctx S) (initState : S) : Nat → Ctx S
  | 0 => smfSetInitial machine actions ctx initState
  | n + 1 => (smfRunState machine actions (runs ctx initState n)).2

end Zephyr.Smf
