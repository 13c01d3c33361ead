import Mathlib
import Zephyr.Smf.Transitions

/-! The states that are entered after each transition of a run. -/

namespace Zephyr.Smf

open Zephyr.Library

variable {S : Type*} [DecidableEq S] {machine : Machine S} {actions : Actions S}
variable {ctx next : Ctx S} {source target : S}

/-- The states that are entered are where the transition leads to, which has no initial transition,
and its ancestors.
-/
def Transition.Balanced (machine : Machine S) (transition : Transition S) : Prop :=
  transition.active = machine.lineage transition.target ∧ machine.initial transition.target = none

/-- Exit actions are called before entry actions, those of inner states first, and entry actions
those of outer states first. No action is called twice.
-/
def Transition.Ordered (machine : Machine S) (transition : Transition S) : Prop :=
  ∃ exits entries : List S,
    transition.calls = exits.map .exit ++ entries.map .entry
    ∧ exits.Sublist (machine.lineage transition.source)
    ∧ entries.Sublist (machine.lineage transition.target).reverse
    ∧ transition.calls.Nodup

/-- The transition is to an ancestor of its source that has an initial transition. -/
def Transition.Inward (machine : Machine S) (transition : Transition S) : Prop :=
  machine.initial transition.requested ≠ none
  ∧ transition.requested ∈ machine.above transition.source

/-! ### One transition -/

theorem exits_eq (source target : S)
    : machine.exits source target
      = source :: (machine.above source).filter (· ∉ machine.above target) := by
  unfold Machine.exits shareParen
  congr 2
  funext state
  rw [List.contains_eq_mem, decide_not]

theorem reverse_entries_eq (source target : S)
    : (machine.entries (some source) target).reverse
      = target :: (machine.above target).filter (· ∉ machine.above source) := by
  unfold Machine.entries shareParen
  rw [List.reverse_append, List.reverse_singleton, List.singleton_append, List.filter_reverse,
    List.reverse_reverse]
  congr 2
  funext state
  rw [Option.any_some, List.contains_eq_mem, decide_not]

theorem reverse_entries_none (target : S)
    : (machine.entries none target).reverse = machine.lineage target := by
  unfold Machine.entries
  rw [List.filter_eq_self.mpr (by simp), List.reverse_append, List.reverse_singleton,
    List.singleton_append, Forest.lineage_eq, List.reverse_reverse]

theorem foldl_erase_append (first rest : List S) : first.foldl List.erase (first ++ rest) = rest := by
  induction first with
  | nil => rfl
  | cons state first ih => rw [List.cons_append, List.foldl_cons, List.erase_cons_head, ih]

theorem foldl_erase_exits (source target : S)
    : (machine.exits source target).foldl List.erase (machine.lineage source)
      = (machine.above source).filter (· ∈ machine.above target) := by
  have isLineage
      : machine.lineage source
        = machine.exits source target
          ++ (machine.above source).filter (· ∈ machine.above target) := by
    rw [exits_eq, List.cons_append, Forest.filter_above_append, Forest.lineage_eq]
  rw [isLineage, foldl_erase_append]

omit [DecidableEq S] in
theorem mem_above_iff {state : S}
    (outward : ¬ (machine.initial target ≠ none ∧ target ∈ machine.above source))
    (isAbove : state ∈ machine.above source)
    : state ∈ machine.above target ↔ state ∈ machine.above (deepest machine target) := by
  cases isInitial : machine.initial target with
  | none => rw [deepest_eq isInitial]
  | some inner =>
      have notAbove : target ∉ machine.above source :=
        fun isAbove => outward ⟨by simp [isInitial], isAbove⟩
      have isInside : target ∈ machine.above (deepest machine target) :=
        mem_above_deepest (by simp [isInitial])
      refine ⟨fun isOuter => Forest.above_trans isInside isOuter, fun isOuter => ?_⟩
      rcases Forest.above_total isOuter isInside with order | order
      · rcases Forest.mem_lineage.mp order with rfl | order
        · exact absurd isAbove notAbove
        · exact order
      · rcases Forest.mem_lineage.mp order with rfl | order
        · exact absurd isAbove notAbove
        · exact absurd (Forest.above_trans isAbove order) notAbove

/-- A transition from a state whose ancestors are entered enters those of where it leads to, unless
it is to an ancestor with an initial transition: that one is exited and not entered again.
-/
theorem active_iff (source target : S)
    : (machine.entries (some source) (deepest machine target)).reverse
          ++ (machine.exits source target).foldl List.erase (machine.lineage source)
        = machine.lineage (deepest machine target)
      ↔ ¬ (machine.initial target ≠ none ∧ target ∈ machine.above source) := by
  have isLineage
      : machine.lineage (deepest machine target)
        = (machine.entries (some source) (deepest machine target)).reverse
          ++ (machine.above source).filter (· ∈ machine.above (deepest machine target)) := by
    rw [reverse_entries_eq, Forest.filter_above_comm, List.cons_append,
      Forest.filter_above_append, Forest.lineage_eq]
  rw [foldl_erase_exits, isLineage, List.append_cancel_left_eq]
  refine ⟨fun same ⟨hasInitial, isAbove⟩ => ?_, fun outward => ?_⟩
  · have isInside := mem_above_deepest hasInitial
    have isKept : target ∈ (machine.above source).filter (· ∈ machine.above target) := by
      rw [same]
      exact List.mem_filter.mpr ⟨isAbove, decide_eq_true isInside⟩
    exact Forest.not_mem_above target (of_decide_eq_true (List.mem_filter.mp isKept).2)
  · refine List.filter_congr fun state isAbove => ?_
    rw [decide_eq_decide]
    exact mem_above_iff outward isAbove

theorem Completed.ordered (completed : Completed machine ctx next target)
    : ∀ transition ∈ next.transitions,
        transition ∈ ctx.transitions ∨ transition.Ordered machine := by
  intro transition isRecorded
  rw [completed.transitions, List.mem_cons] at isRecorded
  rcases isRecorded with rfl | isRecorded
  · have isExits
        : ((machine.exits ctx.current target).filter machine.exit).Sublist
            (machine.lineage ctx.current) := by
      rw [exits_eq, Forest.lineage_eq]
      exact List.filter_sublist.trans (List.filter_sublist.cons_cons _)
    have isEntries
        : ((machine.entries (some ctx.current) (deepest machine target)).filter
              machine.entry).Sublist
            (machine.lineage (deepest machine target)).reverse := by
      rw [← List.reverse_reverse (machine.entries _ _), reverse_entries_eq, Forest.lineage_eq]
      exact List.filter_sublist.trans (List.filter_sublist.cons_cons _).reverse
    refine Or.inr ⟨_, _, rfl, isExits, isEntries, ?_⟩
    refine List.Nodup.append ?_ ?_ ?_
    · exact (isExits.nodup (Forest.nodup_lineage _)).map (fun _ _ => Call.exit.inj)
    · refine (isEntries.nodup ?_).map (fun _ _ => Call.entry.inj)
      exact List.nodup_reverse.mpr (Forest.nodup_lineage _)
    · intro call isExit isEntry
      obtain ⟨_, _, rfl⟩ := List.mem_map.mp isExit
      obtain ⟨_, _, isCall⟩ := List.mem_map.mp isEntry
      exact nomatch isCall
  · exact Or.inl isRecorded

/-! ### Runs -/

/-- What is known of a context between requests. -/
structure Ctx.Sound (machine : Machine S) (ctx : Ctx S) : Prop where
  leaf : machine.initial ctx.current = none
  ordered : ∀ transition ∈ ctx.transitions, transition.Ordered machine
  balanced
    : (∀ transition ∈ ctx.transitions, transition.afterCut = false)
      → ((∀ transition ∈ ctx.transitions, transition.Balanced machine)
          ↔ ∀ transition ∈ ctx.transitions, ¬ transition.Inward machine)
  settled
    : ctx.cut = false
      → (∀ transition ∈ ctx.transitions, transition.afterCut = false)
      → (∀ transition ∈ ctx.transitions, ¬ transition.Inward machine)
      → ctx.active = machine.lineage ctx.current

/-- After a transition the right states are entered, unless it is to an ancestor with an initial
transition.
-/
theorem Ctx.Sound.active_iff (sound : ctx.Sound machine)
    (completed : Completed machine ctx next target) (whole : ctx.cut = false)
    (wholes : ∀ transition ∈ ctx.transitions, transition.afterCut = false)
    (outward : ∀ transition ∈ ctx.transitions, ¬ transition.Inward machine)
    : next.active = machine.lineage (deepest machine target)
      ↔ ¬ (machine.initial target ≠ none ∧ target ∈ machine.above ctx.current) := by
  rw [completed.active, sound.settled whole wholes outward]
  exact Smf.active_iff ctx.current target

theorem Ctx.Sound.completed (sound : ctx.Sound machine)
    (completed : Completed machine ctx next target)
    : next.Sound machine where
  leaf := completed.current ▸ deepest_leaf machine target
  ordered := by
    intro transition isRecorded
    exact (completed.ordered transition isRecorded).elim (sound.ordered transition) id
  balanced := by
    intro wholes
    rw [completed.transitions, List.forall_mem_cons] at wholes
    rw [completed.transitions, List.forall_mem_cons, List.forall_mem_cons,
      sound.balanced wholes.2]
    refine and_congr_left fun outward => ?_
    refine Iff.trans ?_ (sound.active_iff completed wholes.1 wholes.2 outward)
    exact and_iff_left (deepest_leaf machine target)
  settled := by
    intro whole wholes outward
    rw [completed.transitions, List.forall_mem_cons] at wholes outward
    rw [completed.current]
    exact (sound.active_iff completed (completed.cut ▸ whole) wholes.2 outward.2).mpr outward.1

theorem Ctx.Sound.smfSetState (sound : ctx.Sound machine) (actions : Actions S) (target : S)
    : (smfSetState machine actions ctx target).Sound machine := by
  have changed := smfSetState_changed machine actions ctx target
  generalize Smf.smfSetState machine actions ctx target = next at changed ⊢
  cases changed with
  | ignored => exact sound
  | cut isCut same isCurrent =>
      refine ⟨?_, ?_, ?_, fun whole => absurd isCut (by simp [whole])⟩
      · rcases isCurrent with isCurrent | isCurrent
        · exact isCurrent ▸ sound.leaf
        · exact isCurrent ▸ deepest_leaf machine target
      · rw [same]
        exact sound.ordered
      · rw [same]
        exact sound.balanced
  | completed completed => exact sound.completed completed

theorem Ctx.Sound.runAction (sound : ctx.Sound machine) (actions : Actions S) (state : S)
    : (runAction machine actions ctx state).Sound machine := by
  have called : ({ ctx with calls := .run state :: ctx.calls } : Ctx S).Sound machine :=
    ⟨sound.leaf, sound.ordered, sound.balanced, sound.settled⟩
  unfold Smf.runAction
  dsimp only
  generalize actions.onRun (.run state :: ctx.calls) = requests
  generalize ({ ctx with calls := .run state :: ctx.calls } : Ctx S) = ctx at called
  induction requests generalizing ctx with
  | nil => exact called
  | cons request rest ih =>
      refine ih _ ?_
      cases request with
      | setState target => exact called.smfSetState actions target
      | notice notice =>
          cases notice <;> exact ⟨called.leaf, called.ordered, called.balanced, called.settled⟩

theorem Ctx.Sound.runLoop (sound : ctx.Sound machine) (actions : Actions S) (list : List S)
    : (runLoop machine actions list ctx).2.Sound machine := by
  induction list generalizing ctx with
  | nil => exact ⟨sound.leaf, sound.ordered, sound.balanced, sound.settled⟩
  | cons state rest ih =>
      have ran := sound.runAction actions state
      unfold Smf.runLoop
      dsimp only
      split_ifs
      · exact ran
      · exact ⟨ran.leaf, ran.ordered, ran.balanced, ran.settled⟩
      · exact ⟨ran.leaf, ran.ordered, ran.balanced, ran.settled⟩
      · exact ih ran
      · exact ih sound

theorem Ctx.Sound.executeAncestorRunActions (sound : ctx.Sound machine) (actions : Actions S)
    : (executeAncestorRunActions machine actions ctx).2.Sound machine := by
  unfold Smf.executeAncestorRunActions
  split_ifs
  · exact ⟨sound.leaf, sound.ordered, sound.balanced, sound.settled⟩
  · exact sound
  · exact ⟨sound.leaf, sound.ordered, sound.balanced, sound.settled⟩
  · exact sound.runLoop actions _

theorem Ctx.Sound.smfRunState (sound : ctx.Sound machine) (actions : Actions S)
    : (smfRunState machine actions ctx).2.Sound machine := by
  unfold Smf.smfRunState
  by_cases terminated : ctx.terminate = true
  · rw [if_pos terminated]
    exact sound
  · have ran : (if machine.run ctx.current then Smf.runAction machine actions ctx ctx.current
        else ctx).Sound machine := by
      split
      · exact sound.runAction actions ctx.current
      · exact sound
    have ancestors := ran.executeAncestorRunActions actions
    rw [if_neg terminated]
    dsimp only
    rcases isRun : Smf.executeAncestorRunActions machine actions _ with ⟨_ | _, next⟩
    · rw [isRun] at ancestors
      exact ancestors
    · rw [isRun] at ancestors
      exact ancestors

omit [DecidableEq S] in
theorem Ctx.Sound.begun (isCurrent : ctx.current = deepest machine target)
    (isStart : ctx.transitions = [])
    (settled : ctx.cut = false → ctx.active = machine.lineage (deepest machine target))
    : ctx.Sound machine := by
  refine ⟨?_, ?_, ?_, fun whole _ _ => ?_⟩
  · rw [isCurrent]
    exact deepest_leaf machine target
  · rw [isStart]
    exact nofun
  · rw [isStart]
    exact fun _ => ⟨fun _ => nofun, fun _ => nofun⟩
  · rw [isCurrent]
    exact settled whole

theorem smfSetInitial_sound (actions : Actions S) (start : Ctx S) (initState : S)
    : (smfSetInitial machine actions start initState).Sound machine := by
  let begun : Ctx S := { current := deepest machine initState, handled := start.handled }
  obtain ⟨⟨_, some⟩, complete⟩ := executeEntry_acted machine actions begun
    (deepest machine initState)
  unfold smfSetInitial
  dsimp only
  rcases isEntry : executeAncestorEntryActions machine actions _ _ with ⟨_ | _, inside⟩
  · rw [isEntry] at complete
    obtain ⟨entered, isEntered⟩ := complete rfl
    refine .begun entered.current entered.transitions fun _ => ?_
    rw [reverse_entries_none, List.append_nil] at isEntered
    exact isEntered
  · rw [isEntry] at some
    exact .begun some.current some.transitions nofun

theorem runs_sound (machine : Machine S) (actions : Actions S) (start : Ctx S) (initState : S)
    (n : Nat)
    : (runs machine actions start initState n).Sound machine := by
  induction n with
  | zero => exact smfSetInitial_sound actions start initState
  | succ n ih => exact ih.smfRunState actions

/-- In every run, exit and entry actions are called in order in every completed transition. If none
began after one that was cut short, the states that are entered after each of them are the current
state and its ancestors exactly if none is from a state to an ancestor that has an initial
transition; so they are also before the first one.
-/
theorem transitions_balanced (machine : Machine S) (actions : Actions S) (start : Ctx S)
    (initState : S) (n : Nat)
    : (∀ transition ∈ (runs machine actions start initState n).transitions,
        transition.Ordered machine)
      ∧ ((∀ transition ∈ (runs machine actions start initState n).transitions,
            transition.afterCut = false)
          → ((∀ transition ∈ (runs machine actions start initState n).transitions,
                transition.Balanced machine)
              ↔ ∀ transition ∈ (runs machine actions start initState n).transitions,
                  ¬ transition.Inward machine)
            ∧ ((runs machine actions start initState n).cut = false
                → (∀ transition ∈ (runs machine actions start initState n).transitions,
                    ¬ transition.Inward machine)
                → (runs machine actions start initState n).active
                  = machine.lineage (runs machine actions start initState n).current)) := by
  have sound := runs_sound machine actions start initState n
  exact ⟨sound.ordered, fun wholes => ⟨sound.balanced wholes,
    fun whole outward => sound.settled whole wholes outward⟩⟩

/-! ### Runs of two machines -/

instance (machine : Machine S) (transition : Transition S)
    : Decidable (transition.Balanced machine) :=
  inferInstanceAs (Decidable (_ ∧ _))

instance (machine : Machine S) (transition : Transition S)
    : Decidable (transition.Inward machine) :=
  inferInstanceAs (Decidable (_ ∧ _))

local instance fourNeZero : NeZero (4 : Nat) :=
  ⟨Nat.succ_ne_zero 3⟩

/-- A state 0 with the states 1 and 2 in it, of which 1 is initial, and a state 3. -/
def fourStates : Machine (Fin 4) where
  parent state := if state = 1 ∨ state = 2 then some 0 else none
  depth state := if state = 1 ∨ state = 2 then 1 else 0
  parent_lt {node above} isParent := by
    revert node above
    decide
  initial state := if state = 0 then some 1 else none
  entry _ := true
  run _ := true
  exit _ := true
  height := 2
  initial_below {state inner} isInitial := by
    revert state inner
    decide
  depth_lt := by decide

/-- The machine goes from 1 to 2 and 3, and to 1 by way of 0. -/
def goingRound : Actions (Fin 4) where
  onEntry _ := []
  onRun
    | .run 1 :: _ => [.setState 2]
    | .run 2 :: _ => [.setState 3]
    | .run 3 :: _ => [.setState 0]
    | _ => []
  onExit _ := []

theorem goingRound_balanced
    : ((runs fourStates goingRound { current := 0 } 0 3).transitions.map (·.target) = [1, 3, 2])
      ∧ ∀ transition ∈ (runs fourStates goingRound { current := 0 } 0 3).transitions,
          transition.Balanced fourStates := by
  refine ⟨by decide +kernel, ?_⟩
  exact ((transitions_balanced fourStates goingRound { current := 0 } 0 3).2
    (by decide +kernel)).1.mpr (by decide +kernel)

/-- The state 1 asks for a transition to 0, which has it as initial state. -/
def goingBack : Actions (Fin 4) where
  onEntry _ := []
  onRun
    | .run 1 :: _ => [.setState 0]
    | _ => []
  onExit _ := []

/-- A transition to an ancestor that has an initial transition exits the ancestor, and only enters
the initial state of it.
-/
theorem ancestor_not_entered
    : (runs fourStates goingBack { current := 0 } 0 1).calls
        = [.entry 1, .exit 0, .exit 1, .run 1, .entry 1, .entry 0]
      ∧ (runs fourStates goingBack { current := 0 } 0 1).current = 1
      ∧ (runs fourStates goingBack { current := 0 } 0 1).active = [1] := by
  decide +kernel

end Zephyr.Smf
