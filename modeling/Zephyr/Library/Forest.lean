import Mathlib.Data.List.Basic
import Mathlib.Data.List.Pairwise

/-! Forests given by the parent of each node, and the way from a node up to its root. -/

namespace Zephyr.Library

variable {α : Type*}

/-- A parent is less deep than its children, so that no node is above itself. -/
structure Forest (α : Type*) where
  parent : α → Option α
  depth : α → Nat
  parent_lt : ∀ {node above : α}, parent node = some above → depth above < depth node

/-- The first nodes on the way up from a node. -/
def lineageFrom (parent : α → Option α) : Nat → α → List α
  | 0, node => [node]
  | fuel + 1, node => node :: ((parent node).map (lineageFrom parent fuel)).getD []

namespace Forest

variable (forest : Forest α)

/-- A node and all the nodes above it, up to its root. -/
def lineage (node : α) : List α :=
  lineageFrom forest.parent (forest.depth node) node

/-- The nodes above a node. -/
def above (node : α) : List α :=
  ((forest.parent node).map forest.lineage).getD []

variable {forest} {node other outer : α}

theorem lineageFrom_eq {first second : Nat} (enough : forest.depth node ≤ first)
    (enough' : forest.depth node ≤ second)
    : lineageFrom forest.parent first node = lineageFrom forest.parent second node := by
  induction first generalizing node second with
  | zero =>
      have isRoot : forest.parent node = none := by
        cases isParent : forest.parent node with
        | none => rfl
        | some parent => exact absurd (forest.parent_lt isParent) (by omega)
      cases second with
      | zero => rfl
      | succ second => simp [lineageFrom, isRoot]
  | succ first ih =>
      cases isParent : forest.parent node with
      | none =>
          cases second with
          | zero => simp [lineageFrom, isParent]
          | succ second => simp [lineageFrom, isParent]
      | some parent =>
          have less := forest.parent_lt isParent
          cases second with
          | zero => omega
          | succ second =>
              simp only [lineageFrom, isParent, Option.map_some, Option.getD_some]
              exact congrArg (node :: ·) (ih (by omega) (by omega))

theorem lineage_eq (node : α) : forest.lineage node = node :: forest.above node := by
  unfold lineage above
  cases isParent : forest.parent node with
  | none => cases forest.depth node <;> simp [lineageFrom, isParent]
  | some parent =>
      have less := forest.parent_lt isParent
      obtain ⟨fuel, isDepth⟩ := Nat.exists_eq_succ_of_ne_zero (Nat.ne_zero_of_lt less)
      rw [isDepth, lineageFrom, isParent, Option.map_some, Option.map_some,
        lineageFrom_eq (by omega) (Nat.le_refl (forest.depth parent))]
      rfl

theorem above_of_parent (isParent : forest.parent node = some outer)
    : forest.above node = outer :: forest.above outer := by
  rw [above, isParent, Option.map_some, Option.getD_some, lineage_eq]

theorem above_of_root (isRoot : forest.parent node = none) : forest.above node = [] := by
  rw [above, isRoot, Option.map_none, Option.getD_none]

theorem mem_lineage : other ∈ forest.lineage node ↔ other = node ∨ other ∈ forest.above node := by
  rw [lineage_eq, List.mem_cons]

theorem parentInduction {motive : α → Prop}
    (step : ∀ node, (∀ outer, forest.parent node = some outer → motive outer) → motive node)
    (node : α)
    : motive node := by
  induction isDepth : forest.depth node using Nat.strongRecOn generalizing node with
  | _ depth ih =>
      refine step node fun outer isParent => ih (forest.depth outer) ?_ outer rfl
      exact isDepth ▸ forest.parent_lt isParent

/-! ### The order of the nodes on the way up -/

theorem above_trans (first : other ∈ forest.above node) (second : outer ∈ forest.above other)
    : outer ∈ forest.above node := by
  induction node using forest.parentInduction with
  | step node ih =>
      cases isParent : forest.parent node with
      | none =>
          rw [above_of_root isParent] at first
          exact nomatch first
      | some parent =>
          rw [above_of_parent isParent, List.mem_cons] at first ⊢
          rcases first with rfl | first
          · exact Or.inr second
          · exact Or.inr (ih parent isParent first)

theorem depth_lt_of_mem_above (isAbove : other ∈ forest.above node)
    : forest.depth other < forest.depth node := by
  induction node using forest.parentInduction with
  | step node ih =>
      cases isParent : forest.parent node with
      | none =>
          rw [above_of_root isParent] at isAbove
          exact nomatch isAbove
      | some parent =>
          have less := forest.parent_lt isParent
          rw [above_of_parent isParent, List.mem_cons] at isAbove
          rcases isAbove with rfl | isAbove
          · exact less
          · exact Nat.lt_trans (ih parent isParent isAbove) less

theorem not_mem_above (node : α) : node ∉ forest.above node :=
  fun isAbove => Nat.lt_irrefl _ (depth_lt_of_mem_above isAbove)

theorem above_total (first : other ∈ forest.above node) (second : outer ∈ forest.above node)
    : other ∈ forest.lineage outer ∨ outer ∈ forest.lineage other := by
  induction node using forest.parentInduction with
  | step node ih =>
      cases isParent : forest.parent node with
      | none =>
          rw [above_of_root isParent] at first
          exact nomatch first
      | some parent =>
          rw [above_of_parent isParent, List.mem_cons] at first second
          rcases first with rfl | first
          · exact Or.inr (mem_lineage.mpr second)
          · rcases second with rfl | second
            · exact Or.inl (mem_lineage.mpr (Or.inr first))
            · exact ih parent isParent first second

theorem pairwise_above (node : α)
    : (forest.above node).Pairwise (fun inner outer => outer ∈ forest.above inner) := by
  induction node using forest.parentInduction with
  | step node ih =>
      cases isParent : forest.parent node with
      | none =>
          rw [above_of_root isParent]
          exact List.Pairwise.nil
      | some parent =>
          rw [above_of_parent isParent]
          exact List.Pairwise.cons (fun _ isAbove => isAbove) (ih parent isParent)

theorem pairwise_lineage (node : α)
    : (forest.lineage node).Pairwise (fun inner outer => outer ∈ forest.above inner) := by
  rw [lineage_eq]
  exact List.Pairwise.cons (fun _ isAbove => isAbove) (pairwise_above node)

theorem nodup_lineage (node : α) : (forest.lineage node).Nodup := by
  refine (pairwise_lineage node).imp ?_
  rintro inner _ isAbove rfl
  exact not_mem_above inner isAbove

theorem nodup_above (node : α) : (forest.above node).Nodup := by
  have nodup := forest.nodup_lineage node
  rw [lineage_eq] at nodup
  exact nodup.of_cons

theorem length_above_le (node : α) : (forest.above node).length ≤ forest.depth node := by
  induction node using forest.parentInduction with
  | step node ih =>
      cases isParent : forest.parent node with
      | none =>
          rw [above_of_root isParent]
          exact Nat.zero_le _
      | some parent =>
          rw [above_of_parent isParent, List.length_cons]
          exact Nat.lt_of_le_of_lt (ih parent isParent) (forest.parent_lt isParent)

theorem above_of_lineage {inner rest : List α}
    (isLineage : forest.lineage node = inner ++ other :: rest)
    : forest.above other = rest := by
  induction inner generalizing node with
  | nil =>
      rw [lineage_eq, List.nil_append, List.cons.injEq] at isLineage
      exact isLineage.1 ▸ isLineage.2
  | cons first inner ih =>
      rw [lineage_eq, List.cons_append, List.cons.injEq] at isLineage
      cases isParent : forest.parent node with
      | none =>
          rw [above_of_root isParent] at isLineage
          exact absurd isLineage.2.symm (List.append_ne_nil_of_right_ne_nil _ nofun)
      | some parent =>
          rw [above_of_parent isParent, ← lineage_eq] at isLineage
          exact ih isLineage.2

theorem find_child {inner rest : List α} [DecidableEq α]
    (isLineage : forest.lineage node = inner ++ other :: outer :: rest)
    : (forest.lineage node).find? (fun child => forest.parent child = some outer) = some other := by
  refine List.find?_eq_some_iff_append.mpr ⟨?_, inner, outer :: rest, isLineage, ?_⟩
  · have isAbove := above_of_lineage isLineage
    cases isParent : forest.parent other with
    | none => simp [above_of_root isParent] at isAbove
    | some parent =>
        rw [above_of_parent isParent, List.cons.injEq] at isAbove
        exact decide_eq_true (congrArg some isAbove.1)
  · intro child isInner
    obtain ⟨before, between, rfl⟩ := List.append_of_mem isInner
    rw [List.append_assoc, List.cons_append] at isLineage
    have isAbove := above_of_lineage isLineage
    have nodup := forest.nodup_above child
    rw [isAbove] at nodup
    -- The parent would be met twice.
    simp only [Bool.not_eq_eq_eq_not, Bool.not_true, decide_eq_false_iff_not]
    intro isParent
    rw [above_of_parent isParent] at isAbove
    cases between with
    | nil => simp_all
    | cons next between => simp_all

theorem find_root [DecidableEq α] (node : α)
    : (forest.lineage node).find? (fun child => forest.parent child = none)
      = (forest.lineage node).getLast? := by
  rcases List.eq_nil_or_concat (forest.lineage node) with isNil | ⟨inner, root, isLineage⟩
  · rw [lineage_eq] at isNil
    exact nomatch isNil
  · rw [List.concat_eq_append] at isLineage
    rw [isLineage, List.getLast?_concat, ← isLineage]
    refine List.find?_eq_some_iff_append.mpr ⟨?_, inner, [], isLineage, ?_⟩
    · have isAbove := above_of_lineage isLineage
      cases isParent : forest.parent root with
      | none => rfl
      | some parent => simp [above_of_parent isParent] at isAbove
    · intro child isInner
      obtain ⟨before, between, rfl⟩ := List.append_of_mem isInner
      rw [List.append_assoc, List.cons_append] at isLineage
      have isAbove := above_of_lineage isLineage
      simp only [Bool.not_eq_eq_eq_not, Bool.not_true, decide_eq_false_iff_not]
      intro isRoot
      simp [above_of_root isRoot] at isAbove

/-! ### What two nodes have above them -/

theorem filter_append_of_pairwise {chosen : α → Prop} [DecidablePred chosen] {list : List α}
    (closed : list.Pairwise (fun first later => chosen first → chosen later))
    : list.filter (fun entry => ¬ chosen entry) ++ list.filter (fun entry => chosen entry)
      = list := by
  induction closed with
  | nil => rfl
  | @cons entry rest later _ ih =>
      by_cases isChosen : chosen entry
      · have others : rest.filter (fun entry => ¬ chosen entry) = [] := by
          refine List.filter_eq_nil_iff.mpr fun next isRest => ?_
          simpa using later next isRest isChosen
        have all : rest.filter (fun entry => chosen entry) = rest := by
          refine List.filter_eq_self.mpr fun next isRest => ?_
          simpa using later next isRest isChosen
        rw [List.filter_cons_of_neg (by simpa using isChosen),
          List.filter_cons_of_pos (by simpa using isChosen), others, all, List.nil_append]
      · rw [List.filter_cons_of_pos (by simpa using isChosen),
          List.filter_cons_of_neg (by simpa using isChosen), List.cons_append, ih]

variable [DecidableEq α]

theorem filter_above_comm (node other : α)
    : (forest.above node).filter (· ∈ forest.above other)
      = (forest.above other).filter (· ∈ forest.above node) := by
  refine List.Perm.eq_of_pairwise ?_ ((pairwise_above node).filter _)
    ((pairwise_above other).filter _) ?_
  · intro inner outer _ _ up down
    exact absurd (above_trans up down) (not_mem_above inner)
  · refine (List.perm_ext_iff_of_nodup ((nodup_above node).filter _)
      ((nodup_above other).filter _)).mpr ?_
    intro shared
    simp only [List.mem_filter, decide_eq_true_eq, and_comm]

theorem filter_above_append (node other : α)
    : (forest.above node).filter (· ∉ forest.above other)
        ++ (forest.above node).filter (· ∈ forest.above other)
      = forest.above node :=
  filter_append_of_pairwise
    ((pairwise_above node).imp (fun up inside => above_trans inside up))

end Forest

end Zephyr.Library
