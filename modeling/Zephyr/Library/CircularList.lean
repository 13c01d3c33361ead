import Mathlib.Data.List.Chain
import Mathlib.Logic.Function.Basic

/-! Circular doubly linked lists given by the two link functions of their nodes. -/

namespace Zephyr.Library

variable {α : Type*} {next prev : α → α}

/-- `first` and `second` are neighbours, linked both ways. -/
def Linked (next prev : α → α) (first second : α) : Prop :=
  next first = second ∧ prev second = first

/-- Following `next` from the head visits `nodes` in order and comes back to the head. -/
def Circular (next prev : α → α) : List α → Prop
  | [] => True
  | head :: rest => (head :: rest ++ [head]).IsChain (Linked next prev)

theorem Circular.congr {next' prev' : α → α} {nodes : List α}
    (circular : Circular next prev nodes)
    (nexts : ∀ node ∈ nodes, next' node = next node)
    (prevs : ∀ node ∈ nodes, prev' node = prev node)
    : Circular next' prev' nodes := by
  cases nodes with
  | nil => trivial
  | cons head rest =>
      refine List.IsChain.imp_of_mem_imp (fun first second inFirst inSecond linked => ?_) circular
      have member : ∀ node, node ∈ head :: rest ++ [head] → node ∈ head :: rest := by
        intro node present
        simp only [List.mem_append, List.mem_singleton] at present
        rcases present with present | rfl
        · exact present
        · exact List.mem_cons_self
      exact ⟨(nexts first (member _ inFirst)).trans linked.1,
        (prevs second (member _ inSecond)).trans linked.2⟩

theorem Circular.rotate {before after : List α} {node : α}
    (circular : Circular next prev (before ++ node :: after))
    : Circular next prev (node :: (after ++ before)) := by
  cases before with
  | nil => simpa only [List.append_nil, List.nil_append] using circular
  | cons head before =>
      have split : (head :: before ++ [node]).IsChain (Linked next prev)
          ∧ (node :: (after ++ [head])).IsChain (Linked next prev) := by
        rw [← List.isChain_split]
        simpa only [Circular, List.cons_append, List.append_assoc] using circular
      have joined : (node :: after ++ head :: (before ++ [node])).IsChain (Linked next prev) := by
        rw [List.isChain_split]
        exact ⟨by simpa only [List.cons_append] using split.2,
          by simpa only [List.cons_append] using split.1⟩
      simpa only [Circular, List.cons_append, List.append_assoc] using joined

theorem Circular.next_head {head second : α} {rest : List α}
    (circular : Circular next prev (head :: second :: rest))
    : Linked next prev head second :=
  List.rel_of_isChain_cons_cons circular

theorem Circular.next_single {head : α} (circular : Circular next prev [head])
    : next head = head :=
  (List.rel_of_isChain_cons_cons circular).1

theorem Circular.next_self {head : α} {rest : List α}
    (circular : Circular next prev (head :: rest)) (nodup : (head :: rest).Nodup)
    : next head = head ↔ rest = [] := by
  cases rest with
  | nil => simp only [circular.next_single]
  | cons second rest =>
      have ne : head ≠ second := by
        rintro rfl
        simp at nodup
      simp only [circular.next_head.1, Ne.symm ne, reduceCtorEq]

theorem Circular.open {head : α} {rest : List α} (circular : Circular next prev (head :: rest))
    : (head :: rest).IsChain (Linked next prev)
      ∧ ∀ last ∈ (head :: rest).getLast?, Linked next prev last head := by
  obtain ⟨inner, -, closing⟩ := List.isChain_append.mp circular
  exact ⟨inner, fun last isLast => closing last isLast head rfl⟩

theorem Circular.links_mem {head : α} {rest : List α} (circular : Circular next prev (head :: rest))
    : next head ∈ head :: rest ∧ prev head ∈ head :: rest := by
  constructor
  · cases rest with
    | nil => exact List.mem_singleton.mpr circular.next_single
    | cons second rest =>
        rw [circular.next_head.1]
        exact List.mem_cons_of_mem _ List.mem_cons_self
  · have isLast := List.getLast_mem_getLast? (List.cons_ne_nil head rest)
    rw [(circular.open.2 _ isLast).2]
    exact List.getLast_mem _

variable [DecidableEq α]

/-- A chain of distinct nodes keeps its inner links when the forward link of a node that leads
out of it and the backward link of its first node change.
-/
theorem inner_chain {first last nextLast prevFirst : α} {rest : List α}
    (chain : (first :: rest).IsChain (Linked next prev)) (nodup : (first :: rest).Nodup)
    (leaves : next last ∉ rest)
    : (first :: rest).IsChain
        (Linked (Function.update next last nextLast) (Function.update prev first prevFirst)) := by
  refine List.IsChain.imp_of_mem_tail_imp (fun node after _ inRest linked => ?_) chain
  have notLast : node ≠ last := by
    rintro rfl
    exact leaves (linked.1 ▸ inRest)
  have notFirst : after ≠ first := by
    rintro rfl
    exact (List.nodup_cons.mp nodup).1 inRest
  exact ⟨by rw [Function.update_of_ne notLast, linked.1],
    by rw [Function.update_of_ne notFirst, linked.2]⟩

theorem Circular.remove {node second : α} {rest : List α}
    (circular : Circular next prev (node :: second :: rest))
    (nodup : (node :: second :: rest).Nodup)
    : Circular (Function.update next (prev node) (next node))
        (Function.update prev (next node) (prev node)) (second :: rest) := by
  have linked := circular.next_head
  obtain ⟨chain, closing⟩ := circular.open
  obtain ⟨absent, nodupRest⟩ := List.nodup_cons.mp nodup
  rw [linked.1]
  have ends : ∀ last ∈ (second :: rest).getLast?, Linked next prev last node :=
    fun last isLast => closing last (by simpa only [List.getLast?_cons_cons] using isLast)
  have outward : next (prev node) = node := by
    have isLast := List.getLast_mem_getLast? (List.cons_ne_nil second rest)
    rw [(ends _ isLast).2, (ends _ isLast).1]
  refine List.isChain_append.mpr ⟨?_, List.isChain_singleton _, ?_⟩
  · refine inner_chain (List.isChain_of_isChain_cons chain) nodupRest ?_
    rw [outward]
    exact fun inRest => absent (List.mem_cons_of_mem _ inRest)
  · rintro last isLast _ ⟨⟩
    rw [(ends last isLast).2]
    exact ⟨Function.update_self .., Function.update_self ..⟩

theorem Circular.insert {node head : α} {rest : List α}
    (circular : Circular next prev (head :: rest)) (nodup : (head :: rest).Nodup)
    (absent : node ∉ head :: rest)
    : Circular (Function.update (Function.update next node head) (prev head) node)
        (Function.update (Function.update prev node (prev head)) head node)
        (head :: rest ++ [node]) := by
  obtain ⟨chain, closing⟩ := circular.open
  obtain ⟨absentRest, -⟩ := List.nodup_cons.mp nodup
  have ne : node ≠ head := by
    rintro rfl
    exact absent List.mem_cons_self
  obtain ⟨last, isLast⟩ : ∃ last, last ∈ (head :: rest).getLast? :=
    ⟨_, List.getLast_mem_getLast? (List.cons_ne_nil head rest)⟩
  have linked := closing last isLast
  have lastIn : last ∈ head :: rest := List.mem_of_getLast? isLast
  have neLast : node ≠ last := fun same => absent (same ▸ lastIn)
  have fresh : ∀ {links : α → α} {value : α},
      ∀ other ∈ head :: rest, Function.update links node value other = links other := by
    intro links value other present
    exact Function.update_of_ne (fun same => absent (by rw [← same]; exact present)) ..
  rw [linked.2]
  have inner : (head :: rest).IsChain
      (Linked (Function.update (Function.update next node head) last node)
        (Function.update (Function.update prev node last) head node)) := by
    refine inner_chain ?_ nodup ?_
    · refine List.IsChain.imp_of_mem_imp (fun before after inBefore inAfter neighbours => ?_) chain
      exact ⟨(fresh _ inBefore).trans neighbours.1, (fresh _ inAfter).trans neighbours.2⟩
    · rw [fresh _ lastIn, linked.1]
      exact absentRest
  -- the chain goes on from the last node to the new one and from there to the head
  have whole : (head :: rest ++ [node, head]).IsChain
      (Linked (Function.update (Function.update next node head) last node)
        (Function.update (Function.update prev node last) head node)) := by
    refine List.isChain_append.mpr ⟨inner, List.isChain_pair.mpr ⟨?_, ?_⟩, ?_⟩
    · rw [Function.update_of_ne neLast, Function.update_self]
    · exact Function.update_self ..
    · rintro other isOther _ ⟨⟩
      cases isLast.symm.trans isOther
      exact ⟨Function.update_self .., by rw [Function.update_of_ne ne, Function.update_self]⟩
  simpa only [Circular, List.cons_append, List.append_assoc, List.nil_append] using whole

end Zephyr.Library
