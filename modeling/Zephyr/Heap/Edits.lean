import Zephyr.Heap.Chunks
import Zephyr.Heap.FreeLists

/-! The edits that every call is made of: a free chunk leaves its list or joins it, a list is
turned, a free chunk is cut in two or two of them are joined. None of them is about a used chunk.
-/

namespace Zephyr.Heap

open Library

/-- The heap stands for these chunks with some order of the free lists. -/
def Shape (h : ZHeap) (base last : Nat) (tiles : Tiles Bool) (loose : Set Nat) : Prop :=
  ∃ lists, Represents h base last tiles lists loose

/-- The sizes of the used chunks. -/
def usedSizes (tiles : Tiles Bool) (c : Nat) : Option Nat :=
  match tiles c with
  | some (size, true) => some size
  | _ => none

variable {h : ZHeap} {base last : Nat} {tiles : Tiles Bool} {loose : Set Nat}

/-! ### Used chunks -/

theorem usedSizes_eq_some {c size : Nat}
    : usedSizes tiles c = some size ↔ tiles c = some (size, true) := by
  unfold usedSizes
  split <;> simp_all

theorem usedSizes_free {c size : Nat} (tile : tiles c = some (size, false))
    : usedSizes tiles c = none := by
  simp only [usedSizes, tile]

theorem usedSizes_mark {c size : Nat} {used : Bool}
    : usedSizes (Function.update tiles c (some (size, used)))
      = Function.update (usedSizes tiles) c (if used then some size else none) := by
  funext d
  by_cases same : d = c
  · subst same
    simp only [usedSizes, Function.update_self]
    cases used <;> rfl
  · simp only [usedSizes, Function.update_of_ne same]

theorem usedSizes_split {lc first second : Nat} (interior : tiles (lc + first) = none)
    : usedSizes (Tiling.split tiles lc first second false false)
      = Function.update (usedSizes tiles) lc none := by
  have right : Function.update (usedSizes tiles) lc none (lc + first) = none := by
    by_cases same : lc + first = lc
    · rw [same, Function.update_self]
    · rw [Function.update_of_ne same, usedSizes, interior]
  rw [Tiling.split, usedSizes_mark, usedSizes_mark]
  simp only [Bool.false_eq_true, if_false]
  exact Function.update_eq_self_iff.mpr right.symm

theorem usedSizes_merge {lc first second : Nat}
    : usedSizes (Tiling.merge tiles lc first second false)
      = Function.update (Function.update (usedSizes tiles) (lc + first) none) lc none := by
  rw [Tiling.merge, usedSizes_mark]
  simp only [Bool.false_eq_true, if_false]
  congr 1
  funext d
  by_cases same : d = lc + first
  · subst same
    simp only [usedSizes, Function.update_self]
  · simp only [usedSizes, Function.update_of_ne same]

/-- Setting what is so already changes nothing. -/
theorem update_none {sizes : Nat → Option Nat} {c : Nat} (absent : sizes c = none)
    : Function.update sizes c none = sizes :=
  Function.update_eq_self_iff.mpr absent.symm

theorem single_without (c : Nat) : ({c} : Set Nat) \ {c} = ∅ := by
  grind

/-! ### Edits -/

/-- A heap with the chunks that it stands for and those that are free and in no list. -/
structure Stage where
  heap : ZHeap
  tiles : Tiles Bool
  loose : Set Nat

inductive Edit (base last : Nat) : Stage → Stage → Prop
  | unlist {h : ZHeap} {tiles : Tiles Bool} {lists : Nat → List Nat} {loose : Set Nat}
      {c size : Nat} (shape : Represents h base last tiles lists loose)
      (tile : tiles c = some (size, false)) (tight : c ∉ loose)
      : Edit base last ⟨h, tiles, loose⟩ ⟨h.freeListRemove c, tiles, insert c loose⟩
  | turn {h : ZHeap} {tiles : Tiles Bool} {lists : Nat → List Nat} {loose : Set Nat} {i c : Nat}
      {rest : List Nat} (shape : Represents h base last tiles lists loose)
      (list : lists i = c :: rest)
      : Edit base last ⟨h, tiles, loose⟩ ⟨h.setBucketNext i (h.nextFreeChunk c), tiles, loose⟩
  | list {h : ZHeap} {tiles : Tiles Bool} {lists : Nat → List Nat} {loose : Set Nat}
      {c size : Nat} (shape : Represents h base last tiles lists loose)
      (tile : tiles c = some (size, false)) (isLoose : c ∈ loose)
      (right : ∀ {size'}, tiles (c + size) = some (size', false) → c + size ∈ loose)
      (left : ∀ {d size'}, tiles d = some (size', false) → d + size' = c → d ∈ loose)
      : Edit base last ⟨h, tiles, loose⟩ ⟨h.freeListAdd c, tiles, loose \ {c}⟩
  | split {h : ZHeap} {tiles : Tiles Bool} {lists : Nat → List Nat} {loose : Set Nat}
      {lc first second : Nat} (shape : Represents h base last tiles lists loose)
      (tile : tiles lc = some (first + second, false)) (isLoose : lc ∈ loose)
      (positive : 0 < first) (rest : 0 < second)
      : Edit base last ⟨h, tiles, loose⟩
          ⟨h.splitChunks lc (lc + first), Tiling.split tiles lc first second false false,
            insert lc (insert (lc + first) loose)⟩
  | merge {h : ZHeap} {tiles : Tiles Bool} {lists : Nat → List Nat} {loose : Set Nat}
      {lc first second : Nat} (shape : Represents h base last tiles lists loose)
      (tile : tiles lc = some (first, false))
      (neighbour : tiles (lc + first) = some (second, false)) (isLoose : lc ∈ loose)
      (isLoose' : lc + first ∈ loose)
      : Edit base last ⟨h, tiles, loose⟩
          ⟨h.mergeChunks lc (lc + first), Tiling.merge tiles lc first second false,
            insert lc (loose \ {lc + first})⟩

abbrev Edits (base last : Nat) : Stage → Stage → Prop :=
  Relation.ReflTransGen (Edit base last)

variable {stage next : Stage}

theorem Edit.shape (sizes : Sizes last) (edit : Edit base last stage next)
    : Shape next.heap base last next.tiles next.loose := by
  cases edit with
  | unlist shape tile tight => exact shape.freeListRemove sizes tile tight
  | turn shape list => exact ⟨_, shape.rotate sizes list⟩
  | list shape tile isLoose right left =>
      exact shape.freeListAdd sizes tile isLoose right left
  | split shape tile isLoose positive rest =>
      exact ⟨_, shape.splitChunks sizes tile (shape.plan.free_ne_zero tile) (.inr isLoose) positive
        rest⟩
  | merge shape tile neighbour isLoose isLoose' =>
      exact ⟨_, shape.mergeChunks sizes tile neighbour (shape.plan.free_ne_zero tile)
        (.inr isLoose) (.inr isLoose')⟩

theorem Edit.used (edit : Edit base last stage next)
    : usedSizes next.tiles = usedSizes stage.tiles := by
  cases edit with
  | unlist | turn | list => rfl
  | @split h tiles lists loose lc first second shape tile isLoose positive rest =>
      have interior : tiles (lc + first) = none :=
        shape.plan.tiling.apart tile (by omega) (by omega)
      dsimp only
      rw [usedSizes_split interior, update_none (usedSizes_free tile)]
  | merge shape tile neighbour =>
      dsimp only
      rw [usedSizes_merge, update_none (usedSizes_free neighbour),
        update_none (usedSizes_free tile)]

theorem Edits.shape (edits : Edits base last stage next) (sizes : Sizes last)
    (shape : Shape stage.heap base last stage.tiles stage.loose)
    : Shape next.heap base last next.tiles next.loose := by
  induction edits with
  | refl => exact shape
  | tail _ edit _ => exact edit.shape sizes

theorem Edits.used (edits : Edits base last stage next)
    : usedSizes next.tiles = usedSizes stage.tiles := by
  induction edits with
  | refl => rfl
  | tail _ edit ih => exact edit.used.trans ih

end Zephyr.Heap
