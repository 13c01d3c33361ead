import Mathlib.Algebra.BigOperators.Intervals
import Mathlib.Algebra.Order.BigOperators.Group.Finset
import Mathlib.Logic.Function.Basic
import Mathlib.Tactic.Common

/-! Tilings of an interval by labelled tiles that are split, merged and relabelled. -/

namespace Zephyr.Library

variable {β : Type*}

/-- The size and the label of the tile that starts at each place. -/
abbrev Tiles (β : Type*) := Nat → Option (Nat × β)

/-- The tiles cover the places below `limit` without gaps or overlaps. -/
structure Tiling (limit : Nat) (tiles : Tiles β) : Prop where
  starts
    : tiles 0 ≠ none
  inside
    : ∀ {place size label},
        tiles place = some (size, label) → 0 < size ∧ place + size ≤ limit
  right
    : ∀ {place size label},
        tiles place = some (size, label) → place + size < limit → tiles (place + size) ≠ none
  apart
    : ∀ {place size label other},
        tiles place = some (size, label)
        → place < other
        → other < place + size
        → tiles other = none

namespace Tiling

variable {limit : Nat} {tiles : Tiles β}

/-! ### Neighbours -/

/-- Two tiles that start at different places do not overlap. -/
theorem disjoint (tiling : Tiling limit tiles) {place other size otherSize : Nat}
    {label otherLabel : β} (tile : tiles place = some (size, label))
    (otherTile : tiles other = some (otherSize, otherLabel)) (ne : place ≠ other)
    : place + size ≤ other ∨ other + otherSize ≤ place := by
  by_contra beyondlap
  rcases Nat.lt_or_gt_of_ne ne with less | more
  · have absent := tiling.apart tile less (by omega)
    simp only [absent, reduceCtorEq] at otherTile
  · have absent := tiling.apart otherTile more (by omega)
    simp only [absent, reduceCtorEq] at tile

theorem left_unique (tiling : Tiling limit tiles) {place other size otherSize : Nat}
    {label otherLabel : β} (tile : tiles place = some (size, label))
    (otherTile : tiles other = some (otherSize, otherLabel))
    (same : place + size = other + otherSize)
    : place = other := by
  by_contra ne
  have := (tiling.inside tile).1
  have := (tiling.inside otherTile).1
  have := tiling.disjoint tile otherTile ne
  omega

/-- A tile ends where every place that is the end of the interval or the start of a tile is.
Witness: the walk to the right from any tile before the place cannot step over it.
-/
theorem left (tiling : Tiling limit tiles) {place : Nat} (positive : 0 < place)
    (stop : place = limit ∨ tiles place ≠ none)
    : ∃ before size label, tiles before = some (size, label) ∧ before + size = place := by
  suffices walk : ∀ distance before, place - before = distance → before < place
      → tiles before ≠ none
      → ∃ before size label, tiles before = some (size, label) ∧ before + size = place by
    exact walk _ 0 rfl positive tiling.starts
  intro distance
  induction distance using Nat.strongRecOn with
  | ind distance ih =>
      intro before far less present
      obtain ⟨⟨size, label⟩, tile⟩ := Option.ne_none_iff_exists'.mp present
      obtain ⟨sized, within⟩ := tiling.inside tile
      have notOver : before + size ≤ place := by
        by_contra beyond
        rcases stop with stop | start
        · omega
        · exact start (tiling.apart tile less (by omega))
      by_cases reached : before + size = place
      · exact ⟨before, size, label, tile, reached⟩
      · have below : before + size < limit := by
          rcases stop with stop | start
          · omega
          · obtain ⟨⟨_, _⟩, there⟩ := Option.ne_none_iff_exists'.mp start
            have := tiling.inside there
            omega
        exact ih (place - (before + size)) (by omega) (before + size) rfl (by omega)
          (tiling.right tile below)

/-! ### Changing the label of a tile -/

theorem relabel (tiling : Tiling limit tiles) {place size : Nat} {label : β}
    (tile : tiles place = some (size, label)) (label' : β)
    : Tiling limit (Function.update tiles place (some (size, label'))) := by
  -- the same places start tiles of the same sizes
  have sizes : ∀ {other otherSize otherLabel},
      Function.update tiles place (some (size, label')) other = some (otherSize, otherLabel)
      → ∃ old, tiles other = some (otherSize, old) := by
    intro other otherSize otherLabel found
    by_cases same : other = place
    · subst same
      rw [Function.update_self] at found
      cases found
      exact ⟨label, tile⟩
    · rw [Function.update_of_ne same] at found
      exact ⟨otherLabel, found⟩
  have absent : ∀ {other},
      Function.update tiles place (some (size, label')) other = none ↔ tiles other = none := by
    intro other
    by_cases same : other = place
    · simp only [same, Function.update_self, tile, reduceCtorEq]
    · rw [Function.update_of_ne same]
  refine ⟨absent.not.mpr tiling.starts, ?_, ?_, ?_⟩
  · intro other otherSize otherLabel found
    obtain ⟨old, before⟩ := sizes found
    exact tiling.inside before
  · intro other otherSize otherLabel found below
    obtain ⟨old, before⟩ := sizes found
    exact absent.not.mpr (tiling.right before below)
  · intro other otherSize otherLabel inner found above below
    obtain ⟨old, before⟩ := sizes found
    exact absent.mpr (tiling.apart before above below)

/-! ### Cutting a tile in two -/

/-- The tiles after the one at `place` is cut into two of sizes `first` and `second`. -/
def split (tiles : Tiles β) (place first second : Nat) (label label' : β) : Tiles β :=
  Function.update (Function.update tiles place (some (first, label))) (place + first)
    (some (second, label'))

theorem split_eq_some {place first second : Nat} {label label' : β} (positive : 0 < first)
    {other size : Nat} {otherLabel : β}
    : split tiles place first second label label' other = some (size, otherLabel)
      ↔ (other = place ∧ size = first ∧ otherLabel = label)
        ∨ (other = place + first ∧ size = second ∧ otherLabel = label')
        ∨ (other ≠ place ∧ other ≠ place + first ∧ tiles other = some (size, otherLabel)) := by
  simp only [split, Function.update_apply]
  split_ifs with isSecond isFirst <;> grind

theorem split_eq_none {place first second : Nat} {label label' : β} {other : Nat}
    : split tiles place first second label label' other = none
      ↔ other ≠ place ∧ other ≠ place + first ∧ tiles other = none := by
  simp only [split, Function.update_apply]
  split_ifs with isSecond isFirst <;> grind

theorem tiling_split (tiling : Tiling limit tiles) {place first second : Nat} {label₀ : β}
    (tile : tiles place = some (first + second, label₀)) (label label' : β)
    (positive : 0 < first) (rest : 0 < second)
    : Tiling limit (split tiles place first second label label') := by
  have within := tiling.inside tile
  refine ⟨?_, ?_, ?_, ?_⟩
  · rw [ne_eq, split_eq_none]
    exact fun absent => tiling.starts absent.2.2
  · intro other size otherLabel found
    rcases (split_eq_some positive).mp found with ⟨rfl, rfl, -⟩ | ⟨rfl, rfl, -⟩ | ⟨-, -, old⟩
    · omega
    · omega
    · exact tiling.inside old
  · intro other size otherLabel found below absent
    obtain ⟨notFirst, notSecond, none⟩ := split_eq_none.mp absent
    rcases (split_eq_some positive).mp found with ⟨rfl, rfl, -⟩ | ⟨rfl, rfl, -⟩ | ⟨-, -, old⟩
    · exact notSecond rfl
    · rw [Nat.add_assoc] at none below
      exact tiling.right tile below none
    · exact tiling.right old below none
  · intro other size otherLabel inner found above below
    rw [split_eq_none]
    rcases (split_eq_some positive).mp found with ⟨rfl, rfl, -⟩ | ⟨rfl, rfl, -⟩ | ⟨ne, -, old⟩
    · exact ⟨by omega, by omega, tiling.apart tile above (by omega)⟩
    · exact ⟨by omega, by omega, tiling.apart tile (by omega) (by omega)⟩
    · have := tiling.disjoint old tile ne
      exact ⟨by omega, by omega, tiling.apart old above below⟩

/-! ### Joining two neighbours -/

/-- The tiles after the one at `place` takes in its right neighbour. -/
def merge (tiles : Tiles β) (place first second : Nat) (label : β) : Tiles β :=
  Function.update (Function.update tiles (place + first) none) place
    (some (first + second, label))

theorem merge_eq_some {place first second : Nat} {label : β} {other size : Nat} {otherLabel : β}
    : merge tiles place first second label other = some (size, otherLabel)
      ↔ (other = place ∧ size = first + second ∧ otherLabel = label)
        ∨ (other ≠ place ∧ other ≠ place + first ∧ tiles other = some (size, otherLabel)) := by
  simp only [merge, Function.update_apply]
  split_ifs with isFirst isSecond <;> grind

theorem merge_eq_none {place first second : Nat} {label : β} {other : Nat}
    : merge tiles place first second label other = none
      ↔ other ≠ place ∧ (other = place + first ∨ tiles other = none) := by
  simp only [merge, Function.update_apply]
  split_ifs with isFirst isSecond <;> grind

theorem tiling_merge (tiling : Tiling limit tiles) {place first second : Nat} {label₁ label₂ : β}
    (tile : tiles place = some (first, label₁))
    (neighbour : tiles (place + first) = some (second, label₂)) (label : β)
    : Tiling limit (merge tiles place first second label) := by
  have within := tiling.inside tile
  have within' := tiling.inside neighbour
  refine ⟨?_, ?_, ?_, ?_⟩
  · rw [ne_eq, merge_eq_none]
    rintro ⟨ne, same | absent⟩
    · omega
    · exact tiling.starts absent
  · intro other size otherLabel found
    rcases merge_eq_some.mp found with ⟨rfl, rfl, -⟩ | ⟨-, -, old⟩
    · omega
    · exact tiling.inside old
  · intro other size otherLabel found below absent
    obtain ⟨notFirst, gone⟩ := merge_eq_none.mp absent
    rcases merge_eq_some.mp found with ⟨rfl, rfl, -⟩ | ⟨ne, -, old⟩
    · rcases gone with gone | gone
      · omega
      · rw [← Nat.add_assoc] at gone below
        exact tiling.right neighbour below gone
    · rcases gone with gone | gone
      · exact ne (tiling.left_unique old tile gone)
      · exact tiling.right old below gone
  · intro other size otherLabel inner found above below
    rw [merge_eq_none]
    rcases merge_eq_some.mp found with ⟨rfl, rfl, -⟩ | ⟨ne, -, old⟩
    · refine ⟨by omega, ?_⟩
      rcases Nat.lt_trichotomy inner (other + first) with less | same | more
      · exact .inr (tiling.apart tile above less)
      · exact .inl same
      · exact .inr (tiling.apart neighbour more (by omega))
    · have := tiling.disjoint old tile ne
      exact ⟨by omega, .inr (tiling.apart old above below)⟩

/-! ### Sums over the tiles -/

end Tiling

end Zephyr.Library
