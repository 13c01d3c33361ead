import Mathlib.Data.List.Sort
import Mathlib.Data.List.TakeWhile
import Mathlib.Order.Defs.LinearOrder

/-! Queues ordered by a key, first in first out among equal keys.
A new element goes in front of the first element with a larger key; `stamp` numbers the
insertions, so the queue is strictly ordered by key and then by stamp.
-/

namespace Zephyr.Library

variable {α κ : Type*} [LinearOrder κ]

/-- `left` is served before `right`: a smaller key, or the same key and inserted earlier. -/
def Precedes (key : α → κ) (stamp : α → Nat) (left right : α) : Prop :=
  key left < key right ∨ key left = key right ∧ stamp left < stamp right

/-- Inserts behind every element whose key is not larger. -/
def stableInsert (key : α → κ) (item : α) (queue : List α) : List α :=
  queue.orderedInsert (fun left right => key left < key right) item

@[simp]
theorem mem_stableInsert {key : α → κ} {item other : α} {queue : List α}
    : other ∈ stableInsert key item queue ↔ other = item ∨ other ∈ queue :=
  List.mem_orderedInsert _

theorem perm_stableInsert (key : α → κ) (item : α) (queue : List α)
    : (stableInsert key item queue).Perm (item :: queue) :=
  List.perm_orderedInsert _ item queue

theorem Precedes.key_le {key : α → κ} {stamp : α → Nat} {left right : α}
    (before : Precedes key stamp left right)
    : key left ≤ key right := by
  rcases before with less | ⟨same, _⟩
  · exact le_of_lt less
  · exact le_of_eq same

/-- An order between elements survives an insertion if the new element stands in it to each old
one according to their keys. Witness: induction over the queue; the first larger key is where
the walk stops.
-/
theorem pairwise_stableInsert_of {key : α → κ} {order : α → α → Prop} {item : α}
    {queue : List α} (increasing : queue.Pairwise (fun left right => key left ≤ key right))
    (ordered : queue.Pairwise order)
    (front : ∀ other ∈ queue, key item < key other → order item other)
    (behind : ∀ other ∈ queue, key other ≤ key item → order other item)
    : (stableInsert key item queue).Pairwise order := by
  induction queue with
  | nil => simp [stableInsert]
  | cons head rest ih =>
      obtain ⟨headLeast, restIncreasing⟩ := List.pairwise_cons.mp increasing
      obtain ⟨headFirst, restOrdered⟩ := List.pairwise_cons.mp ordered
      by_cases before : key item < key head
      · rw [stableInsert, List.orderedInsert_cons, if_pos before]
        refine List.pairwise_cons.mpr ⟨?_, ordered⟩
        intro other member
        refine front other member ?_
        rcases List.mem_cons.mp member with same | later
        · exact same ▸ before
        · exact lt_of_lt_of_le before (headLeast other later)
      · rw [stableInsert, List.orderedInsert_cons, if_neg before]
        refine List.pairwise_cons.mpr ⟨?_, ih restIncreasing restOrdered
          (fun other member => front other (List.mem_cons_of_mem _ member))
          (fun other member => behind other (List.mem_cons_of_mem _ member))⟩
        intro other member
        rcases mem_stableInsert.mp member with same | later
        · exact same ▸ behind head List.mem_cons_self (not_lt.mp before)
        · exact headFirst other later

theorem increasing_stableInsert {key : α → κ} {item : α} {queue : List α}
    (increasing : queue.Pairwise (fun left right => key left ≤ key right))
    : (stableInsert key item queue).Pairwise (fun left right => key left ≤ key right) :=
  pairwise_stableInsert_of increasing increasing (fun _ _ less => le_of_lt less)
    (fun _ _ less => less)

theorem pairwise_stableInsert {key : α → κ} {stamp : α → Nat} {item : α} {queue : List α}
    (ordered : queue.Pairwise (Precedes key stamp))
    (latest : ∀ other ∈ queue, stamp other < stamp item)
    : (stableInsert key item queue).Pairwise (Precedes key stamp) := by
  refine pairwise_stableInsert_of (ordered.imp Precedes.key_le) ordered
    (fun _ _ less => .inl less) ?_
  intro other member notLarger
  rcases lt_or_eq_of_le notLarger with less | equal
  · exact .inl less
  · exact .inr ⟨equal, latest other member⟩

theorem filter_stableInsert {key : α → κ} {item : α} {queue : List α} (shared : κ)
    (increasing : queue.Pairwise (fun left right => key left ≤ key right))
    : (stableInsert key item queue).filter (fun other => key other = shared)
      = if key item = shared then queue.filter (fun other => key other = shared) ++ [item]
        else queue.filter (fun other => key other = shared) := by
  induction queue with
  | nil =>
      by_cases same : key item = shared
      · simp [stableInsert, same]
      · simp [stableInsert, same]
  | cons head rest ih =>
      obtain ⟨headLeast, restIncreasing⟩ := List.pairwise_cons.mp increasing
      by_cases before : key item < key head
      · rw [stableInsert, List.orderedInsert_cons, if_pos before]
        by_cases same : key item = shared
        · -- No element behind the new one has its key.
          have none : (head :: rest).filter (fun other => key other = shared) = [] := by
            refine List.filter_eq_nil_iff.mpr fun other member => ?_
            have larger : key item < key other := by
              rcases List.mem_cons.mp member with rfl | later
              · exact before
              · exact lt_of_lt_of_le before (headLeast other later)
            simpa only [decide_eq_true_eq, ← same] using ne_of_gt larger
          rw [if_pos same, List.filter_cons_of_pos (by simpa using same), none, List.nil_append]
        · rw [if_neg same, List.filter_cons_of_neg (by simpa using same)]
      · have isRest := ih restIncreasing
        unfold stableInsert at isRest
        rw [stableInsert, List.orderedInsert_cons, if_neg before, List.filter_cons, List.filter_cons,
          isRest]
        by_cases same : key item = shared <;> by_cases isHead : key head = shared <;>
          simp [same, isHead]

end Zephyr.Library
