import Mathlib.Data.List.Sort

/-! Lists ordered by position that store each position as the gap to the one before.
The lemmas relate the operations on gaps to ordinary operations on absolute positions.
-/

namespace Zephyr.Library.DeltaList

variable {α : Type*}

/-- The absolute positions of a gap list that starts at `base`. -/
def absolutes (base : Int) : List (α × Int) → List (α × Int)
  | [] => []
  | (item, gap) :: rest => (item, base + gap) :: absolutes (base + gap) rest

/-- Inserts an item `gap` after the start, behind the items that are not later. -/
def insertGap (item : α) (gap : Int) : List (α × Int) → List (α × Int)
  | [] => [(item, gap)]
  | (other, next) :: rest =>
      if gap < next then (item, gap) :: (other, next - gap) :: rest
      else (other, next) :: insertGap item (gap - next) rest

/-- Gives the gap of a removed head back to its successor. -/
def widenHead (gap : Int) : List (α × Int) → List (α × Int)
  | [] => []
  | (item, next) :: rest => (item, next + gap) :: rest

/-- Removes an item and gives its gap back to its successor. -/
def removeGap [DecidableEq α] (item : α) : List (α × Int) → List (α × Int)
  | [] => []
  | (other, gap) :: rest =>
      if other = item then widenHead gap rest else (other, gap) :: removeGap item rest

/-- The gaps are all at least zero, so positions never go back along the list. -/
def Forward (list : List (α × Int)) : Prop :=
  ∀ entry ∈ list, 0 ≤ entry.2

@[simp]
theorem absolutes_fst (base : Int) (list : List (α × Int))
    : (absolutes base list).map Prod.fst = list.map Prod.fst := by
  induction list generalizing base with
  | nil => rfl
  | cons head rest ih => simp [absolutes, ih]

theorem absolutes_shift (base shift : Int) (list : List (α × Int))
    : absolutes (base + shift) list
      = (absolutes base list).map (fun entry => (entry.1, entry.2 + shift)) := by
  induction list generalizing base with
  | nil => rfl
  | cons head rest ih =>
      have moved : base + shift + head.2 = base + head.2 + shift := by omega
      simp [absolutes, moved, ih]

theorem absolutes_widenHead (base gap : Int) (list : List (α × Int))
    : absolutes base (widenHead gap list) = absolutes (base + gap) list := by
  cases list with
  | nil => rfl
  | cons head rest =>
      have moved : base + (head.2 + gap) = base + gap + head.2 := by omega
      simp [widenHead, absolutes, moved]

/-- Inserting a gap inserts the absolute position behind every position that is not later.
Witness: induction over the list; the remaining gap keeps the same absolute position.
-/
theorem absolutes_insertGap (base gap : Int) (item : α) (list : List (α × Int))
    : absolutes base (insertGap item gap list)
      = (absolutes base list).orderedInsert (fun left right => left.2 < right.2)
          (item, base + gap) := by
  induction list generalizing base gap with
  | nil => rfl
  | cons head rest ih =>
      obtain ⟨other, next⟩ := head
      by_cases before : gap < next
      · have moved : base + gap + (next - gap) = base + next := by omega
        simp [insertGap, before, absolutes, moved]
      · have moved : base + next + (gap - next) = base + gap := by omega
        simp [insertGap, before, absolutes, ih, moved]

/-- Removing a gap removes that item's absolute position and keeps all others.
Witness: induction over the list; the successor absorbs the removed gap.
-/
theorem absolutes_removeGap [DecidableEq α] (base : Int) (item : α) (list : List (α × Int))
    (unique : (list.map Prod.fst).Nodup)
    : absolutes base (removeGap item list)
      = (absolutes base list).filter (fun entry => entry.1 ≠ item) := by
  induction list generalizing base with
  | nil => rfl
  | cons head rest ih =>
      obtain ⟨other, gap⟩ := head
      obtain ⟨fresh, unique⟩ := List.nodup_cons.mp unique
      by_cases same : other = item
      · subst same
        have others : ∀ entry ∈ absolutes (base + gap) rest, entry.1 ≠ other := by
          intro entry member same
          have listed : entry.1 ∈ (absolutes (base + gap) rest).map Prod.fst :=
            List.mem_map_of_mem member
          rw [absolutes_fst, same] at listed
          exact fresh listed
        have kept := List.filter_eq_self.mpr (fun entry member => decide_eq_true (others entry member))
        simp only [removeGap, if_true, absolutes_widenHead, absolutes, ne_eq, not_true,
          decide_false, Bool.false_eq_true, not_false_eq_true, List.filter_cons_of_neg]
        exact kept.symm
      · simp [removeGap, same, absolutes, ih _ unique]

theorem Forward.base_le {base : Int} {list : List (α × Int)} (forward : Forward list)
    : ∀ entry ∈ absolutes base list, base ≤ entry.2 := by
  induction list generalizing base with
  | nil => simp [absolutes]
  | cons head rest ih =>
      intro entry member
      have step := forward head (by simp)
      rcases List.mem_cons.mp member with same | later
      · subst same
        change base ≤ base + head.2
        omega
      · have bound := ih (fun next found => forward next (List.mem_cons_of_mem _ found)) entry later
        omega

theorem Forward.tail {head : α × Int} {list : List (α × Int)}
    (forward : Forward (head :: list))
    : Forward list :=
  fun entry member => forward entry (List.mem_cons_of_mem _ member)

theorem Forward.widenHead {gap : Int} {list : List (α × Int)} (nonneg : 0 ≤ gap)
    (forward : Forward list)
    : Forward (widenHead gap list) := by
  cases list with
  | nil => exact forward
  | cons head rest =>
      intro entry member
      rcases List.mem_cons.mp member with same | later
      · subst same
        have step := forward head (by simp)
        simp only
        omega
      · exact forward entry (List.mem_cons_of_mem _ later)

theorem Forward.insertGap {gap : Int} {item : α} {list : List (α × Int)} (nonneg : 0 ≤ gap)
    (forward : Forward list)
    : Forward (insertGap item gap list) := by
  induction list generalizing gap with
  | nil => simpa [DeltaList.insertGap, Forward] using nonneg
  | cons head rest ih =>
      obtain ⟨other, next⟩ := head
      by_cases before : gap < next
      · intro entry member
        simp only [DeltaList.insertGap, before, if_true, List.mem_cons] at member
        rcases member with same | same | later
        · simpa only [same] using nonneg
        · subst same
          simp only
          omega
        · exact forward entry (List.mem_cons_of_mem _ later)
      · have rest' : Forward (DeltaList.insertGap item (gap - next) rest) :=
          ih (by omega) forward.tail
        intro entry member
        simp only [DeltaList.insertGap, before, if_false, List.mem_cons] at member
        rcases member with same | later
        · exact forward entry (by simp [same])
        · exact rest' entry later

theorem Forward.removeGap [DecidableEq α] {item : α} {list : List (α × Int)}
    (forward : Forward list)
    : Forward (removeGap item list) := by
  induction list with
  | nil => exact forward
  | cons head rest ih =>
      obtain ⟨other, gap⟩ := head
      by_cases same : other = item
      · simpa only [DeltaList.removeGap, same, if_true]
          using forward.tail.widenHead (forward (other, gap) (by simp))
      · intro entry member
        simp only [DeltaList.removeGap, same, if_false, List.mem_cons] at member
        rcases member with first | later
        · exact forward entry (by simp [first])
        · exact ih forward.tail entry later

end Zephyr.Library.DeltaList
