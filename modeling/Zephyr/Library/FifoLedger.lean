import Mathlib.Data.List.Nodup
import Mathlib.Data.List.Perm.Basic

/-! A ledger of the calls to a first-in first-out service.
Calls are numbered as they are made. A put is accepted when it returns 0, a get removes a
message when it returns 0, and a purge removes whatever is left.
-/

namespace Zephyr.Library

variable {μ : Type*}

inductive FifoOperation (μ : Type*) where
  | put (message : μ)
  | get
  deriving DecidableEq, Repr

/-- A call that has returned, with its result and the contents of its data buffer. -/
structure FifoReturn (μ : Type*) where
  call : Nat
  result : Int
  data : μ
  deriving DecidableEq, Repr

/-- `removed` pairs each message that left with the get that took it, or `none` if purged. -/
structure FifoLedger (μ : Type*) where
  operations : List (FifoOperation μ) := []
  results : List (Nat × Int) := []
  accepted : List (Nat × μ) := []
  removed : List (Option Nat × μ) := []
  deriving DecidableEq, Repr

namespace FifoLedger

def invoke (ledger : FifoLedger μ) (operation : FifoOperation μ) : FifoLedger μ :=
  { ledger with operations := ledger.operations ++ [operation] }

def settle (ledger : FifoLedger μ) (returned : FifoReturn μ) : FifoLedger μ :=
  let results := ledger.results ++ [(returned.call, returned.result)]
  if returned.result = 0 then
    match ledger.operations[returned.call]? with
    | some (.put message) =>
        { ledger with
          results := results
          accepted := ledger.accepted ++ [(returned.call, message)] }
    | some .get =>
        { ledger with
          results := results
          removed := ledger.removed ++ [(some returned.call, returned.data)] }
    | none => { ledger with results := results }
  else { ledger with results := results }

def purge (ledger : FifoLedger μ) : FifoLedger μ :=
  { ledger with
    removed :=
      ledger.removed
      ++ (ledger.accepted.drop ledger.removed.length).map (fun put => (none, put.2)) }

/-- Every accepted message has been removed, in the order of acceptance, or is in `stored`. -/
def Balanced (ledger : FifoLedger μ) (stored : List μ) : Prop :=
  ledger.accepted.map Prod.snd = ledger.removed.map Prod.snd ++ stored

/-- Each call has one result or is one of the waiting calls; the accepted messages are those
of the puts that returned 0, and the gets that removed one are those that returned 0.
-/
structure Consistent (ledger : FifoLedger μ) (waiting : List Nat) : Prop where
  calls
    : (waiting ++ ledger.results.map Prod.fst).Perm (List.range ledger.operations.length)
  accepted
    : ∀ call message,
        (call, message) ∈ ledger.accepted
        ↔ ledger.operations[call]? = some (.put message) ∧ (call, 0) ∈ ledger.results
  acceptedOnce : (ledger.accepted.map Prod.fst).Nodup
  removed
    : ∀ call,
        some call ∈ ledger.removed.map Prod.fst
        ↔ ledger.operations[call]? = some .get ∧ (call, 0) ∈ ledger.results
  removedOnce : (ledger.removed.filterMap Prod.fst).Nodup

variable {ledger : FifoLedger μ} {waiting : List Nat} {stored : List μ}
  {returned : FifoReturn μ}

/-! ### Calls and results -/

theorem settle_operations : (ledger.settle returned).operations = ledger.operations := by
  unfold settle
  split
  · split <;> rfl
  · rfl

theorem foldl_settle_operations (returns : List (FifoReturn μ)) (ledger : FifoLedger μ)
    : (returns.foldl settle ledger).operations = ledger.operations := by
  induction returns generalizing ledger with
  | nil => rfl
  | cons returned rest ih => exact (ih _).trans settle_operations

theorem settle_results
    : (ledger.settle returned).results
      = ledger.results ++ [(returned.call, returned.result)] := by
  unfold settle
  split
  · split <;> rfl
  · rfl

theorem settle_put {message : μ} (success : returned.result = 0)
    (operation : ledger.operations[returned.call]? = some (.put message))
    : ledger.settle returned
      = { ledger with
          results := ledger.results ++ [(returned.call, returned.result)]
          accepted := ledger.accepted ++ [(returned.call, message)] } := by
  simp only [settle, success, if_true, operation]

theorem settle_get (success : returned.result = 0)
    (operation : ledger.operations[returned.call]? = some .get)
    : ledger.settle returned
      = { ledger with
          results := ledger.results ++ [(returned.call, returned.result)]
          removed := ledger.removed ++ [(some returned.call, returned.data)] } := by
  simp only [settle, success, if_true, operation]

theorem settle_failure (failure : returned.result ≠ 0)
    : ledger.settle returned
      = { ledger with results := ledger.results ++ [(returned.call, returned.result)] } := by
  simp only [settle, failure, if_false]

theorem invoke_old {operation : FifoOperation μ} {call : Nat}
    (old : call < ledger.operations.length)
    : (ledger.invoke operation).operations[call]? = ledger.operations[call]? := by
  simp [invoke, List.getElem?_append_left old]

theorem invoke_new {operation : FifoOperation μ}
    : (ledger.invoke operation).operations[ledger.operations.length]? = some operation := by
  simp [invoke]

theorem Consistent.waiting_lt (consistent : ledger.Consistent waiting) {call : Nat}
    (member : call ∈ waiting)
    : call < ledger.operations.length :=
  List.mem_range.mp (consistent.calls.subset (List.mem_append_left _ member))

theorem Consistent.result_lt (consistent : ledger.Consistent waiting) {call : Nat} {result : Int}
    (member : (call, result) ∈ ledger.results)
    : call < ledger.operations.length :=
  List.mem_range.mp
    (consistent.calls.subset (List.mem_append_right _ (List.mem_map_of_mem member)))

theorem Consistent.perm {other : List Nat} (consistent : ledger.Consistent waiting)
    (same : other.Perm waiting)
    : ledger.Consistent other :=
  { consistent with calls := (same.append_right _).trans consistent.calls }

/-- The calls that wait and the calls that have returned are different calls. -/
theorem Consistent.not_returned {call : Nat} (consistent : ledger.Consistent (call :: waiting))
    (result : Int)
    : (call, result) ∉ ledger.results := by
  intro member
  have nodup := consistent.calls.nodup_iff.mpr List.nodup_range
  rw [List.cons_append, List.nodup_cons] at nodup
  exact nodup.1 (List.mem_append_right _ (List.mem_map_of_mem member))

theorem Consistent.initial : ({} : FifoLedger μ).Consistent [] where
  calls := .refl _
  accepted := by simp
  acceptedOnce := List.nodup_nil
  removed := by simp
  removedOnce := List.nodup_nil

theorem Consistent.invoke (consistent : ledger.Consistent waiting) (operation : FifoOperation μ)
    : (ledger.invoke operation).Consistent (ledger.operations.length :: waiting) := by
  have sameCall (call : Nat) (found : FifoOperation μ)
      : (ledger.operations[call]? = some found ∧ (call, 0) ∈ ledger.results)
        ↔ ((ledger.invoke operation).operations[call]? = some found
            ∧ (call, 0) ∈ ledger.results) := by
    constructor
    · rintro ⟨known, returned⟩
      exact ⟨(invoke_old (consistent.result_lt returned)).trans known, returned⟩
    · rintro ⟨known, returned⟩
      exact ⟨(invoke_old (consistent.result_lt returned)).symm.trans known, returned⟩
  refine {
    calls := ?_
    accepted := fun call message => (consistent.accepted call message).trans (sameCall _ _)
    acceptedOnce := consistent.acceptedOnce
    removed := fun call => (consistent.removed call).trans (sameCall _ _)
    removedOnce := consistent.removedOnce }
  simp only [FifoLedger.invoke, List.length_append, List.length_singleton, List.range_succ]
  exact (List.Perm.cons _ consistent.calls).trans (List.perm_append_singleton _ _).symm

theorem settled_iff {operation found : FifoOperation μ} {call : Nat}
    (known : ledger.operations[returned.call]? = some operation)
    : (ledger.operations[call]? = some found
        ∧ (call, 0) ∈ ledger.results ++ [(returned.call, returned.result)])
      ↔ (ledger.operations[call]? = some found ∧ (call, 0) ∈ ledger.results)
        ∨ (call = returned.call ∧ found = operation ∧ returned.result = 0) := by
  simp only [List.mem_append, List.mem_singleton, Prod.mk.injEq]
  constructor
  · rintro ⟨old, done | ⟨rfl, success⟩⟩
    · exact .inl ⟨old, done⟩
    · exact .inr ⟨rfl, Option.some.inj (old.symm.trans known), success.symm⟩
  · rintro (⟨old, done⟩ | ⟨rfl, rfl, success⟩)
    · exact ⟨old, .inl done⟩
    · exact ⟨known, .inr ⟨rfl, success.symm⟩⟩

theorem Consistent.settle_calls (consistent : ledger.Consistent (returned.call :: waiting))
    : (waiting ++ (ledger.settle returned).results.map Prod.fst).Perm
        (List.range (ledger.settle returned).operations.length) := by
  rw [settle_operations, settle_results, List.map_append, ← List.append_assoc]
  exact (List.perm_append_singleton _ _).trans consistent.calls

theorem Consistent.settle_put {message : μ}
    (consistent : ledger.Consistent (returned.call :: waiting)) (success : returned.result = 0)
    (known : ledger.operations[returned.call]? = some (.put message))
    : (ledger.settle returned).Consistent waiting := by
  refine ⟨consistent.settle_calls, ?_, ?_, ?_, ?_⟩
  all_goals rw [FifoLedger.settle_put success known]
  · intro call other
    rw [settled_iff known, List.mem_append, List.mem_singleton, consistent.accepted call other]
    simp [success]
  · rw [List.map_append, List.nodup_append]
    refine ⟨consistent.acceptedOnce, List.nodup_singleton _, ?_⟩
    intro call accepted other new same
    obtain ⟨⟨found, message'⟩, member, rfl⟩ := List.mem_map.mp accepted
    obtain rfl := List.mem_singleton.mp new
    subst same
    exact consistent.not_returned 0 ((consistent.accepted _ _).mp member).2
  · intro call
    rw [settled_iff known, consistent.removed call]
    simp
  · exact consistent.removedOnce

theorem Consistent.settle_get
    (consistent : ledger.Consistent (returned.call :: waiting)) (success : returned.result = 0)
    (known : ledger.operations[returned.call]? = some .get)
    : (ledger.settle returned).Consistent waiting := by
  refine ⟨consistent.settle_calls, ?_, ?_, ?_, ?_⟩
  all_goals rw [FifoLedger.settle_get success known]
  · intro call other
    rw [settled_iff known, consistent.accepted call other]
    simp
  · exact consistent.acceptedOnce
  · intro call
    rw [settled_iff known, List.map_append, List.mem_append, consistent.removed call]
    simp [success]
  · rw [List.filterMap_append, List.nodup_append]
    refine ⟨consistent.removedOnce, by simp, ?_⟩
    intro call removed other new same
    obtain ⟨⟨found, message'⟩, member, rfl⟩ := List.mem_filterMap.mp removed
    obtain rfl : other = returned.call := by simpa using new
    subst same
    exact consistent.not_returned 0 ((consistent.removed _).mp (List.mem_map_of_mem member)).2

theorem Consistent.settle_failure
    (consistent : ledger.Consistent (returned.call :: waiting)) (failure : returned.result ≠ 0)
    : (ledger.settle returned).Consistent waiting := by
  have unaffected (call : Nat)
      : (call, (0 : Int)) ∈ ledger.results ++ [(returned.call, returned.result)]
        ↔ (call, (0 : Int)) ∈ ledger.results := by
    simp [Ne.symm failure]
  refine ⟨consistent.settle_calls, ?_, ?_, ?_, ?_⟩
  all_goals rw [FifoLedger.settle_failure failure]
  · intro call message
    rw [unaffected]
    exact consistent.accepted call message
  · exact consistent.acceptedOnce
  · intro call
    rw [unaffected]
    exact consistent.removed call
  · exact consistent.removedOnce

/-- A waiting call returns once, with whatever result. -/
theorem Consistent.settle (consistent : ledger.Consistent (returned.call :: waiting))
    : (ledger.settle returned).Consistent waiting := by
  obtain ⟨operation, known⟩ : ∃ operation, ledger.operations[returned.call]? = some operation :=
    ⟨_, List.getElem?_eq_getElem (consistent.waiting_lt List.mem_cons_self)⟩
  by_cases success : returned.result = 0
  · cases operation with
    | put message => exact consistent.settle_put success known
    | get => exact consistent.settle_get success known
  · exact consistent.settle_failure success

theorem Consistent.purge (consistent : ledger.Consistent waiting)
    : ledger.purge.Consistent waiting where
  calls := consistent.calls
  accepted := consistent.accepted
  acceptedOnce := consistent.acceptedOnce
  removed := by
    intro call
    refine Iff.trans ?_ (consistent.removed call)
    rw [FifoLedger.purge, List.map_append, List.mem_append, List.map_map]
    refine or_iff_left ?_
    intro purged
    obtain ⟨put, -, impossible⟩ := List.mem_map.mp purged
    cases impossible
  removedOnce := by
    rw [FifoLedger.purge, List.filterMap_append, List.filterMap_map]
    simpa [Function.comp_def] using consistent.removedOnce

/-! ### Messages -/

theorem Balanced.put {message : μ} (balanced : ledger.Balanced stored)
    (returned : FifoReturn μ) (success : returned.result = 0)
    (operation : ledger.operations[returned.call]? = some (.put message))
    : (ledger.settle returned).Balanced (stored ++ [message]) := by
  rw [settle_put success operation, Balanced, List.map_append, balanced, List.append_assoc]
  rfl

theorem Balanced.get (returned : FifoReturn μ)
    (balanced : ledger.Balanced (returned.data :: stored)) (success : returned.result = 0)
    (operation : ledger.operations[returned.call]? = some .get)
    : (ledger.settle returned).Balanced stored := by
  rw [settle_get success operation, Balanced, List.map_append, balanced, List.append_assoc]
  rfl

theorem Balanced.failure (balanced : ledger.Balanced stored) (failure : returned.result ≠ 0)
    : (ledger.settle returned).Balanced stored := by
  rw [settle_failure failure]
  exact balanced

theorem Balanced.purge (balanced : ledger.Balanced stored) : ledger.purge.Balanced [] := by
  have left : (ledger.accepted.drop ledger.removed.length).map Prod.snd = stored := by
    rw [List.map_drop, balanced, ← List.length_map Prod.snd, List.drop_left]
  simp only [FifoLedger.purge, Balanced, List.map_append, List.map_map, List.append_nil]
  rw [balanced, ← left]
  rfl

end FifoLedger

end Zephyr.Library
