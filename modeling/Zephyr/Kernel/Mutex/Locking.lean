import Zephyr.Kernel.Mutex.Holding

/-! What `k_mutex_lock` keeps, up to its wait and after a wait that timed out. -/

namespace Zephyr.Kernel.Mutex

open Zephyr.Library

variable {system : System} {held : Held} {thread mutex : Nat}

/-! ### Lock -/

theorem Nested.setCount (nested : Nested system held) {count : UInt32}
    (locked : count = 0 ↔ (system.mutexes mutex).lockCount = 0)
    : Nested (system.setMutex mutex { system.mutexes mutex with lockCount := count }) held := by
  have orderly := nested.orderly mutex
  have same {other : Nat}
      : ((system.setMutex mutex
            { system.mutexes mutex with lockCount := count }).mutexes other).waitQ
          = (system.mutexes other).waitQ
        ∧ ((system.setMutex mutex
            { system.mutexes mutex with lockCount := count }).mutexes other).owner
          = (system.mutexes other).owner
        ∧ ((system.setMutex mutex
            { system.mutexes mutex with lockCount := count }).mutexes other).ownerOrigPrio
          = (system.mutexes other).ownerOrigPrio := by
    by_cases self : other = mutex
    · subst self
      simp
    · simp [System.setMutex_other _ self]
  refine nested.change (fun other ne => System.setMutex_other _ ne) rfl (fun _ _ _ _ => rfl)
    ?_ nested.distinct ?_ ?_
  · intro holder other
    rw [same.2.1]
    exact nested.owned holder other
  · refine ⟨?_, ?_, ?_, ?_, ?_, ?_⟩
    all_goals simp only [System.setMutex_self, System.setMutex_threads, System.setMutex_prio]
    · exact locked.trans orderly.locked
    · exact orderly.idle
    · exact orderly.pended
    · exact orderly.once
    · exact orderly.sorted
    · intro owner owns waiter member
      rw [System.setMutex_self] at member
      exact orderly.boosted owner owns waiter member
  · refine nested.saved_congr rfl (fun other => same.2.2) ?_
    intro _ _ earlier _
    rw [same.1]
    exact List.Subset.refl _

theorem Nested.acquire (thread : Nat) (nested : Nested system held)
    (free : (system.mutexes mutex).lockCount = 0)
    : Nested
        (system.setMutex mutex
          { system.mutexes mutex with
            ownerOrigPrio := system.prio thread
            lockCount := (system.mutexes mutex).lockCount + 1
            owner := some thread })
        (held.handOver mutex (system.mutexes mutex).owner (some thread)) := by
  have orderly := nested.orderly mutex
  have unowned := orderly.locked.mp free
  have nobody := orderly.idle unowned
  refine nested.handOver (by simp [unowned]) (fun other ne => System.setMutex_other _ ne) rfl
    (fun _ _ _ _ => rfl) (by simp) ?_ ?_
  · rintro holder ⟨⟩
    simp
  · refine ⟨?_, ?_, ?_, ?_, ?_, ?_⟩
    all_goals simp only [System.setMutex_self, System.setMutex_threads, System.setMutex_prio]
    · simp [free]
    · exact fun none => nomatch none
    · exact orderly.pended
    · exact orderly.once
    · exact orderly.sorted
    · intro owner _ waiter member
      rw [System.setMutex_self, nobody] at member
      cases member

theorem zPendCurr_waitQ_perm (system : System) (self mutex : Nat) (timeout : KTimeout)
    : ((zPendCurr system self mutex timeout).mutexes mutex).waitQ.Perm
        (⟨self, timeout⟩ :: (system.mutexes mutex).waitQ) := by
  simp only [zPendCurr, System.setThread_mutexes, System.setMutex_self,
    zPriqDumbAdd_eq_stableInsert]
  exact perm_stableInsert _ _ _

theorem zPendCurr_prio (system : System) (self mutex : Nat) (timeout : KTimeout)
    : (zPendCurr system self mutex timeout).prio = system.prio :=
  System.setThread_prio rfl

theorem zPendCurr_fields (system : System) (self mutex : Nat) (timeout : KTimeout) (other : Nat)
    : ((zPendCurr system self mutex timeout).mutexes other).owner = (system.mutexes other).owner
      ∧ ((zPendCurr system self mutex timeout).mutexes other).ownerOrigPrio
        = (system.mutexes other).ownerOrigPrio
      ∧ ((zPendCurr system self mutex timeout).mutexes other).lockCount
        = (system.mutexes other).lockCount := by
  by_cases same : other = mutex
  · subst same
    simp [zPendCurr]
  · simp [zPendCurr, System.setMutex_other _ same]

theorem zPendCurr_other {other : Nat} (timeout : KTimeout) (ne : other ≠ mutex)
    : (zPendCurr system thread mutex timeout).mutexes other = system.mutexes other :=
  System.setMutex_other _ ne

theorem Nested.last_not_below {owner last : Nat} (nested : Nested system held)
    (owns : (system.mutexes mutex).owner = some owner) (head : (held owner).head? = some mutex)
    {holder : Nat} (below : [last, mutex].Sublist (held holder))
    : False := by
  have member : mutex ∈ held holder := below.subset (by simp)
  obtain rfl : owner = holder :=
    Option.some.inj (owns.symm.trans ((nested.owned holder mutex).mp member))
  obtain ⟨rest, list⟩ := List.head?_eq_some_iff.mp head
  have nodup := nested.distinct owner
  rw [list] at below nodup
  have absent := (List.nodup_cons.mp nodup).1
  rcases List.sublist_cons_iff.mp below with later | ⟨tail, same, later⟩
  · exact absent (later.subset (by simp))
  · cases same
    exact absent (later.subset (by simp))

theorem Nested.pend {owner : Nat} (timeout : KTimeout) (nested : Nested system held)
    (running : (system.threads thread).pendedOn = none)
    (owns : (system.mutexes mutex).owner = some owner) (head : (held owner).head? = some mutex)
    (serves : system.prio owner ≤ max (system.prio thread) priorityCeiling)
    : Nested (zPendCurr system thread mutex timeout) held := by
  have orderly := nested.orderly mutex
  have queue := zPendCurr_waitQ_perm system thread mutex timeout
  have prio := zPendCurr_prio system thread mutex timeout
  have others {other : Nat} (waiting : other ≠ thread)
      : (zPendCurr system thread mutex timeout).threads other = system.threads other :=
    System.setThread_other _ waiting
  have fields := zPendCurr_fields system thread mutex timeout
  refine nested.change (fun other ne => zPendCurr_other timeout ne) prio ?_ ?_ nested.distinct
    ?_ ?_
  · intro other _ waiter member
    rw [others (nested.waiter_ne running member)]
  · intro holder other
    rw [(fields other).1]
    exact nested.owned holder other
  · refine ⟨?_, ?_, ?_, ?_, ?_, ?_⟩
    · rw [(fields mutex).1, (fields mutex).2.2]
      exact orderly.locked
    · rw [(fields mutex).1, owns]
      exact fun none => nomatch none
    · intro waiter member
      rcases List.mem_cons.mp (queue.subset member) with rfl | old
      · simp [zPendCurr]
      · rw [others (nested.waiter_ne running old)]
        exact orderly.pended waiter old
    · refine (queue.map Waiter.thread).nodup_iff.mpr (List.nodup_cons.mpr ⟨?_, orderly.once⟩)
      intro member
      obtain ⟨waiter, old, same⟩ := List.mem_map.mp member
      exact nested.waiter_ne running old same
    · rw [prio]
      simp only [zPendCurr, System.setThread_mutexes, System.setMutex_self,
        zPriqDumbAdd_eq_stableInsert]
      exact increasing_stableInsert orderly.sorted
    · intro found owns'
      rw [(fields mutex).1, owns] at owns'
      cases owns'
      intro waiter member
      rw [prio]
      rcases List.mem_cons.mp (queue.subset member) with rfl | old
      · exact serves
      · exact orderly.boosted owner owns waiter old
  · refine nested.saved_congr prio (fun other => (fields other).2.1) ?_
    intro holder last earlier below
    by_cases self : earlier = mutex
    · subst self
      exact (nested.last_not_below owns head below).elim
    · rw [zPendCurr_other timeout self]
      exact List.Subset.refl _

theorem newPrioForInheritance_le (target limit : Int)
    : newPrioForInheritance target limit ≤ max target priorityCeiling
      ∧ newPrioForInheritance target limit ≤ max limit priorityCeiling := by
  unfold newPrioForInheritance zGetNewPrioWithCeiling
  split <;> split <;> omega

/-- The state in which a lock pends: the owner's priority is the more urgent of its own and
that of the caller, up to the ceiling.
-/
theorem Nested.wait {owner : Nat} (timeout : KTimeout) (nested : Nested system held)
    (running : (system.threads thread).pendedOn = none)
    (owns : (system.mutexes mutex).owner = some owner) (head : (held owner).head? = some mutex)
    (ownerRuns : (system.threads owner).pendedOn = none) (other : owner ≠ thread)
    : Nested
        (zPendCurr
          (if newPrioForInheritance (system.prio thread) (system.prio owner) < system.prio owner
            then system.zThreadPrioSet owner
              (newPrioForInheritance (system.prio thread) (system.prio owner))
            else system)
          thread mutex timeout)
        held := by
  obtain ⟨served, limited⟩ := newPrioForInheritance_le (system.prio thread) (system.prio owner)
  generalize newPrioForInheritance (system.prio thread) (system.prio owner) = newPrio at *
  split
  · rename_i higher
    have boosted : Nested (system.zThreadPrioSet owner newPrio) held := by
      refine nested.prioSet ownerRuns ?_
      intro mutex member waiter waits
      have before := (nested.orderly mutex).boosted owner ((nested.owned owner mutex).mp member)
      exact (Int.le_of_lt higher).trans (before waiter waits)
    refine boosted.pend timeout ?_ owns head ?_
    · rw [System.zThreadPrioSet_pendedOn, running]
    · rw [System.zThreadPrioSet_prio_self, System.zThreadPrioSet_prio_other newPrio other.symm]
      exact served
  · exact nested.pend timeout running owns head (by omega)

theorem Nested.lock {result : Option Int} {next : System} {timeout : KTimeout}
    (nested : Nested system held) (running : (system.threads thread).pendedOn = none)
    (stays : StaysNested (system, held) (.lock thread mutex timeout))
    (locked : kMutexLock system thread mutex timeout = some (next, result))
    : Nested next
        (held.handOver mutex (system.mutexes mutex).owner (next.mutexes mutex).owner) := by
  have orderly := nested.orderly mutex
  simp only [StaysNested] at stays
  simp only [kMutexLock] at locked
  by_cases free : (system.mutexes mutex).lockCount = 0
  · rw [if_pos (.inl free)] at locked
    cases locked
    simpa [free] using nested.acquire thread free
  rcases stays.resolve_left free with ⟨mine, counts⟩ | ⟨notMine, waits⟩
  · rw [if_pos (.inr mine)] at locked
    cases locked
    simpa [Held.handOver, free, mine] using nested.setCount (iff_of_false counts free)
  · rw [if_neg (by simp [free, notMine])] at locked
    split at locked
    · cases locked
      simpa [Held.handOver] using nested
    · rename_i blocks
      split at locked
      · cases locked
      · rename_i owner owns
        cases locked
        obtain ⟨head, ownerRuns⟩ := (waits.resolve_left blocks) owner owns
        have other : owner ≠ thread := fun same => notMine (same ▸ owns)
        rw [(zPendCurr_fields ..).1, apply_ite System.mutexes, System.adjustOwnerPrio_eq,
          System.zThreadPrioSet_mutexes, ite_self, Held.handOver, if_pos rfl]
        exact nested.wait timeout running owns head ownerRuns other

/-! ### Waits that time out -/

theorem waitTimeout_fields (system : System) (waiter : Waiter) (mutex other : Nat)
    : ((waitTimeout system waiter mutex).mutexes other).owner = (system.mutexes other).owner
      ∧ ((waitTimeout system waiter mutex).mutexes other).ownerOrigPrio
        = (system.mutexes other).ownerOrigPrio
      ∧ ((waitTimeout system waiter mutex).mutexes other).lockCount
        = (system.mutexes other).lockCount
      ∧ ((waitTimeout system waiter mutex).mutexes other).waitQ
        ⊆ (system.mutexes other).waitQ := by
  by_cases same : other = mutex
  · subst same
    simpa [waitTimeout] using List.erase_subset
  · simp [waitTimeout, System.setMutex_other _ same]

theorem Nested.waitTimeout {waiter : Waiter} (nested : Nested system held)
    (member : waiter ∈ (system.mutexes mutex).waitQ)
    : Nested (waitTimeout system waiter mutex) held := by
  have orderly := nested.orderly mutex
  have waited := orderly.pended waiter member
  have prio : (Mutex.waitTimeout system waiter mutex).prio = system.prio :=
    System.setThread_prio rfl
  have kept : (system.mutexes mutex).waitQ.erase waiter ⊆ (system.mutexes mutex).waitQ :=
    List.erase_subset
  have other {found : Waiter} (left : found ∈ (system.mutexes mutex).waitQ.erase waiter)
      : found.thread ≠ waiter.thread := by
    intro same
    obtain ⟨ne, -⟩ := orderly.once.of_map.mem_erase_iff.mp left
    exact ne (List.inj_on_of_nodup_map orderly.once (kept left) member same)
  refine nested.change (fun other ne => System.setMutex_other _ ne) prio ?_ ?_ nested.distinct
    ?_ ?_
  · intro other ne found foundMember
    have elsewhere := (nested.orderly other).pended found foundMember
    rw [Mutex.waitTimeout, System.setThread_other, System.setMutex_threads]
    intro same
    rw [same, waited] at elsewhere
    exact ne (Option.some.inj elsewhere).symm
  · intro holder found
    rw [(waitTimeout_fields ..).1]
    exact nested.owned holder found
  · have owner := (waitTimeout_fields system waiter mutex mutex).1
    have queue : ((Mutex.waitTimeout system waiter mutex).mutexes mutex).waitQ
        = (system.mutexes mutex).waitQ.erase waiter := by
      simp [Mutex.waitTimeout]
    refine ⟨?_, ?_, ?_, ?_, ?_, ?_⟩
    · rw [owner, (waitTimeout_fields ..).2.2.1]
      exact orderly.locked
    · intro unowned
      rw [owner] at unowned
      simp [orderly.idle unowned] at member
    · rw [queue]
      intro found left
      rw [Mutex.waitTimeout, System.setThread_other _ (other left)]
      exact orderly.pended found (kept left)
    · rw [queue]
      exact orderly.once.sublist (List.erase_sublist.map _)
    · rw [queue, prio]
      exact orderly.sorted.sublist List.erase_sublist
    · intro found owns
      rw [owner] at owns
      rw [prio]
      exact (orderly.boosted found owns).mono (queue ▸ kept) (fun _ _ => by rw [prio])
  · refine nested.saved_congr prio (fun found => (waitTimeout_fields ..).2.1) ?_
    intro _ _ earlier _
    exact (waitTimeout_fields system waiter mutex earlier).2.2.2

/-- The priority that the owner gets back when a wait for its mutex has timed out. -/
def prioAfterTimeout (system : System) (mutex : Nat) : Int :=
  match (system.mutexes mutex).waitQ with
  | waiter :: _ =>
      newPrioForInheritance (system.prio waiter.thread) (system.mutexes mutex).ownerOrigPrio
  | [] => (system.mutexes mutex).ownerOrigPrio

theorem Nested.prioAfterTimeout_serves (nested : Nested system held) (mutex : Nat)
    : system.Serves (prioAfterTimeout system mutex) mutex
      ∧ prioAfterTimeout system mutex
        ≤ max (system.mutexes mutex).ownerOrigPrio priorityCeiling := by
  have sorted := (nested.orderly mutex).sorted
  unfold prioAfterTimeout System.Serves
  cases queue : (system.mutexes mutex).waitQ with
  | nil => exact ⟨fun _ member => absurd member List.not_mem_nil, le_max_left _ _⟩
  | cons first rest =>
      obtain ⟨served, limited⟩ := newPrioForInheritance_le (system.prio first.thread)
        (system.mutexes mutex).ownerOrigPrio
      refine ⟨?_, limited⟩
      rw [queue] at sorted
      intro waiter member
      rcases List.mem_cons.mp member with rfl | later
      · exact served
      · have ordered := (List.pairwise_cons.mp sorted).1 waiter later
        exact served.trans (max_le (ordered.trans (le_max_left _ _)) (le_max_right _ _))

/-- The return of the timed-out lock gives the owner a priority that serves the remaining
waiters of this mutex and, like the saved one, those of the mutexes acquired before it.
-/
theorem Nested.lockTimedOut (thread : Nat) (nested : Nested system held)
    (last : LastOfRunning (system, held) mutex)
    : Nested (kMutexLockTimedOut system thread mutex).1 held := by
  have prio : (system.setThread thread
      { system.threads thread with timedOut := none }).prio = system.prio :=
    System.setThread_prio rfl
  have returned : Nested
      (system.setThread thread { system.threads thread with timedOut := none }) held :=
    nested.sameWaits rfl prio (System.setThread_pendedOn rfl)
  cases owns : (system.mutexes mutex).owner with
  | none =>
      simp only [kMutexLockTimedOut, owns]
      exact returned
  | some owner =>
      obtain ⟨head, runs⟩ := last owner owns
      obtain ⟨below, whole⟩ : ∃ below, held owner = mutex :: below :=
        List.head?_eq_some_iff.mp head
      obtain ⟨served, limited⟩ := nested.prioAfterTimeout_serves mutex
      simp only [kMutexLockTimedOut, owns, prio, System.adjustOwnerPrio_eq]
      change Nested (System.zThreadPrioSet _ owner (prioAfterTimeout system mutex)) held
      refine returned.prioSet ?_ ?_
      · rw [System.setThread_pendedOn]
        · exact runs
        · rfl
      intro kept member waiter waits
      rw [prio]
      rw [whole] at member
      rcases List.mem_cons.mp member with rfl | earlier
      · exact served waiter waits
      · have saved := nested.saved owner
        rw [whole] at saved
        have asked := (List.pairwise_cons.mp saved).1 kept earlier waiter waits
        exact limited.trans (max_le asked (le_max_right _ _))

end Zephyr.Kernel.Mutex
