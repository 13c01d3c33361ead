import Mathlib
import Zephyr.Kernel.Condvar.Model
import Zephyr.Kernel.Mutex.Unlocking

/-! The mutex of a condition variable: what its calls keep for threads in every phase of a wait. -/

namespace Zephyr.Kernel.Condvar

open Zephyr.Library Zephyr.Kernel.Mutex

/-- Threads in these phases may own the mutex or wait for it. -/
def Phase.mayHold : Phase → Bool
  | .outside | .locking _ => true
  | .releasing _ | .pended | .woken _ => false

/-- The mutex is locked while it has an owner, its queue holds threads that wait for it, and a
thread whose wait for it is over owns it.
-/
structure Sound (base : Mutex.System) (phase : Nat → Phase) : Prop where
  locked : (base.mutexes 0).lockCount = 0 ↔ (base.mutexes 0).owner = none
  owner : ∀ thread, (base.mutexes 0).owner = some thread → (phase thread).mayHold = true
  queued
    : ∀ waiter ∈ (base.mutexes 0).waitQ,
        (base.threads waiter.thread).pendedOn = some 0
        ∧ (phase waiter.thread).mayHold = true
        ∧ ∀ ret, phase waiter.thread = .locking ret → waiter.timeout = kForever
  once : ((base.mutexes 0).waitQ.map Waiter.thread).Nodup
  handed
    : ∀ thread ret,
        phase thread = .locking ret
        → (base.threads thread).pendedOn = none
        → (base.mutexes 0).owner = some thread

section

variable {base later : Mutex.System} {phase : Nat → Phase} {self : Nat} {new : Phase}

/-- Only a thread that owns the mutex gets another priority. -/
def OthersKeepPrio (base later : Mutex.System) : Prop :=
  ∀ thread, (base.mutexes 0).owner ≠ some thread → later.prio thread = base.prio thread

/-- The owner inherits a priority or does not; nothing else changes. -/
theorem boosted_fields (base : Mutex.System) (owner : Nat) (prio : Int) (more : Prop)
    [Decidable more]
    : (if more then adjustOwnerPrio base owner prio else base).mutexes = base.mutexes
      ∧ (∀ thread,
          ((if more then adjustOwnerPrio base owner prio else base).threads thread).pendedOn
          = (base.threads thread).pendedOn)
      ∧ ∀ thread ≠ owner,
          (if more then adjustOwnerPrio base owner prio else base).prio thread
          = base.prio thread := by
  split
  · rw [Mutex.System.adjustOwnerPrio_eq]
    exact ⟨rfl, fun _ => Mutex.System.zThreadPrioSet_pendedOn _,
      fun _ ne => Mutex.System.zThreadPrioSet_prio_other _ ne⟩
  · exact ⟨rfl, fun _ => rfl, fun _ _ => rfl⟩

theorem lock_cases {timeout : KTimeout} {result : Option Int}
    (locked : kMutexLock base self 0 timeout = some (later, result))
    : (result.isSome ∧ later = base ∧ timeout = kNoWait)
      ∨ (result.isSome
        ∧ ((base.mutexes 0).lockCount = 0 ∨ (base.mutexes 0).owner = some self)
        ∧ later.threads = base.threads
        ∧ (later.mutexes 0).owner = some self
        ∧ (later.mutexes 0).lockCount = (base.mutexes 0).lockCount + 1
        ∧ (later.mutexes 0).waitQ = (base.mutexes 0).waitQ)
      ∨ (result = none
        ∧ (base.mutexes 0).owner ≠ some self
        ∧ (later.mutexes 0).owner = (base.mutexes 0).owner
        ∧ (later.mutexes 0).lockCount = (base.mutexes 0).lockCount
        ∧ (later.mutexes 0).waitQ.Perm (⟨self, timeout⟩ :: (base.mutexes 0).waitQ)
        ∧ (∀ thread,
            (later.threads thread).pendedOn
            = if thread = self then some 0 else (base.threads thread).pendedOn)
        ∧ OthersKeepPrio base later) := by
  unfold kMutexLock at locked
  dsimp only at locked
  split at locked
  · rename_i free
    cases locked
    exact .inr (.inl ⟨rfl, free, rfl, by simp, by simp, by simp⟩)
  · rename_i taken
    split at locked
    · rename_i noWait
      cases locked
      exact .inl ⟨rfl, rfl, noWait⟩
    · split at locked
      · cases locked
      · rename_i owner owns
        cases locked
        obtain ⟨mutexes, pendedOn, prio⟩ :=
          boosted_fields base owner (newPrioForInheritance (base.prio self) (base.prio owner))
            (newPrioForInheritance (base.prio self) (base.prio owner) < base.prio owner)
        generalize (if newPrioForInheritance (base.prio self) (base.prio owner) < base.prio owner
          then adjustOwnerPrio base owner _ else base) = boosted at mutexes pendedOn prio ⊢
        have fields := zPendCurr_fields boosted self 0 timeout 0
        have queue := zPendCurr_waitQ_perm boosted self 0 timeout
        rw [mutexes] at fields queue
        refine .inr (.inr ⟨rfl, fun same => taken (.inr same), fields.1, fields.2.2, queue, ?_, ?_⟩)
        · intro thread
          by_cases isSelf : thread = self
          · rw [isSelf, if_pos rfl]
            simp [Mutex.zPendCurr]
          · rw [if_neg isSelf, ← pendedOn thread]
            simp only [Mutex.zPendCurr]
            rw [Mutex.System.setThread_other _ isSelf, Mutex.System.setMutex_threads]
        · intro thread notOwner
          rw [zPendCurr_prio]
          exact prio thread fun same => notOwner (same ▸ owns)

theorem Sound.absent (sound : Sound base phase) (running : (base.threads self).pendedOn = none)
    : ∀ waiter ∈ (base.mutexes 0).waitQ, waiter.thread ≠ self := by
  intro waiter member same
  have pended := (sound.queued waiter member).1
  rw [same, running] at pended
  cases pended

theorem locking_of_update {thread : Nat} {ret : Int} (notLocking : ∀ ret, new ≠ .locking ret)
    (isLocking : Function.update phase self new thread = .locking ret)
    : thread ≠ self ∧ phase thread = .locking ret := by
  by_cases isSelf : thread = self
  · rw [isSelf, Function.update_self] at isLocking
    exact absurd isLocking (notLocking ret)
  · rw [Function.update_of_ne isSelf] at isLocking
    exact ⟨isSelf, isLocking⟩

/-- A thread that gets the mutex, is refused or waits for it keeps the mutex sound, whatever the
phase that it is in afterwards, as long as that may hold the mutex and is not taken for one that has
waited.
-/
theorem Sound.lock {timeout : KTimeout} {result : Option Int} (sound : Sound base phase)
    (running : (base.threads self).pendedOn = none)
    (room : (base.mutexes 0).owner = some self → (base.mutexes 0).lockCount + 1 ≠ 0)
    (locked : kMutexLock base self 0 timeout = some (later, result))
    (holds : new.mayHold = true)
    (waited
      : ∀ ret, new = .locking ret → result = none ∧ timeout = kForever)
    : Sound later (Function.update phase self new) ∧ OthersKeepPrio base later := by
  have absent := sound.absent running
  have mayHold (thread : Nat) (before : (phase thread).mayHold = true)
      : (Function.update phase self new thread).mayHold = true := by
    by_cases isSelf : thread = self
    · rw [isSelf, Function.update_self]
      exact holds
    · rwa [Function.update_of_ne isSelf]
  rcases lock_cases locked with
    ⟨done, rfl, noWait⟩ | ⟨done, free, threads, owner, count, queue⟩
      | ⟨rfl, other, owner, count, queue, pendedOn, prio⟩
  · have notLocking (ret : Int) : new ≠ .locking ret := by
      intro isLocking
      rw [(waited ret isLocking).1] at done
      cases done
    refine ⟨⟨sound.locked, fun thread owns => mayHold thread (sound.owner thread owns), ?_,
      sound.once, ?_⟩, fun _ _ => rfl⟩
    · intro waiter member
      rw [Function.update_of_ne (absent waiter member)]
      exact sound.queued waiter member
    · intro thread ret isLocking notPended
      obtain ⟨-, before⟩ := locking_of_update notLocking isLocking
      exact sound.handed thread ret before notPended
  · have notLocking (ret : Int) : new ≠ .locking ret := by
      intro isLocking
      rw [(waited ret isLocking).1] at done
      cases done
    have keeps : later.prio = base.prio := by
      funext thread
      rw [Mutex.System.prio, threads]
      rfl
    refine ⟨⟨?_, ?_, ?_, ?_, ?_⟩, fun thread _ => congrFun keeps thread⟩
    · rw [owner, count]
      refine ⟨fun zero => absurd zero ?_, fun none => by cases none⟩
      rcases free with zero | owns
      · rw [zero]
        decide
      · exact room owns
    · intro thread owns
      obtain rfl : self = thread := Option.some.inj (owner.symm.trans owns)
      rw [Function.update_self]
      exact holds
    · rw [queue, threads]
      intro waiter member
      rw [Function.update_of_ne (absent waiter member)]
      exact sound.queued waiter member
    · rw [queue]
      exact sound.once
    · rw [threads]
      intro thread ret isLocking notPended
      obtain ⟨ne, before⟩ := locking_of_update notLocking isLocking
      have owns := sound.handed thread ret before notPended
      rcases free with zero | ownsSelf
      · rw [sound.locked.mp zero] at owns
        cases owns
      · exact absurd (Option.some.inj (owns.symm.trans ownsSelf)) ne
  · refine ⟨⟨?_, ?_, ?_, ?_, ?_⟩, prio⟩
    · rw [owner, count]
      exact sound.locked
    · rw [owner]
      exact fun thread owns => mayHold thread (sound.owner thread owns)
    · intro waiter member
      rw [pendedOn]
      rcases List.mem_cons.mp (queue.mem_iff.mp member) with rfl | early
      · rw [if_pos rfl, Function.update_self]
        exact ⟨rfl, holds, fun ret isLocking => (waited ret isLocking).2⟩
      · rw [if_neg (absent waiter early), Function.update_of_ne (absent waiter early)]
        exact sound.queued waiter early
    · refine ((queue.map Waiter.thread).nodup_iff).mpr (List.nodup_cons.mpr ⟨?_, sound.once⟩)
      intro member
      obtain ⟨waiter, early, same⟩ := List.mem_map.mp member
      exact absent waiter early same
    · intro thread ret isLocking notPended
      rw [pendedOn] at notPended
      by_cases isSelf : thread = self
      · rw [if_pos isSelf] at notPended
        cases notPended
      · rw [if_neg isSelf] at notPended
        rw [Function.update_of_ne isSelf] at isLocking
        rw [owner]
        exact sound.handed thread ret isLocking notPended

/-- An unlock by a thread that is not the owner does nothing. The owner gives up one of its locks,
or the last one: then the mutex is free or goes to the first thread that waits.
-/
theorem unlock_cases (sound : Sound base phase) (running : (base.threads self).pendedOn = none)
    (unlocked : (kMutexUnlock base self 0).1 = later)
    : ((base.mutexes 0).owner ≠ some self ∧ later = base)
      ∨ ((base.mutexes 0).owner = some self
        ∧ OthersKeepPrio base later
        ∧ (((base.mutexes 0).lockCount > 1
            ∧ later
              = base.setMutex 0
                  { base.mutexes 0 with lockCount := (base.mutexes 0).lockCount - 1 })
          ∨ ((later.mutexes 0).owner = none
            ∧ (later.mutexes 0).lockCount = 0
            ∧ (base.mutexes 0).waitQ = []
            ∧ (later.mutexes 0).waitQ = []
            ∧ ∀ thread,
                (later.threads thread).pendedOn
                = (base.threads thread).pendedOn)
          ∨ ∃ first,
              (base.mutexes 0).waitQ = first :: (later.mutexes 0).waitQ
              ∧ (later.mutexes 0).owner = some first.thread
              ∧ (later.mutexes 0).lockCount = (base.mutexes 0).lockCount
              ∧ ∀ thread,
                  (later.threads thread).pendedOn
                  = if thread = first.thread then none
                    else (base.threads thread).pendedOn)) := by
  subst unlocked
  by_cases owns : (base.mutexes 0).owner = some self
  · right
    by_cases more : (base.mutexes 0).lockCount > 1
    · have one : (kMutexUnlock base self 0).1
          = base.setMutex 0
              { base.mutexes 0 with lockCount := (base.mutexes 0).lockCount - 1 } := by
        simp [kMutexUnlock, owns, more]
      refine ⟨owns, ?_, .inl ⟨more, one⟩⟩
      rw [one]
      exact fun _ _ => rfl
    · cases queue : (base.mutexes 0).waitQ with
      | nil =>
          rw [kMutexUnlock_free queue owns more]
          refine ⟨owns, ?_, .inr (.inl ⟨by simp, by simp, rfl, by simp [queue], fun thread => ?_⟩)⟩
          · intro thread notOwner
            refine Mutex.System.zThreadPrioSet_prio_other _ ?_
            rintro rfl
            exact notOwner owns
          · exact Mutex.System.zThreadPrioSet_pendedOn _
      | cons first rest =>
          have ne : first.thread ≠ self := sound.absent running first (by simp [queue])
          rw [kMutexUnlock_pass ne queue owns more]
          refine ⟨owns, ?_, .inr (.inr ⟨first, by simp, by simp, by simp, fun thread => ?_⟩)⟩
          · intro thread notOwner
            have notSelf : thread ≠ self := by
              rintro rfl
              exact notOwner owns
            rw [Mutex.System.zThreadPrioSet_prio_other _ notSelf, Mutex.System.setThread_prio]
            · rfl
            · rfl
          · rw [Mutex.System.zThreadPrioSet_pendedOn]
            by_cases isFirst : thread = first.thread
            · rw [isFirst]
              simp
            · rw [if_neg isFirst, Mutex.System.setThread_other _ isFirst]
              rfl
  · left
    refine ⟨owns, ?_⟩
    unfold kMutexUnlock
    dsimp only
    split
    · rfl
    · rename_i owner isOwner
      have other : owner ≠ self := by
        rintro rfl
        exact owns isOwner
      rw [if_pos other]

/-- An unlock keeps the mutex sound, whatever phase the thread is in afterwards, unless it still
owns the mutex and may not.
-/
theorem Sound.unlock (sound : Sound base phase) (running : (base.threads self).pendedOn = none)
    (notLocking : ∀ ret, new ≠ .locking ret)
    (holds
      : (base.mutexes 0).owner = some self
        → (base.mutexes 0).lockCount > 1
        → new.mayHold = true)
    : Sound (kMutexUnlock base self 0).1 (Function.update phase self new)
      ∧ OthersKeepPrio base (kMutexUnlock base self 0).1 := by
  have absent := sound.absent running
  rcases unlock_cases sound running rfl with ⟨other, same⟩ | ⟨owns, prio, ends⟩
  · rw [same]
    refine ⟨⟨sound.locked, ?_, ?_, sound.once, ?_⟩, fun _ _ => rfl⟩
    · intro thread owns
      rw [Function.update_of_ne (by rintro rfl; exact other owns)]
      exact sound.owner thread owns
    · intro waiter member
      rw [Function.update_of_ne (absent waiter member)]
      exact sound.queued waiter member
    · intro thread ret isLocking notPended
      obtain ⟨-, before⟩ := locking_of_update notLocking isLocking
      exact sound.handed thread ret before notPended
  · refine ⟨?_, prio⟩
    have stillHanded {thread : Nat} {ret : Int}
        (isLocking : Function.update phase self new thread = .locking ret)
        (notPended : (base.threads thread).pendedOn = none) : False := by
      obtain ⟨ne, before⟩ := locking_of_update notLocking isLocking
      have ownsToo := sound.handed thread ret before notPended
      exact ne (Option.some.inj (ownsToo.symm.trans owns))
    rcases ends with ⟨more, one⟩ | ⟨owner, count, -, queue, pendedOn⟩
        | ⟨first, queue, owner, count, pendedOn⟩
    · rw [one]
      refine ⟨?_, ?_, ?_, ?_, ?_⟩
      all_goals simp only [Mutex.System.setMutex_self, Mutex.System.setMutex_threads]
      · rw [owns]
        refine ⟨fun zero => ?_, fun none => by cases none⟩
        have isOne : (base.mutexes 0).lockCount = 1 := by
          rw [← sub_eq_zero]
          exact zero
        rw [isOne] at more
        exact absurd more (by decide)
      · intro thread ownsToo
        obtain rfl : self = thread := Option.some.inj (owns.symm.trans ownsToo)
        rw [Function.update_self]
        exact holds owns more
      · intro waiter member
        rw [Function.update_of_ne (absent waiter member)]
        exact sound.queued waiter member
      · exact sound.once
      · exact fun thread ret isLocking notPended => (stillHanded isLocking notPended).elim
    · refine ⟨?_, ?_, ?_, ?_, ?_⟩
      · simp [owner, count]
      · simp [owner]
      · simp [queue]
      · simp [queue]
      · intro thread ret isLocking notPended
        rw [pendedOn] at notPended
        exact (stillHanded isLocking notPended).elim
    · have once := sound.once
      rw [queue, List.map_cons, List.nodup_cons] at once
      have member : first ∈ (base.mutexes 0).waitQ := by simp [queue]
      refine ⟨?_, ?_, ?_, once.2, ?_⟩
      · rw [owner, count, sound.locked, owns]
        simp
      · intro thread ownsNew
        obtain rfl : first.thread = thread := Option.some.inj (owner.symm.trans ownsNew)
        rw [Function.update_of_ne (absent first member)]
        exact (sound.queued first member).2.1
      · intro waiter behind
        have early : waiter ∈ (base.mutexes 0).waitQ := by simp [queue, behind]
        have ne : waiter.thread ≠ first.thread := by
          intro same
          exact once.1 (same ▸ List.mem_map_of_mem behind)
        rw [pendedOn, if_neg ne, Function.update_of_ne (absent waiter early)]
        exact sound.queued waiter early
      · intro thread ret isLocking notPended
        rw [pendedOn] at notPended
        split at notPended
        · rename_i isFirst
          rw [owner, isFirst]
        · exact (stillHanded isLocking notPended).elim

theorem mem_erase_thread {queue : List Waiter} (once : (queue.map Waiter.thread).Nodup)
    {waiter : Waiter} (member : waiter ∈ queue) {thread : Nat}
    : thread ∈ (queue.erase waiter).map Waiter.thread
      ↔ thread ≠ waiter.thread ∧ thread ∈ queue.map Waiter.thread := by
  constructor
  · intro found
    obtain ⟨other, behind, rfl⟩ := List.mem_map.mp found
    have early := List.mem_of_mem_erase behind
    refine ⟨fun same => ?_, List.mem_map_of_mem early⟩
    rw [List.inj_on_of_nodup_map once early member same] at behind
    exact (List.Nodup.of_map _ once).not_mem_erase behind
  · rintro ⟨ne, found⟩
    obtain ⟨other, early, rfl⟩ := List.mem_map.mp found
    refine List.mem_map_of_mem ((List.mem_erase_of_ne ?_).mpr early)
    rintro rfl
    exact ne rfl

theorem Sound.lockTimeout (sound : Sound base phase) {waiter : Waiter}
    (member : waiter ∈ (base.mutexes 0).waitQ) (timed : waiter.timeout ≠ kForever)
    : Sound (waitTimeout base waiter 0) phase
      ∧ OthersKeepPrio base (waitTimeout base waiter 0) := by
  have shorter : (((base.mutexes 0).waitQ.erase waiter).map Waiter.thread).Nodup :=
    sound.once.sublist ((List.erase_sublist).map _)
  have keeps : (waitTimeout base waiter 0).prio = base.prio := Mutex.System.setThread_prio rfl
  refine ⟨⟨?_, ?_, ?_, ?_, ?_⟩, fun thread _ => congrFun keeps thread⟩
  all_goals simp only [waitTimeout, Mutex.System.setThread_mutexes, Mutex.System.setMutex_self]
  · exact sound.locked
  · exact sound.owner
  · intro other behind
    have early : other ∈ (base.mutexes 0).waitQ := List.mem_of_mem_erase behind
    have ne := ((mem_erase_thread sound.once member).mp (List.mem_map_of_mem behind)).1
    rw [Mutex.System.setThread_other _ ne]
    exact sound.queued other early
  · exact shorter
  · intro thread ret isLocking notPended
    have ne : thread ≠ waiter.thread := by
      rintro rfl
      exact timed ((sound.queued waiter member).2.2 ret isLocking)
    rw [Mutex.System.setThread_other _ ne] at notPended
    exact sound.handed thread ret isLocking notPended

theorem lockTimedOut_fields (base : Mutex.System) (self : Nat)
    : (kMutexLockTimedOut base self 0).1.mutexes = base.mutexes
      ∧ (∀ thread,
          ((kMutexLockTimedOut base self 0).1.threads thread).pendedOn
          = (base.threads thread).pendedOn)
      ∧ OthersKeepPrio base (kMutexLockTimedOut base self 0).1 := by
  unfold kMutexLockTimedOut
  dsimp only
  have pendedOn (thread : Nat)
      : ((base.setThread self { base.threads self with timedOut := none }).threads thread).pendedOn
        = (base.threads thread).pendedOn :=
    Mutex.System.setThread_pendedOn rfl
  split
  · refine ⟨rfl, pendedOn, fun thread _ => ?_⟩
    rw [Mutex.System.setThread_prio]
    rfl
  · rename_i owner owns
    rw [Mutex.System.adjustOwnerPrio_eq]
    refine ⟨rfl, fun thread => ?_, fun thread notOwner => ?_⟩
    · rw [Mutex.System.zThreadPrioSet_pendedOn]
      exact pendedOn thread
    · have ne : thread ≠ owner := by
        rintro rfl
        exact notOwner owns
      rw [Mutex.System.zThreadPrioSet_prio_other _ ne, Mutex.System.setThread_prio]
      rfl

theorem Sound.congr (sound : Sound base phase) (mutexes : later.mutexes = base.mutexes)
    (pendedOn : ∀ thread, (later.threads thread).pendedOn = (base.threads thread).pendedOn)
    : Sound later phase := by
  refine ⟨?_, ?_, ?_, ?_, ?_⟩
  all_goals simp only [mutexes, pendedOn]
  · exact sound.locked
  · exact sound.owner
  · exact sound.queued
  · exact sound.once
  · exact sound.handed

end

end Zephyr.Kernel.Condvar
