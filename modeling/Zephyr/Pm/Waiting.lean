import Zephyr.Pm.Model

/-! A device that a thread has got is active until the thread puts it, exactly if no thread gets a
suspended device while another is still waiting for its suspend.
-/

namespace Zephyr.Pm

open Zephyr.Library

variable {Thread : Type}

section Preservation

variable {users : Users Thread} {thread : Thread}

theorem Users.Sound.none_held (sound : users.Sound) (inactive : users.dev.state ≠ .active)
    : users.holders = [] := by
  by_contra held
  exact inactive (sound.active held)

theorem Users.Sound.usage_inactive (sound : users.Sound) (inactive : users.dev.state ≠ .active)
    : users.dev.usage = users.waiters.length := by
  rw [sound.usage, sound.none_held inactive, List.length_nil, Nat.zero_add]

theorem Users.Sound.idle (sound : users.Sound) (other : users.dev.state ≠ .suspending)
    : ¬ (users.dev.work.pending = true ∨ users.handler = some .suspending) :=
  fun busy => other (sound.suspending busy)

theorem getAgain_cases (dev : PmDevice) (alone : dev.state = .suspended → dev.usage ≤ 1)
    (on : dev.state ≠ .off)
    : (dev.state = .suspending ∧ getAgain 0 dev = (none, { dev with event := false }))
      ∨ dev.state ≠ .suspending
        ∧ getAgain 0 dev = (some 0, { dev with state := .active }) := by
  unfold getAgain getResume
  cases isState : dev.state with
  | suspending => exact .inl ⟨rfl, by simp⟩
  | suspended =>
      have one := alone isState
      exact .inr ⟨by simp, by simp [Nat.not_lt.mpr one]⟩
  | off => exact absurd isState on
  | active =>
      have same : { dev with state := .active } = dev := by
        rw [← isState]
      refine .inr ⟨by simp, ?_⟩
      simp only [same, reduceCtorEq, if_false]
      split <;> simp

theorem getClaimed_cases (dev : PmDevice) (room : dev.usage + 1 < 2 ^ 32)
    (canceling : dev.work.canceling = true → dev.work.running = true)
    (alone : dev.state = .suspended → dev.usage = 0) (on : dev.state ≠ .off)
    : (dev.state = .suspending
        ∧ dev.work.running = true
        ∧ getClaimed 0 dev
          = (none,
              { dev with
                usage := dev.usage + 1
                work := dev.work.cancelDelayable.2
                event := false }))
      ∨ ∃ work,
          (dev.state = .suspending ∧ dev.work.running = false ∧ work = {}
            ∨ dev.state ≠ .suspending ∧ work = dev.work)
          ∧ getClaimed 0 dev
            = (some 0, { dev with usage := dev.usage + 1, work := work, state := .active }) := by
  unfold getClaimed
  simp only [Nat.mod_eq_of_lt room]
  split
  · rename_i isSuspending
    cases isRunning : dev.work.running with
    | false =>
        rw [Work.cancelDelayable_idle isRunning canceling]
        exact .inr ⟨{}, .inl ⟨isSuspending, rfl, rfl⟩, rfl⟩
    | true =>
        rw [(Work.cancelDelayable_running isRunning).1]
        refine .inl ⟨isSuspending, rfl, ?_⟩
        simp [getAgain, isSuspending]
  · rename_i other
    refine .inr ⟨dev.work, .inr ⟨other, rfl⟩, ?_⟩
    have again := getAgain_cases { dev with usage := dev.usage + 1 }
      (fun isSuspended => by simp [alone isSuspended]) on
    exact (again.resolve_left (fun waits => other waits.1)).2

theorem Users.Sound.get (sound : users.Sound) (room : users.dev.usage + 1 < 2 ^ 32)
    (alone : users.dev.state = .suspended → users.waiters = [])
    : (users.got thread (getClaimed 0 users.dev)).Sound := by
  have unused : users.dev.state = .suspended → users.dev.usage = 0 := by
    intro isSuspended
    rw [sound.usage_inactive (by simp [isSuspended]), alone isSuspended, List.length_nil]
  have usage := sound.usage
  rcases getClaimed_cases users.dev room sound.canceling unused sound.on with
    ⟨isSuspending, isRunning, waits⟩ | ⟨work, before, gets⟩
  · rw [waits]
    have held := sound.none_held (by simp [isSuspending])
    have running := (Work.cancelDelayable_running isRunning).2
    refine ⟨?_, room, ?_, sound.on, ?_, fun _ => running, fun _ => isSuspending, ?_⟩
    · simp only [Users.got, List.length_cons]
      omega
    · exact fun other => absurd held other
    · exact (running.trans isRunning.symm).trans sound.running
    · intro isPending
      have before := Work.cancelDelayable_pending isPending
      exact absurd before.2 (by simp [(sound.pending before.1).1])
  · rw [gets]
    have finished
        : ¬ (work.pending = true ∨ users.handler = some .suspending) := by
      rcases before with ⟨_, isIdle, rfl⟩ | ⟨other, rfl⟩
      · rintro (isPending | isHandler)
        · cases isPending
        · have running := sound.running
          rw [isIdle, isHandler] at running
          cases running
      · exact sound.idle other
    refine ⟨?_, room, fun _ => rfl, nofun, ?_, ?_, fun busy => absurd busy finished,
      fun isPending => absurd (.inl isPending) finished⟩
    · simp only [Users.got, List.length_cons]
      omega
    · rcases before with ⟨_, isIdle, rfl⟩ | ⟨_, rfl⟩
      · exact isIdle.symm.trans sound.running
      · exact sound.running
    · rcases before with ⟨_, _, rfl⟩ | ⟨_, rfl⟩
      · exact nofun
      · exact sound.canceling

variable [DecidableEq Thread]

theorem Users.Sound.again (sound : users.Sound) (waits : (thread, Phase.woken) ∈ users.waiters)
    (alone : users.dev.state = .suspended → users.waiters = [(thread, .woken)])
    : (Users.got { users with waiters := users.waiters.erase (thread, .woken) } thread
        (getAgain 0 users.dev)).Sound := by
  have fewer := List.length_erase_of_mem waits
  have some := List.length_pos_of_mem waits
  have usage := sound.usage
  have one : users.dev.state = .suspended → users.dev.usage ≤ 1 := by
    intro isSuspended
    rw [sound.usage_inactive (by simp [isSuspended]), alone isSuspended]
    exact Nat.le_refl 1
  rcases getAgain_cases users.dev one sound.on with ⟨isSuspending, waits⟩ | ⟨other, gets⟩
  · rw [waits]
    refine ⟨?_, sound.range, sound.active, sound.on, sound.running, sound.canceling,
      sound.suspending, sound.pending⟩
    simp only [Users.got, List.length_cons]
    omega
  · rw [gets]
    have idle := sound.idle other
    refine ⟨?_, sound.range, fun _ => rfl, nofun, sound.running, sound.canceling,
      fun busy => absurd busy idle, fun isPending => absurd (.inl isPending) idle⟩
    simp only [Users.got, List.length_cons]
    omega

theorem Users.Sound.put (sound : users.Sound) (held : thread ∈ users.holders) {suspend : Suspend}
    (succeeds : ∀ result, suspend = .now result → result = 0)
    : (users.put thread (suspendLocked suspend users.dev)).Sound := by
  have fewer := List.length_erase_of_mem held
  have some := List.length_pos_of_mem held
  have usage := sound.usage
  have range := sound.range
  have isActive : users.dev.state = .active := sound.active (List.ne_nil_of_mem held)
  have idle := sound.idle (by simp [isActive])
  unfold suspendLocked
  rw [if_neg (by omega)]
  dsimp only
  split
  · refine ⟨?_, ?_, fun _ => isActive, sound.on, sound.running, sound.canceling, sound.suspending,
      sound.pending⟩
    · simp only [Users.put]
      omega
    · simp only [Users.put]
      omega
  · -- the last user
    have none : users.holders.erase thread = [] := List.eq_nil_of_length_eq_zero (by omega)
    have last : users.dev.usage - 1 = (users.holders.erase thread).length + users.waiters.length := by
      omega
    cases suspend with
    | later noWait =>
        refine ⟨last, ?_, fun other => absurd none other, nofun, ?_, ?_, fun _ => rfl, ?_⟩
        · simp only [Users.put]
          omega
        · exact Work.schedule_running.trans sound.running
        · change (users.dev.work.schedule noWait).canceling = true
            → (users.dev.work.schedule noWait).running = true
          rw [Work.schedule_running, Work.schedule_canceling]
          exact sound.canceling
        · intro isPending
          have fresh := Work.schedule_pending (fun before => idle (.inl before)) isPending
          exact ⟨fresh.1, fun isHandler => idle (.inr isHandler), fresh.2⟩
    | now result =>
        rw [succeeds result rfl]
        refine ⟨last, ?_, fun other => absurd none other, nofun, sound.running, sound.canceling,
          fun busy => absurd busy idle, fun isPending => absurd (.inl isPending) idle⟩
        simp only [ne_eq, not_true, if_false, Users.put]
        omega

theorem Users.Sound.wait (sound : users.Sound) (waits : (thread, Phase.unlocked) ∈ users.waiters)
    (phase : Phase)
    : Users.Sound
        { users with
          waiters := (thread, phase) :: users.waiters.erase (thread, .unlocked) } where
  usage := by
    have fewer := List.length_erase_of_mem waits
    have some := List.length_pos_of_mem waits
    have usage := sound.usage
    simp only [List.length_cons]
    omega
  range := sound.range
  active := sound.active
  on := sound.on
  running := sound.running
  canceling := sound.canceling
  suspending := sound.suspending
  pending := sound.pending

omit [DecidableEq Thread]

theorem Users.Sound.expire (sound : users.Sound) (delayed : users.dev.work.delayed = true)
    : Users.Sound { users with dev := { users.dev with work := users.dev.work.expire } } := by
  have isPending : users.dev.work.pending = true := by
    simp [Work.pending, delayed]
  have isSuspending := sound.suspending (.inl isPending)
  obtain ⟨notCanceling, other, -⟩ := sound.pending isPending
  have expired : users.dev.work.expire = { users.dev.work with delayed := false, queued := true } :=
    if_neg (by simp [notCanceling])
  rw [expired]
  exact ⟨sound.usage, sound.range, sound.active, sound.on, sound.running, sound.canceling,
    fun _ => isSuspending, fun _ => ⟨notCanceling, other, by simp⟩⟩

theorem Users.Sound.startWork (sound : users.Sound) (queued : users.dev.work.queued = true)
    : Users.Sound
        { users with
          handler := some .suspending
          dev := { users.dev with work := users.dev.work.start } } := by
  have isPending : users.dev.work.pending = true := by
    simp [Work.pending, queued]
  have isSuspending := sound.suspending (.inl isPending)
  have notDelayed : users.dev.work.delayed = false := by
    simpa [queued] using (sound.pending isPending).2.2
  refine ⟨sound.usage, sound.range, sound.active, sound.on, rfl, fun _ => rfl,
    fun _ => isSuspending, ?_⟩
  simp [Work.pending, Work.start, notDelayed]

theorem Users.Sound.lockWork (sound : users.Sound) (isHandler : users.handler = some .suspending)
    : Users.Sound
        { users with
          handler := some .finishing
          dev := workLocked 0 users.dev
          waiters := wakeAll users.waiters } := by
  have inactive : users.dev.state ≠ .active := by
    simp [sound.suspending (.inr isHandler)]
  have notPending : ¬ users.dev.work.pending = true :=
    fun isPending => (sound.pending isPending).2.1 isHandler
  refine ⟨?_, sound.range, fun other => absurd (sound.none_held inactive) other, nofun, ?_,
    sound.canceling, ?_, fun isPending => absurd isPending notPending⟩
  · rw [wakeAll, List.length_map]
    exact sound.usage
  · have running := sound.running
    rw [isHandler] at running
    exact running
  · rintro (isPending | isHandler)
    · exact absurd isPending notPending
    · cases isHandler

theorem Users.Sound.finishWork (sound : users.Sound)
    : Users.Sound
        { users with
          handler := none
          dev := { users.dev with work := users.dev.work.finish } } where
  usage := sound.usage
  range := sound.range
  active := sound.active
  on := sound.on
  running := rfl
  canceling := nofun
  suspending := by
    rintro (isPending | isHandler)
    · exact sound.suspending (.inl isPending)
    · cases isHandler
  pending := fun isPending => ⟨rfl, nofun, (sound.pending isPending).2.2⟩

end Preservation

/-! ### Runs -/

theorem Users.Sound.initial : ({} : Users Thread).Sound where
  usage := rfl
  range := Nat.pow_pos (by decide)
  active := fun held => absurd rfl held
  on := nofun
  running := rfl
  canceling := nofun
  suspending := by
    rintro (isPending | isHandler)
    · cases isPending
    · cases isHandler
  pending := nofun

section Runs

variable [DecidableEq Thread] {users next : Users Thread} {call : UserCall Thread}

theorem Users.Sound.step (sound : users.Sound) (matched : Matched users call)
    (alone : Alone users call) (stepped : userStep users call = some next)
    : next.Sound := by
  cases call with
  | get thread =>
      obtain ⟨-, ⟨⟩⟩ := Option.ite_none_left_eq_some.mp stepped
      exact sound.get matched alone
  | wait thread =>
      obtain ⟨waits, ⟨⟩⟩ := Option.ite_none_right_eq_some.mp stepped
      exact sound.wait waits _
  | again thread =>
      obtain ⟨waits, ⟨⟩⟩ := Option.ite_none_right_eq_some.mp stepped
      exact sound.again waits alone
  | put thread =>
      obtain ⟨-, ⟨⟩⟩ := Option.ite_none_left_eq_some.mp stepped
      exact sound.put matched (fun _ isNow => (Suspend.now.inj isNow).symm)
  | putAsync thread noWait =>
      obtain ⟨-, ⟨⟩⟩ := Option.ite_none_left_eq_some.mp stepped
      exact sound.put matched nofun
  | expire =>
      obtain ⟨delayed, ⟨⟩⟩ := Option.ite_none_right_eq_some.mp stepped
      exact sound.expire delayed
  | startWork =>
      obtain ⟨⟨queued, -⟩, ⟨⟩⟩ := Option.ite_none_right_eq_some.mp stepped
      exact sound.startWork queued
  | lockWork =>
      obtain ⟨isHandler, ⟨⟩⟩ := Option.ite_none_right_eq_some.mp stepped
      exact sound.lockWork isHandler
  | finishWork =>
      obtain ⟨-, ⟨⟩⟩ := Option.ite_none_right_eq_some.mp stepped
      exact sound.finishWork

theorem getAgain_crowded {dev : PmDevice} (isSuspended : dev.state = .suspended)
    (crowded : 1 < dev.usage)
    : getAgain 0 dev = (some 0, dev) := by
  simp [getAgain, getResume, isSuspended, crowded]

theorem Users.Sound.needs_alone (sound : users.Sound) (matched : Matched users call)
    (stepped : userStep users call = some next) (active : next.Active)
    : Alone users call := by
  cases call with
  | get thread =>
      obtain ⟨-, ⟨⟩⟩ := Option.ite_none_left_eq_some.mp stepped
      intro isSuspended
      by_contra others
      have usage := sound.usage_inactive (by simp [isSuspended])
      have some : 0 < users.waiters.length := List.length_pos_iff.mpr others
      have claimed : getClaimed 0 users.dev
          = (.some 0, { users.dev with usage := users.dev.usage + 1 }) := by
        unfold getClaimed
        simp only [Nat.mod_eq_of_lt matched, isSuspended, reduceCtorEq, if_false]
        exact getAgain_crowded rfl (by simp only; omega)
      rw [claimed] at active
      exact absurd ((active nofun).symm.trans isSuspended) nofun
  | again thread =>
      obtain ⟨waits, ⟨⟩⟩ := Option.ite_none_right_eq_some.mp stepped
      intro isSuspended
      have usage := sound.usage_inactive (by simp [isSuspended])
      have some := List.length_pos_of_mem waits
      by_cases crowded : 1 < users.dev.usage
      · rw [getAgain_crowded isSuspended crowded] at active
        exact absurd ((active nofun).symm.trans isSuspended) nofun
      · obtain ⟨waiter, only⟩ := List.length_eq_one_iff.mp (show users.waiters.length = 1 by omega)
        rw [only] at waits ⊢
        rw [List.mem_singleton.mp waits]
  | _ => trivial

/-- The device is active whenever a thread has it, after every call of a run, if and only if each
get that finds it suspended is alone.
-/
theorem active_while_held_iff {calls : List (UserCall Thread)} {final : Users Thread}
    (ran : run userStep {} calls = some final) (matched : RunMeets userStep Matched {} calls)
    : (∀ front state, front <+: calls → run userStep {} front = some state → state.Active)
      ↔ RunMeets userStep Alone {} calls := by
  refine ⟨?_, ?_⟩
  · intro always
    refine runMeets_of_good_given Users.Sound Users.Active ?_ ?_ .initial matched ran always
    · exact fun sound matched alone stepped => sound.step matched alone stepped
    · exact fun sound matched stepped active => sound.needs_alone matched stepped active
  · intro alone front state early reached
    have sound : state.Sound := by
      refine run_invariant_of_meets Users.Sound ?_ .initial
        ((matched.and alone).of_initial early) reached
      exact fun sound meets stepped => sound.step meets.1 meets.2 stepped
    exact sound.active

end Runs

/-- Thread 1 gets the device while it is being suspended for thread 0, and puts it. -/
def aloneCalls : List (UserCall Nat) :=
  [.get 0, .putAsync 0 false, .expire, .startWork, .get 1, .lockWork, .wait 1, .again 1, .get 2,
    .finishWork, .put 1]

theorem aloneCalls_active
    : (run userStep {} aloneCalls).isSome = true
      ∧ ∀ front state,
          front <+: aloneCalls → run userStep {} front = some state → state.Active := by
  have completes : (run userStep {} aloneCalls).isSome = true := by decide
  obtain ⟨final, ran⟩ := Option.isSome_iff_exists.mp completes
  exact ⟨completes, (active_while_held_iff ran (by decide)).mpr (by decide)⟩

/-- Thread 0 puts the device, and threads 1 and 2 get it while it is being suspended. -/
def crowdedCalls : List (UserCall Nat) :=
  [.get 0, .putAsync 0 true, .startWork, .get 1, .get 2, .lockWork, .wait 1, .again 1, .wait 2,
    .again 2]

/-- Both have it, suspended. -/
theorem held_suspended
    : RunMeets userStep Matched {} crowdedCalls
      ∧ (run userStep {} crowdedCalls).map (fun users => (users.holders, users.dev.state))
        = some ([2, 1], .suspended) := by
  decide

end Zephyr.Pm
