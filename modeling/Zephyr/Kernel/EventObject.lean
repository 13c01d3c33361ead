import Zephyr.Kernel.Waiting
import Zephyr.Library.Run
import Mathlib.Data.List.Perm.Basic

/-! The event object of `events.c`.
A post holds the event's lock while it wakes one thread after the other. Timeouts need only the
scheduler's lock, so they may expire, and their handlers may run, in the middle of a post.
-/

namespace Zephyr.Kernel.EventObject

open Zephyr.Library Zephyr.Kernel.Waiting

def kEventWaitAny : UInt32 := 0x00

def kEventWaitAll : UInt32 := 0x01

def kEventWaitMask : UInt32 := 0x01

def kEventWaitReset : UInt32 := 0x02

/-- What a waiting thread has in its `events` and `event_options`. -/
structure Request where
  events : UInt32
  options : UInt32
  deriving DecidableEq, Repr

def areWaitConditionsMet (desired current waitCondition : UInt32) : Bool :=
  let found := current &&& desired
  if waitCondition = kEventWaitAll then found = desired else found ≠ 0

/-- Fields of the threads: whether `base.timeout` is linked, and `no_wake_on_timeout`. -/
structure Threads where
  armed : Nat → Bool
  noWakeOnTimeout : Nat → Bool

/-- `struct event_walk_data` with the list that `head` begins. -/
structure EventWalkData where
  head : List (Waiter Request)
  events : UInt32

/-- The condition that `event_walk_op` checks. -/
def Request.Met (request : Request) (events : UInt32) : Bool :=
  areWaitConditionsMet request.events events (request.options &&& kEventWaitMask)

def eventWalkOp (walk : Threads × EventWalkData) (thread : Waiter Request)
    : Threads × EventWalkData :=
  let (threads, data) := walk
  if thread.request.Met data.events then
    ({ armed := Function.update threads.armed thread.thread false
       noWakeOnTimeout := Function.update threads.noWakeOnTimeout thread.thread true },
      { data with head := thread :: data.head })
  else walk

/-- How a call of `k_event_wait_internal` ended; a post that woke it found `stored`. -/
inductive Outcome where
  | atOnce
  | woken (stored : UInt32)
  | timedOut
  deriving DecidableEq, Repr

structure Return where
  thread : Nat
  request : Request
  outcome : Outcome
  value : UInt32
  deriving DecidableEq, Repr

/-- `struct k_event` with the threads. While `posting` is given, a post has the lock and has the
threads left to wake that are in its list; `previous` are the values that posts gave back.
-/
structure System where
  events : UInt32
  waitQ : WaitQ Request
  threads : Threads
  posting : Option (EventWalkData × UInt32)
  returns : List Return
  previous : List UInt32

def System.kEventInit (prio : Nat → Int) (threads : Threads) : System where
  events := 0
  waitQ := .init prio
  threads := { threads with noWakeOnTimeout := fun _ => false }
  posting := none
  returns := []
  previous := []

/-- `k_event_post_internal` up to the end of the walk. -/
def kEventPostInternal (system : System) (events eventsMask : UInt32) : System :=
  let previousEvents := system.events &&& eventsMask
  let events := (system.events &&& ~~~eventsMask) ||| (events &&& eventsMask)
  let (threads, data) := system.waitQ.waiters.foldl eventWalkOp (system.threads, ⟨[], events⟩)
  { system with events := events, threads := threads, posting := some (data, previousEvents) }

def kEventPost (system : System) (events : UInt32) : System :=
  kEventPostInternal system events events

def kEventSet (system : System) (events : UInt32) : System :=
  kEventPostInternal system events 0xFFFFFFFF

def kEventSetMasked (system : System) (events eventsMask : UInt32) : System :=
  kEventPostInternal system events eventsMask

def kEventClear (system : System) (events : UInt32) : System :=
  kEventPostInternal system 0 events

/-- `z_sched_wake_thread` for a thread that is not being killed. -/
def zSchedWakeThread (system : System) (thread : Nat) (isTimeout : Bool) : System :=
  let doNothing := system.threads.noWakeOnTimeout thread && isTimeout
  let system :=
    { system with
      threads :=
        { system.threads with
          noWakeOnTimeout := Function.update system.threads.noWakeOnTimeout thread false } }
  if doNothing then system
  else
    { system with
      waitQ :=
        { system.waitQ with
          waiters := system.waitQ.waiters.eraseP fun waiter => waiter.thread = thread } }

/-- The loop of `k_event_post_internal` wakes one thread; with none left it unlocks. -/
def postNext (system : System) : Option System :=
  match system.posting with
  | none => none
  | some ({ head := [], .. }, previousEvents) =>
      some { system with posting := none, previous := system.previous ++ [previousEvents] }
  | some ({ head := thread :: next, events }, previousEvents) =>
      let woken := zSchedWakeThread system thread.thread false
      some
        { woken with
          posting := some ({ head := next, events := events }, previousEvents)
          returns :=
            system.returns
            ++ [⟨thread.thread, thread.request, .woken system.events,
                events &&& thread.request.events⟩] }

/-- The part of `k_event_wait_internal` that tests the condition, and waits. -/
def testOrPend (system : System) (thread : Nat) (request : Request) (timeout : KTimeout)
    : System :=
  if areWaitConditionsMet request.events system.events (request.options &&& kEventWaitMask) then
    { system with
      returns :=
        system.returns ++ [⟨thread, request, .atOnce, system.events &&& request.events⟩] }
  else if timeout = kNoWait then
    { system with returns := system.returns ++ [⟨thread, request, .atOnce, 0⟩] }
  else
    { system with
      waitQ := system.waitQ.zPendCurr ⟨thread, timeout, request⟩
      threads :=
        { system.threads with
          armed :=
            if timeout = kForever then system.threads.armed
            else Function.update system.threads.armed thread true } }

def kEventWaitInternal (system : System) (thread : Nat) (events options : UInt32)
    (timeout : KTimeout)
    : System :=
  if events = 0 then
    { system with returns := system.returns ++ [⟨thread, ⟨events, options⟩, .atOnce, 0⟩] }
  else if options &&& kEventWaitReset ≠ 0 then
    testOrPend { system with events := 0 } thread ⟨events, options⟩ timeout
  else testOrPend system thread ⟨events, options⟩ timeout

def kEventWait (system : System) (thread : Nat) (events : UInt32) (reset : Bool)
    (timeout : KTimeout)
    : System :=
  kEventWaitInternal system thread events (if reset then kEventWaitReset else 0) timeout

def kEventWaitAllOf (system : System) (thread : Nat) (events : UInt32) (reset : Bool)
    (timeout : KTimeout)
    : System :=
  kEventWaitInternal system thread events
    (if reset then kEventWaitReset ||| kEventWaitAll else kEventWaitAll) timeout

/-- `z_thread_timeout` for the thread whose timeout has been taken off the list. -/
def zThreadTimeout (system : System) (thread : Nat) : System :=
  let woken := zSchedWakeThread system thread true
  let ended :=
    system.waitQ.waiters.filter fun waiter =>
      waiter.thread = thread && !system.threads.noWakeOnTimeout thread
  { woken with
    waitQ := { woken.waitQ with firing := none }
    returns :=
      system.returns ++ ended.map fun waiter => ⟨waiter.thread, waiter.request, .timedOut, 0⟩ }

/-! ### Interleavings -/

inductive Call where
  | post (events : UInt32)
  | set (events : UInt32)
  | setMasked (events eventsMask : UInt32)
  | clear (events : UInt32)
  | postNext
  | wait (thread : Nat) (events : UInt32) (reset : Bool) (timeout : KTimeout)
  | waitAll (thread : Nat) (events : UInt32) (reset : Bool) (timeout : KTimeout)
  | expire (thread : Nat)
  | threadTimeout
  | prioSet (thread : Nat) (prio : Int)
  deriving DecidableEq, Repr

/-- A pended thread makes no calls; an interrupt makes calls that do not wait. -/
def System.MayWait (system : System) (thread : Nat) (timeout : KTimeout) : Prop :=
  system.posting.isNone
  ∧ (timeout = kNoWait ∨ ∀ waiter ∈ system.waitQ.waiters, waiter.thread ≠ thread)

instance (system : System) (thread : Nat) (timeout : KTimeout)
    : Decidable (system.MayWait thread timeout) :=
  inferInstanceAs (Decidable (_ ∧ _))

def step (system : System) (call : Call) : Option System :=
  match call with
  | .post events => if system.posting.isNone then some (kEventPost system events) else none
  | .set events => if system.posting.isNone then some (kEventSet system events) else none
  | .setMasked events eventsMask =>
      if system.posting.isNone then some (kEventSetMasked system events eventsMask) else none
  | .clear events => if system.posting.isNone then some (kEventClear system events) else none
  | .postNext => postNext system
  | .wait thread events reset timeout =>
      if system.MayWait thread timeout then some (kEventWait system thread events reset timeout)
      else none
  | .waitAll thread events reset timeout =>
      if system.MayWait thread timeout then
        some (kEventWaitAllOf system thread events reset timeout)
      else none
  | .expire thread =>
      if system.waitQ.firing = none ∧ system.threads.armed thread then
        some
          { system with
            waitQ := { system.waitQ with firing := some thread }
            threads :=
              { system.threads with armed := Function.update system.threads.armed thread false } }
      else none
  | .threadTimeout => system.waitQ.firing.map (zThreadTimeout system)
  | .prioSet thread prio =>
      some
        { system with
          waitQ := { system.waitQ with prio := Function.update system.waitQ.prio thread prio } }

/-- The threads that the current post has not woken yet. -/
def System.pending (system : System) : List (Waiter Request) :=
  match system.posting with
  | none => []
  | some (data, _) => data.head

/-- What a call may return: the stored events that it asked for if a post woke it, and nothing
after a timeout.
-/
def Return.Right (call : Return) : Prop :=
  match call.outcome with
  | .atOnce => True
  | .woken stored =>
      call.value = stored &&& call.request.events
      ∧ (call.request.options &&& kEventWaitMask = kEventWaitAll
          → call.value = call.request.events)
      ∧ (call.request.options &&& kEventWaitMask ≠ kEventWaitAll → call.value ≠ 0)
  | .timedOut => call.value = 0

structure Settled (system : System) : Prop where
  distinct : (system.waitQ.waiters.map Waiter.thread).Nodup
  asked : ∀ waiter ∈ system.waitQ.waiters, waiter.request.events ≠ 0
  collected
    : ∀ waiter ∈ system.waitQ.waiters,
        waiter.request.Met system.events = true ↔ waiter ∈ system.pending
  pended : ∀ waiter ∈ system.pending, waiter ∈ system.waitQ.waiters
  once : system.pending.Nodup
  stored : ∀ post ∈ system.posting, post.1.events = system.events
  silenced
    : ∀ waiter ∈ system.pending,
        system.threads.armed waiter.thread = false
        ∧ (system.waitQ.firing = some waiter.thread
            → system.threads.noWakeOnTimeout waiter.thread = true)
  flagged
    : ∀ thread,
        system.threads.noWakeOnTimeout thread = true
        → ∃ waiter ∈ system.pending, waiter.thread = thread
  right : ∀ call ∈ system.returns, call.Right

theorem Request.met_zero {request : Request} (asked : request.events ≠ 0)
    : request.Met 0 = false := by
  unfold Request.Met areWaitConditionsMet
  rw [UInt32.zero_and]
  split
  · simpa using Ne.symm asked
  · simp

theorem Request.met_value {request : Request} {events : UInt32} (met : request.Met events = true)
    : (request.options &&& kEventWaitMask = kEventWaitAll
        → events &&& request.events = request.events)
      ∧ (request.options &&& kEventWaitMask ≠ kEventWaitAll → events &&& request.events ≠ 0) := by
  unfold Request.Met areWaitConditionsMet at met
  constructor
  · intro all
    simpa [all] using met
  · intro any
    simpa [any] using met

theorem Settled.eq_of_thread {system : System} (settled : Settled system)
    {left right : Waiter Request} (inLeft : left ∈ system.waitQ.waiters)
    (inRight : right ∈ system.waitQ.waiters) (same : left.thread = right.thread)
    : left = right :=
  List.inj_on_of_nodup_map settled.distinct inLeft inRight same

theorem mem_eraseP_thread {waiters : List (Waiter Request)}
    (distinct : (waiters.map Waiter.thread).Nodup) {thread : Nat} {waiter : Waiter Request}
    : waiter ∈ waiters.eraseP (fun waiter => waiter.thread = thread)
      ↔ waiter ∈ waiters ∧ waiter.thread ≠ thread := by
  induction waiters with
  | nil => simp
  | cons first rest ih =>
      obtain ⟨notLater, restDistinct⟩ := List.nodup_cons.mp distinct
      by_cases isFirst : first.thread = thread
      · rw [List.eraseP_cons_of_pos (by simpa using isFirst), List.mem_cons]
        constructor
        · intro later
          refine ⟨.inr later, fun same => notLater ?_⟩
          rw [isFirst, ← same]
          exact List.mem_map.mpr ⟨waiter, later, rfl⟩
        · rintro ⟨rfl | later, different⟩
          · exact absurd isFirst different
          · exact later
      · rw [List.eraseP_cons_of_neg (by simpa using isFirst), List.mem_cons, List.mem_cons,
          ih restDistinct]
        constructor
        · rintro (rfl | ⟨later, different⟩)
          · exact ⟨.inl rfl, isFirst⟩
          · exact ⟨.inr later, different⟩
        · rintro ⟨rfl | later, different⟩
          · exact .inl rfl
          · exact .inr ⟨later, different⟩

/-! ### Posts -/

theorem foldl_eventWalkOp (waiters : List (Waiter Request)) (threads : Threads)
    (data : EventWalkData)
    : let found := waiters.filter fun waiter => waiter.request.Met data.events
      let walked := waiters.foldl eventWalkOp (threads, data)
      walked.2 = ⟨found.reverse ++ data.head, data.events⟩
      ∧ ∀ thread,
          (walked.1.armed thread = true
            ↔ threads.armed thread = true ∧ ∀ waiter ∈ found, waiter.thread ≠ thread)
          ∧ (walked.1.noWakeOnTimeout thread = true
            ↔ threads.noWakeOnTimeout thread = true ∨ ∃ waiter ∈ found, waiter.thread = thread) := by
  induction waiters generalizing threads data with
  | nil => simp
  | cons first rest ih =>
      simp only [List.foldl_cons]
      by_cases met : first.request.Met data.events = true
      · simp only [eventWalkOp, met, if_true, List.filter_cons_of_pos]
        obtain ⟨isData, fields⟩ := ih
          { armed := Function.update threads.armed first.thread false
            noWakeOnTimeout := Function.update threads.noWakeOnTimeout first.thread true }
          { data with head := first :: data.head }
        refine ⟨?_, fun thread => ?_⟩
        · rw [isData]
          simp
        · obtain ⟨armed, flag⟩ := fields thread
          refine ⟨armed.trans ?_, flag.trans ?_⟩
          · by_cases isFirst : first.thread = thread
            · simp [isFirst, Function.update]
            · simp [isFirst, Ne.symm isFirst, Function.update]
          · by_cases isFirst : first.thread = thread
            · simp [isFirst, Function.update]
            · simp [isFirst, Ne.symm isFirst, Function.update]
      · have stays : eventWalkOp (threads, data) first = (threads, data) := by
          simp [eventWalkOp, met]
        rw [stays, List.filter_cons_of_neg (by simpa using met)]
        exact ih threads data

theorem post_settled {system : System} (settled : Settled system) (free : system.posting.isNone)
    (events eventsMask : UInt32)
    : Settled (kEventPostInternal system events eventsMask) := by
  have nobody : system.pending = [] := by
    rw [System.pending, Option.isNone_iff_eq_none.mp free]
  simp only [kEventPostInternal]
  generalize (system.events &&& ~~~eventsMask) ||| (events &&& eventsMask) = stored
  obtain ⟨isData, fields⟩ := foldl_eventWalkOp system.waitQ.waiters system.threads ⟨[], stored⟩
  generalize system.waitQ.waiters.foldl eventWalkOp (system.threads, ⟨[], stored⟩) = walked at *
  simp only [List.append_nil] at isData fields
  have isPending : ∀ waiter, waiter ∈ walked.2.head
      ↔ waiter ∈ system.waitQ.waiters ∧ waiter.request.Met stored = true := by
    intro waiter
    rw [isData, List.mem_reverse, List.mem_filter]
  refine
    { distinct := settled.distinct
      asked := settled.asked
      collected := ?_
      pended := fun waiter member => ((isPending waiter).mp member).1
      once := ?_
      stored := ?_
      silenced := ?_
      flagged := ?_
      right := settled.right }
  · intro waiter member
    simp only [System.pending, isPending]
    exact ⟨fun met => ⟨member, met⟩, fun both => both.2⟩
  · simp only [System.pending, isData, List.nodup_reverse]
    exact (List.Nodup.of_map _ settled.distinct).filter _
  · intro post isPost
    rw [← Option.some.inj isPost]
    simp only [isData]
  · intro waiter member
    have found : waiter ∈ system.waitQ.waiters.filter fun waiter => waiter.request.Met stored :=
      List.mem_filter.mpr ((isPending waiter).mp member)
    obtain ⟨armed, flag⟩ := fields waiter.thread
    constructor
    · refine Bool.eq_false_iff.mpr fun isArmed => ?_
      exact (armed.mp isArmed).2 waiter found rfl
    · exact fun _ => flag.mpr (.inr ⟨waiter, found, rfl⟩)
  · intro thread isFlagged
    rcases (fields thread).2.mp isFlagged with old | ⟨waiter, found, same⟩
    · obtain ⟨waiter, member, _⟩ := settled.flagged thread old
      rw [nobody] at member
      exact absurd member List.not_mem_nil
    · exact ⟨waiter, (isPending waiter).mpr (List.mem_filter.mp found), same⟩

theorem unlock_settled {system : System} (settled : Settled system)
    (nobody : system.pending = []) (previous : List UInt32)
    : Settled { system with posting := none, previous := previous } := by
  obtain ⟨distinct, asked, collected, pended, once, _, silenced, flagged, right⟩ := settled
  rw [nobody] at pended once silenced
  simp only [nobody] at collected flagged
  exact ⟨distinct, asked, collected, pended, once, (fun _ isPost => nomatch isPost), silenced,
    flagged, right⟩

theorem wake_settled {system : System} {thread : Waiter Request} {rest : List (Waiter Request)}
    {events previousEvents : UInt32} (settled : Settled system)
    (isPosting : system.posting = some (⟨thread :: rest, events⟩, previousEvents))
    : Settled
        { zSchedWakeThread system thread.thread false with
          posting := some (⟨rest, events⟩, previousEvents)
          returns :=
            system.returns
            ++ [⟨thread.thread, thread.request, .woken system.events,
                events &&& thread.request.events⟩] } := by
  have isPending : system.pending = thread :: rest := by rw [System.pending, isPosting]
  have member : ∀ waiter ∈ thread :: rest, waiter ∈ system.pending := by
    intro waiter member
    rwa [isPending]
  have isStored := settled.stored _ isPosting
  have pended := settled.pended thread (member thread List.mem_cons_self)
  have once := settled.once
  rw [isPending] at once
  obtain ⟨notLater, restOnce⟩ := List.nodup_cons.mp once
  have others : ∀ waiter ∈ rest, waiter.thread ≠ thread.thread := by
    intro waiter later same
    have inList := settled.pended waiter (member waiter (List.mem_cons_of_mem _ later))
    exact notLater (settled.eq_of_thread inList pended same ▸ later)
  simp only [zSchedWakeThread, Bool.and_false, Bool.false_eq_true, if_false]
  refine
    { distinct := settled.distinct.sublist (List.eraseP_sublist.map _)
      asked := fun waiter left => settled.asked waiter (List.mem_of_mem_eraseP left)
      collected := ?_
      pended := ?_
      once := restOnce
      stored := ?_
      silenced := ?_
      flagged := ?_
      right := ?_ }
  · intro waiter left
    obtain ⟨inList, different⟩ := (mem_eraseP_thread settled.distinct).mp left
    rw [settled.collected waiter inList, isPending, List.mem_cons]
    refine or_iff_right ?_
    rintro rfl
    exact different rfl
  · intro waiter later
    have inList := settled.pended waiter (member waiter (List.mem_cons_of_mem _ later))
    exact (mem_eraseP_thread settled.distinct).mpr ⟨inList, others waiter later⟩
  · intro post isPost
    rw [← Option.some.inj isPost]
    exact isStored
  · intro waiter later
    obtain ⟨armed, flag⟩ :=
      settled.silenced waiter (member waiter (List.mem_cons_of_mem _ later))
    refine ⟨armed, fun firing => ?_⟩
    dsimp only
    rw [Function.update_of_ne (others waiter later)]
    exact flag firing
  · intro other isFlagged
    dsimp only at isFlagged
    by_cases same : other = thread.thread
    · rw [same, Function.update_self] at isFlagged
      exact nomatch isFlagged
    · rw [Function.update_of_ne same] at isFlagged
      obtain ⟨waiter, isWaiter, isOther⟩ := settled.flagged other isFlagged
      rw [isPending] at isWaiter
      rcases List.mem_cons.mp isWaiter with rfl | later
      · exact absurd isOther.symm same
      · exact ⟨waiter, later, isOther⟩
  · intro call isCall
    rcases List.mem_append.mp isCall with old | new
    · exact settled.right call old
    · rw [List.mem_singleton.mp new]
      have met := (settled.collected thread pended).mpr (member thread List.mem_cons_self)
      have value := Request.met_value met
      have same : events = system.events := isStored
      rw [same]
      exact ⟨rfl, value.1, value.2⟩

theorem postNext_settled {system next : System} (settled : Settled system)
    (stepped : postNext system = some next)
    : Settled next := by
  unfold postNext at stepped
  split at stepped
  · exact nomatch stepped
  · rename_i events previousEvents isPosting
    rw [← Option.some.inj stepped]
    exact unlock_settled settled (by rw [System.pending, isPosting]) _
  · rename_i thread rest events previousEvents isPosting
    rw [← Option.some.inj stepped]
    exact wake_settled settled isPosting

/-! ### Waits and timeouts -/

theorem Settled.with_return {system : System} (settled : Settled system) {call : Return}
    (right : call.Right)
    : Settled { system with returns := system.returns ++ [call] } where
  distinct := settled.distinct
  asked := settled.asked
  collected := settled.collected
  pended := settled.pended
  once := settled.once
  stored := settled.stored
  silenced := settled.silenced
  flagged := settled.flagged
  right := by
    intro other isCall
    rcases List.mem_append.mp isCall with old | new
    · exact settled.right other old
    · rw [List.mem_singleton.mp new]
      exact right

theorem Settled.without_events {system : System} (settled : Settled system)
    (free : system.posting = none)
    : Settled { system with events := 0 } := by
  have nobody : system.pending = [] := by rw [System.pending, free]
  refine { settled with collected := ?_, stored := ?_ }
  · intro waiter member
    rw [Request.met_zero (settled.asked waiter member)]
    refine iff_of_false Bool.false_ne_true ?_
    have same : System.pending { system with events := 0 } = [] := nobody
    rw [same]
    exact List.not_mem_nil
  · intro post isPost
    rw [free] at isPost
    exact nomatch isPost

theorem pend_settled {system : System} (settled : Settled system) (free : system.posting = none)
    {thread : Nat} {timeout : KTimeout} {request : Request} (asked : request.events ≠ 0)
    (unmet : request.Met system.events = false)
    (new : ∀ waiter ∈ system.waitQ.waiters, waiter.thread ≠ thread) (armed : Nat → Bool)
    : Settled
        { system with
          waitQ := system.waitQ.zPendCurr ⟨thread, timeout, request⟩
          threads := { system.threads with armed := armed } } := by
  have nobody : system.pending = [] := by rw [System.pending, free]
  have joined : ∀ waiter ∈ (system.waitQ.zPendCurr ⟨thread, timeout, request⟩).waiters,
      waiter = ⟨thread, timeout, request⟩ ∨ waiter ∈ system.waitQ.waiters :=
    fun waiter member => WaitQ.mem_zPendCurr.mp member
  refine
    { distinct := ?_
      asked := ?_
      collected := ?_
      pended := ?_
      once := settled.once
      stored := settled.stored
      silenced := ?_
      flagged := settled.flagged
      right := settled.right }
  · simp only [WaitQ.zPendCurr, zPriqDumbAdd_eq_stableInsert]
    rw [((perm_stableInsert _ _ _).map Waiter.thread).nodup_iff, List.map_cons, List.nodup_cons]
    refine ⟨fun member => ?_, settled.distinct⟩
    obtain ⟨waiter, inList, same⟩ := List.mem_map.mp member
    exact new waiter inList same
  · intro waiter member
    rcases joined waiter member with rfl | old
    · exact asked
    · exact settled.asked waiter old
  · intro waiter member
    rcases joined waiter member with rfl | old
    · refine iff_of_false (by simpa using unmet) fun isPending => ?_
      have nothing : (⟨thread, timeout, request⟩ : Waiter Request) ∈ system.pending := isPending
      rw [nobody] at nothing
      exact absurd nothing List.not_mem_nil
    · exact settled.collected waiter old
  · intro waiter isPending
    exact WaitQ.mem_zPendCurr.mpr (.inr (settled.pended waiter isPending))
  · intro waiter isPending
    have nothing : waiter ∈ system.pending := isPending
    rw [nobody] at nothing
    exact absurd nothing List.not_mem_nil

theorem testOrPend_settled {system : System} (settled : Settled system) {thread : Nat}
    {request : Request} {timeout : KTimeout} (asked : request.events ≠ 0)
    (enabled : system.MayWait thread timeout)
    : Settled (testOrPend system thread request timeout) := by
  unfold testOrPend
  split
  · exact settled.with_return trivial
  · rename_i unmet
    split
    · exact settled.with_return trivial
    · rename_i waits
      refine pend_settled settled (Option.isNone_iff_eq_none.mp enabled.1) asked ?_
        (enabled.2.resolve_left waits) _
      exact Bool.eq_false_iff.mpr unmet

theorem wait_settled {system : System} (settled : Settled system) {thread : Nat}
    {timeout : KTimeout} (enabled : system.MayWait thread timeout) (events options : UInt32)
    : Settled (kEventWaitInternal system thread events options timeout) := by
  unfold kEventWaitInternal
  split
  · exact settled.with_return trivial
  · rename_i asked
    split
    · have free := Option.isNone_iff_eq_none.mp enabled.1
      exact testOrPend_settled (settled.without_events free) asked enabled
    · exact testOrPend_settled settled asked enabled

theorem expire_settled {system : System} (settled : Settled system) {thread : Nat}
    (armed : system.threads.armed thread = true)
    : Settled
        { system with
          waitQ := { system.waitQ with firing := some thread }
          threads :=
            { system.threads with
              armed := Function.update system.threads.armed thread false } } := by
  refine { settled with silenced := ?_ }
  intro waiter isPending
  obtain ⟨unarmed, _⟩ := settled.silenced waiter isPending
  have different : waiter.thread ≠ thread := by
    rintro rfl
    exact absurd armed (by rw [unarmed]; exact Bool.false_ne_true)
  refine ⟨?_, fun firing => absurd (Option.some.inj firing).symm different⟩
  dsimp only
  rw [Function.update_of_ne different]
  exact unarmed

theorem threadTimeout_settled {system : System} (settled : Settled system) {thread : Nat}
    (firing : system.waitQ.firing = some thread)
    : Settled (zThreadTimeout system thread) := by
  have unflagged : ∀ other,
      Function.update system.threads.noWakeOnTimeout thread false other = true
      → system.threads.noWakeOnTimeout other = true := by
    intro other isFlagged
    by_cases same : other = thread
    · rw [same, Function.update_self] at isFlagged
      exact nomatch isFlagged
    · rwa [Function.update_of_ne same] at isFlagged
  have right : ∀ call ∈ (zThreadTimeout system thread).returns, call.Right := by
    intro call isCall
    rcases List.mem_append.mp isCall with old | new
    · exact settled.right call old
    · obtain ⟨waiter, _, rfl⟩ := List.mem_map.mp new
      exact rfl
  cases isFlag : system.threads.noWakeOnTimeout thread with
  | true =>
      simp only [zThreadTimeout, zSchedWakeThread, isFlag, Bool.and_self, if_true] at right ⊢
      exact
        { distinct := settled.distinct
          asked := settled.asked
          collected := settled.collected
          pended := settled.pended
          once := settled.once
          stored := settled.stored
          silenced := fun waiter isPending =>
            ⟨(settled.silenced waiter isPending).1, fun firing => nomatch firing⟩
          flagged := fun other isFlagged => settled.flagged other (unflagged other isFlagged)
          right := right }
  | false =>
      -- A thread that is to be woken would have its flag set.
      have others : ∀ waiter ∈ system.pending, waiter.thread ≠ thread := by
        rintro waiter isPending rfl
        have flag := (settled.silenced waiter isPending).2 firing
        rw [isFlag] at flag
        exact nomatch flag
      simp only [zThreadTimeout, zSchedWakeThread, isFlag, Bool.false_and, Bool.false_eq_true,
        if_false] at right ⊢
      exact
        { distinct := settled.distinct.sublist (List.eraseP_sublist.map _)
          asked := fun waiter left => settled.asked waiter (List.mem_of_mem_eraseP left)
          collected := fun waiter left =>
            settled.collected waiter (List.mem_of_mem_eraseP left)
          pended := fun waiter isPending =>
            (mem_eraseP_thread settled.distinct).mpr
              ⟨settled.pended waiter isPending, others waiter isPending⟩
          once := settled.once
          stored := settled.stored
          silenced := fun waiter isPending =>
            ⟨(settled.silenced waiter isPending).1, fun firing => nomatch firing⟩
          flagged := fun other isFlagged => settled.flagged other (unflagged other isFlagged)
          right := right }

theorem step_settled {system next : System} {call : Call} (settled : Settled system)
    (stepped : step system call = some next)
    : Settled next := by
  have posts : ∀ {posted : System},
      (if system.posting.isNone then some posted else none) = some next
      → (system.posting.isNone → Settled posted) → Settled next := by
    intro posted stepped keeps
    split at stepped
    · rename_i free
      exact Option.some.inj stepped ▸ keeps free
    · exact nomatch stepped
  cases call with
  | post events => exact posts stepped fun free => post_settled settled free _ _
  | set events => exact posts stepped fun free => post_settled settled free _ _
  | setMasked events eventsMask => exact posts stepped fun free => post_settled settled free _ _
  | clear events => exact posts stepped fun free => post_settled settled free _ _
  | postNext => exact postNext_settled settled stepped
  | wait thread events reset timeout =>
      simp only [step] at stepped
      split at stepped
      · rename_i enabled
        exact Option.some.inj stepped ▸ wait_settled settled enabled _ _
      · exact nomatch stepped
  | waitAll thread events reset timeout =>
      simp only [step] at stepped
      split at stepped
      · rename_i enabled
        exact Option.some.inj stepped ▸ wait_settled settled enabled _ _
      · exact nomatch stepped
  | expire thread =>
      simp only [step] at stepped
      split at stepped
      · rename_i enabled
        exact Option.some.inj stepped ▸ expire_settled settled enabled.2
      · exact nomatch stepped
  | threadTimeout =>
      obtain ⟨thread, firing, rfl⟩ := Option.map_eq_some_iff.mp stepped
      exact threadTimeout_settled settled firing
  | prioSet thread prio =>
      rw [← Option.some.inj stepped]
      exact { settled with }

theorem init_settled (prio : Nat → Int) (threads : Threads)
    : Settled (.kEventInit prio threads) where
  distinct := List.nodup_nil
  asked := fun _ member => absurd member List.not_mem_nil
  collected := fun _ member => absurd member List.not_mem_nil
  pended := fun _ member => absurd member List.not_mem_nil
  once := List.nodup_nil
  stored := fun _ isPost => nomatch isPost
  silenced := fun _ member => absurd member List.not_mem_nil
  flagged := fun _ isFlagged => nomatch isFlagged
  right := fun _ member => absurd member List.not_mem_nil

/-- In every interleaving, no thread waits for what is stored while the lock is free, and every wait
that has ended returned what it should.
-/
theorem events_delivered {prio : Nat → Int} {threads : Threads} {calls : List Call}
    {final : System} (ran : run step (.kEventInit prio threads) calls = some final)
    : (final.posting = none
        → ∀ waiter ∈ final.waitQ.waiters, waiter.request.Met final.events = false)
      ∧ ∀ call ∈ final.returns, call.Right := by
  have settled : Settled final := run_invariant Settled step_settled (init_settled prio threads) ran
  refine ⟨fun free waiter member => ?_, settled.right⟩
  refine Bool.eq_false_iff.mpr fun met => ?_
  have isPending := (settled.collected waiter member).mp met
  rw [System.pending, free] at isPending
  exact absurd isPending List.not_mem_nil

def racingCalls : List Call :=
  [.wait 1 0b11 false ⟨10⟩, .waitAll 2 0b11 false kForever, .wait 3 0b100 true ⟨5⟩, .expire 1,
    .post 0b1, .threadTimeout, .postNext, .postNext, .expire 3, .threadTimeout, .set 0b111,
    .postNext, .postNext]

/-- The handler of the first thread's timeout runs between the walk of the first post and the
waking.
-/
theorem racingCalls_delivered
    : ∃ final,
        run step (.kEventInit (fun _ => 0) ⟨fun _ => false, fun _ => false⟩) racingCalls
          = some final
        ∧ final.returns
          = [⟨1, ⟨0b11, 0⟩, .woken 0b1, 0b1⟩, ⟨3, ⟨0b100, 2⟩, .timedOut, 0⟩,
              ⟨2, ⟨0b11, 1⟩, .woken 0b111, 0b11⟩]
        ∧ ∀ call ∈ final.returns, call.Right := by
  have runs : ∃ final,
      run step (.kEventInit (fun _ => 0) ⟨fun _ => false, fun _ => false⟩) racingCalls
        = some final
      ∧ final.returns
        = [⟨1, ⟨0b11, 0⟩, .woken 0b1, 0b1⟩, ⟨3, ⟨0b100, 2⟩, .timedOut, 0⟩,
            ⟨2, ⟨0b11, 1⟩, .woken 0b111, 0b11⟩] := by
    refine ⟨_, rfl, ?_⟩
    decide +kernel
  obtain ⟨final, ran, returns⟩ := runs
  exact ⟨final, ran, returns, (events_delivered ran).2⟩

end Zephyr.Kernel.EventObject
