import Zephyr.Time.Units

/-! The default policy of `subsys/pm/policy.c`: locks, latency requests and registered events, and
the power state that `pm_policy_next_state` chooses.
-/

namespace Zephyr.Pm.Policy

open Zephyr.Time

/-! ### The policy -/

/-- `enum pm_state` -/
inductive PmState where
  | active
  | runtimeIdle
  | suspendToIdle
  | standby
  | suspendToRam
  | suspendToDisk
  | softOff
  deriving DecidableEq, Repr

/-- `struct pm_state_info` -/
structure PmStateInfo where
  state : PmState
  substateId : UInt8
  minResidencyUs : UInt32
  exitLatencyUs : UInt32
  deriving DecidableEq, Repr

/-- An entry of `substate_lock_t`. -/
structure SubstateLock where
  state : PmState
  substateId : UInt8
  lock : UInt32

/-- The frequencies of the ticks and of the cycle counter. -/
structure Clock where
  ticksHz : UInt32
  cycHz : UInt32
  ticks_pos : 0 < ticksHz
  cyc_pos : 0 < cycHz

def kUsToCycCeil32 (clock : Clock) (us : UInt32) : UInt32 :=
  zTmcvt32 us.toUInt64 1000000 clock.cycHz true true false

def kTicksToCycCeil32 (clock : Clock) (ticks : Int) : UInt32 :=
  zTmcvt32 (UInt64.ofInt ticks) clock.ticksHz clock.cycHz true true false

/-- `K_TICKS_FOREVER` and `SYS_FOREVER_US` -/
def forever : Int := -1

def pmAllSubstates : UInt8 := 255

/-- The value of a word that is read as an `int32_t`. -/
def asInt32 (word : UInt32) : Int :=
  if word.toNat < 2 ^ 31 then word.toNat else word.toNat - 2 ^ 32

/-- The variables of the policy. Requests and events are named by their nodes. -/
structure Policy where
  locks : List SubstateLock
  latencyReqs : List (Nat × UInt32) := []
  maxLatencyUs : Int := forever
  maxLatencyCyc : Int := -1
  events : List (Nat × UInt32) := []
  nextEventCyc : Int := -1

/-- The loop of `update_max_latency` over the requests. -/
def newMaxLatencyUs (reqs : List (Nat × UInt32)) : Int :=
  reqs.foldl
    (fun least req => if least = forever ∨ asInt32 req.2 < least then asInt32 req.2 else least)
    forever

def latencyCyc (clock : Clock) (us : Int) : Int :=
  if us ≠ forever then asInt32 (kUsToCycCeil32 clock (UInt32.ofInt us)) else -1

def updateMaxLatency (clock : Clock) (policy : Policy) : Policy :=
  let new := newMaxLatencyUs policy.latencyReqs
  if policy.maxLatencyUs ≠ new then
    { policy with maxLatencyUs := new, maxLatencyCyc := latencyCyc clock new }
  else policy

/-- `UINT32_MAX + 1U`, which is computed in 32 bits. -/
def padding : Nat := (uint32Max + 1).toNat

/-- The loop of `update_next_event` over the events. -/
def newNextEventCyc (cyc : UInt32) (events : List (Nat × UInt32)) : Int :=
  events.foldl
    (fun least (evt : Nat × UInt32) =>
      let cycEvt : Int := if evt.2 < cyc then evt.2.toNat + padding else evt.2.toNat
      if least < 0 ∨ cycEvt < least then cycEvt else least)
    (-1)

def updateNextEvent (cyc : UInt32) (policy : Policy) : Policy :=
  let new := newNextEventCyc cyc policy.events
  { policy with nextEventCyc := if new > uint32Max.toNat then new - padding else new }

/-- `value` becomes that of the node. -/
def updateNode (node : Nat) (value : UInt32) (list : List (Nat × UInt32)) : List (Nat × UInt32) :=
  list.map fun entry => if entry.1 = node then (node, value) else entry

def lockMatches (state : PmState) (substateId : UInt8) (entry : SubstateLock) : Bool :=
  entry.state = state && (entry.substateId = substateId || substateId = pmAllSubstates)

def changeLocks (policy : Policy) (state : PmState) (substateId : UInt8)
    (change : UInt32 → UInt32) : Policy :=
  { policy with
    locks :=
      policy.locks.map fun entry =>
        if lockMatches state substateId entry then { entry with lock := change entry.lock }
        else entry }

/-- The calls of the policy; those about events with the value of the cycle counter. -/
inductive Call where
  | stateLockGet (state : PmState) (substateId : UInt8)
  | stateLockPut (state : PmState) (substateId : UInt8)
  | latencyRequestAdd (req : Nat) (valueUs : UInt32)
  | latencyRequestUpdate (req : Nat) (valueUs : UInt32)
  | latencyRequestRemove (req : Nat)
  | eventRegister (evt : Nat) (timeUs cyc : UInt32)
  | eventUpdate (evt : Nat) (timeUs cyc : UInt32)
  | eventUnregister (evt : Nat) (cyc : UInt32)

def step (clock : Clock) (policy : Policy) : Call → Policy
  | .stateLockGet state substateId => changeLocks policy state substateId (· + 1)
  | .stateLockPut state substateId => changeLocks policy state substateId (· - 1)
  | .latencyRequestAdd req valueUs =>
      updateMaxLatency clock
        { policy with latencyReqs := policy.latencyReqs ++ [(req, valueUs)] }
  | .latencyRequestUpdate req valueUs =>
      updateMaxLatency clock
        { policy with latencyReqs := updateNode req valueUs policy.latencyReqs }
  | .latencyRequestRemove req =>
      updateMaxLatency clock
        { policy with latencyReqs := policy.latencyReqs.eraseP fun entry => entry.1 = req }
  | .eventRegister evt timeUs cyc =>
      updateNextEvent cyc
        { policy with events := policy.events ++ [(evt, cyc + kUsToCycCeil32 clock timeUs)] }
  | .eventUpdate evt timeUs cyc =>
      updateNextEvent cyc
        { policy with
          events := updateNode evt (cyc + kUsToCycCeil32 clock timeUs) policy.events }
  | .eventUnregister evt cyc =>
      updateNextEvent cyc
        { policy with events := policy.events.eraseP fun entry => entry.1 = evt }

def stateLockIsActive (policy : Policy) (state : PmState) (substateId : UInt8) : Bool :=
  match policy.locks.find? (lockMatches state substateId) with
  | some entry => entry.lock ≠ 0
  | none => false

/-- `cyc` of `pm_policy_next_state` when its loop begins. -/
def cycLeft (clock : Clock) (policy : Policy) (ticks : Int) (cycCurr : UInt32) : Int :=
  let cyc : Int := if ticks ≠ forever then (kTicksToCycCeil32 clock ticks).toNat else -1
  if policy.nextEventCyc ≥ 0 then
    let cycEvt :=
      policy.nextEventCyc - cycCurr.toNat
        + (if policy.nextEventCyc ≤ cycCurr.toNat then uint32Max.toNat else 0)
    if cycEvt > 0 then
      if cyc < 0 then cycEvt else min cyc cycEvt
    else cyc
  else cyc

/-- The loop of `pm_policy_next_state` returns a state. -/
def accepts (clock : Clock) (policy : Policy) (cyc : Int) (state : PmStateInfo) : Bool :=
  let minResidencyCyc := kUsToCycCeil32 clock state.minResidencyUs
  let exitLatencyCyc := kUsToCycCeil32 clock state.exitLatencyUs
  !stateLockIsActive policy state.state state.substateId
    && !(policy.maxLatencyCyc ≥ 0 && (exitLatencyCyc.toNat : Int) ≥ policy.maxLatencyCyc)
    && (cyc < 0 || cyc ≥ (minResidencyCyc + exitLatencyCyc).toNat)

/-- `pm_policy_next_state` -/
def nextState (clock : Clock) (policy : Policy) (states : List PmStateInfo) (ticks : Int)
    (cycCurr : UInt32) : Option PmStateInfo :=
  states.reverse.find? (accepts clock policy (cycLeft clock policy ticks cycCurr))

/-! ### The state that is asked for -/

/-- The exact number of cycles of a time in another unit, rounded up. -/
def cycles (clock : Clock) (fromHz : UInt32) (time : Nat) : Nat :=
  (time * clock.cycHz.toNat + (fromHz.toNat - 1)) / fromHz.toNat

/-- A state that is not locked, leaves fast enough for every request and pays off before the kernel
deadline and every event.
-/
structure Suits (clock : Clock) (policy : Policy) (ticks : Int) (cycCurr : UInt32)
    (state : PmStateInfo) : Prop where
  unlocked : stateLockIsActive policy state.state state.substateId = false
  latency
    : ∀ req ∈ policy.latencyReqs,
        cycles clock 1000000 state.exitLatencyUs.toNat < cycles clock 1000000 req.2.toNat
  deadline
    : ticks ≠ forever →
        cycles clock 1000000 state.minResidencyUs.toNat
            + cycles clock 1000000 state.exitLatencyUs.toNat
          ≤ cycles clock clock.ticksHz ticks.toNat
  events
    : ∀ evt ∈ policy.events,
        cycles clock 1000000 state.minResidencyUs.toNat
            + cycles clock 1000000 state.exitLatencyUs.toNat
          ≤ (evt.2 - cycCurr).toNat

instance (clock : Clock) (policy : Policy) (ticks : Int) (cycCurr : UInt32) (state : PmStateInfo)
    : Decidable (Suits clock policy ticks cycCurr state) :=
  decidable_of_iff (_ ∧ _ ∧ _ ∧ _)
    ⟨fun both => ⟨both.1, both.2.1, both.2.2.1, both.2.2.2⟩,
      fun suits => ⟨suits.1, suits.2, suits.3, suits.4⟩⟩

section

variable {clock : Clock} {policy : Policy}

theorem toNat_zTmcvt32_up {fromHz : UInt32} (fromPos : 0 < fromHz) {time : UInt64}
    (range : time.toNat < 2 ^ 32)
    : (zTmcvt32 time fromHz clock.cycHz true true false).toNat
      = cycles clock fromHz time.toNat % 2 ^ 32 := by
  have fromPos := UInt32.lt_iff_toNat_lt.mp fromPos
  have toPos := UInt32.lt_iff_toNat_lt.mp clock.cyc_pos
  have rounds := zTmcvt32_rounds .up fromPos toPos true range
  rw [round_general .up fromPos] at rounds
  exact rounds

theorem toNat_kUsToCycCeil32 {us : UInt32} (fits : cycles clock 1000000 us.toNat < 2 ^ 32)
    : (kUsToCycCeil32 clock us).toNat = cycles clock 1000000 us.toNat := by
  have range : us.toUInt64.toNat < 2 ^ 32 := by
    rw [UInt32.toNat_toUInt64]
    exact us.toNat_lt
  rw [kUsToCycCeil32, toNat_zTmcvt32_up (by decide) range, UInt32.toNat_toUInt64,
    Nat.mod_eq_of_lt fits]

theorem toNat_kTicksToCycCeil32 {ticks : Int} (positive : 0 ≤ ticks) (word : ticks < 2 ^ 31)
    (fits : cycles clock clock.ticksHz ticks.toNat < 2 ^ 32)
    : (kTicksToCycCeil32 clock ticks).toNat = cycles clock clock.ticksHz ticks.toNat := by
  have same : (UInt64.ofInt ticks).toNat = ticks.toNat := by
    obtain ⟨count, rfl⟩ := Int.eq_ofNat_of_zero_le positive
    simp [UInt64.ofInt]
    omega
  rw [kTicksToCycCeil32, toNat_zTmcvt32_up clock.ticks_pos (by omega), same,
    Nat.mod_eq_of_lt fits]

theorem cycles_mono (clock : Clock) (fromHz : UInt32) {less more : Nat} (le : less ≤ more)
    : cycles clock fromHz less ≤ cycles clock fromHz more :=
  Nat.div_le_div_right (Nat.add_le_add_right (Nat.mul_le_mul_right _ le) _)

/-! ### The cached values -/

theorem foldl_least {α : Type*} {value : α → Int} (unset : Int → Prop) [DecidablePred unset]
    {start : Int} (first : unset start) (set : ∀ number ≥ 0, ¬unset number) {list : List α}
    (positive : ∀ item ∈ list, 0 ≤ value item)
    : (list = []
        ∧ list.foldl (fun least item =>
            if unset least ∨ value item < least then value item else least) start = start)
      ∨ ∃ item ∈ list,
          list.foldl (fun least item =>
            if unset least ∨ value item < least then value item else least) start = value item
          ∧ ∀ other ∈ list, value item ≤ value other := by
  -- the last item is compared with the least of the items before it
  induction list using List.reverseRecOn with
  | nil => exact .inl ⟨rfl, rfl⟩
  | append_singleton before last ih =>
      right
      have positiveLast := positive last (by simp)
      rw [List.foldl_append, List.foldl_cons, List.foldl_nil]
      rcases ih fun item member => positive item (by simp [member]) with
        ⟨rfl, none⟩ | ⟨item, member, least, lower⟩
      · rw [none, if_pos (.inl first)]
        exact ⟨last, by simp, rfl, by simp⟩
      · rw [least]
        have positiveItem := positive item (by simp [member])
        split
        · rename_i less
          have below := less.resolve_left (set _ positiveItem)
          refine ⟨last, by simp, rfl, ?_⟩
          intro other among
          rcases List.mem_append.mp among with early | same
          · exact below.le.trans (lower other early)
          · rw [List.mem_singleton.mp same]
        · rename_i more
          refine ⟨item, by simp [member], rfl, ?_⟩
          intro other among
          rcases List.mem_append.mp among with early | same
          · exact lower other early
          · rw [List.mem_singleton.mp same]
            exact Int.not_lt.mp fun less => more (.inr less)

/-- The cached values are those of the lists. -/
structure Cached (clock : Clock) (policy : Policy) : Prop where
  latencyUs : policy.maxLatencyUs = newMaxLatencyUs policy.latencyReqs
  latencyCycles : policy.maxLatencyCyc = latencyCyc clock policy.maxLatencyUs
  nextEvent : policy.nextEventCyc = newNextEventCyc 0 policy.events

theorem padding_eq : padding = 0 := by decide

/-- Nothing is added to a deadline before the counter, so the counter does not matter. -/
theorem newNextEventCyc_eq (cyc : UInt32) (events : List (Nat × UInt32))
    : newNextEventCyc cyc events = newNextEventCyc 0 events := by
  simp [newNextEventCyc, padding_eq]

theorem init_cached (clock : Clock) (locks : List SubstateLock)
    : Cached clock { locks := locks } :=
  ⟨rfl, rfl, rfl⟩

theorem Cached.updateMaxLatency (cached : Cached clock policy) (reqs : List (Nat × UInt32))
    : Cached clock (updateMaxLatency clock { policy with latencyReqs := reqs }) := by
  simp only [Policy.updateMaxLatency]
  split
  · exact ⟨rfl, rfl, cached.nextEvent⟩
  · rename_i same
    exact ⟨not_not.mp same, cached.latencyCycles, cached.nextEvent⟩

theorem Cached.updateNextEvent (cached : Cached clock policy) (cyc : UInt32)
    (events : List (Nat × UInt32))
    : Cached clock (updateNextEvent cyc { policy with events := events }) := by
  refine ⟨cached.latencyUs, cached.latencyCycles, ?_⟩
  simp [Policy.updateNextEvent, padding_eq, newNextEventCyc_eq cyc]

theorem Cached.step (cached : Cached clock policy) (call : Call)
    : Cached clock (step clock policy call) := by
  cases call with
  | stateLockGet | stateLockPut =>
      exact ⟨cached.latencyUs, cached.latencyCycles, cached.nextEvent⟩
  | latencyRequestAdd | latencyRequestUpdate | latencyRequestRemove =>
      exact cached.updateMaxLatency _
  | eventRegister | eventUpdate | eventUnregister => exact cached.updateNextEvent _ _

/-- The policy after some calls. -/
def run (clock : Clock) (locks : List SubstateLock) (calls : List Call) : Policy :=
  calls.foldl (Policy.step clock) { locks := locks }

theorem run_cached (clock : Clock) (locks : List SubstateLock) (calls : List Call)
    : Cached clock (run clock locks calls) := by
  unfold run
  induction calls using List.reverseRecOn with
  | nil => exact init_cached clock locks
  | append_singleton before call ih =>
      rw [List.foldl_append]
      exact ih.step call

/-! ### The choice -/

/-- No deadline is behind a wrap of the counter, and the times fit the words that they are computed
in.
-/
structure Representable (clock : Clock) (policy : Policy) (states : List PmStateInfo)
    (ticks : Int) (cycCurr : UInt32) : Prop where
  ahead : ∀ evt ∈ policy.events, cycCurr < evt.2
  deadline : ticks ≠ forever → cycles clock clock.ticksHz ticks.toNat < 2 ^ 32
  latency : ∀ req ∈ policy.latencyReqs, cycles clock 1000000 req.2.toNat < 2 ^ 31
  states
    : ∀ state ∈ states,
        cycles clock 1000000 state.minResidencyUs.toNat
            + cycles clock 1000000 state.exitLatencyUs.toNat
          < 2 ^ 32

theorem asInt32_of_lt {word : UInt32} (small : word.toNat < 2 ^ 31) : asInt32 word = word.toNat :=
  if_pos small

theorem ofInt_toNat (word : UInt32) : UInt32.ofInt word.toNat = word := by
  have small := word.toNat_lt
  rw [UInt32.ofInt, Int.toNat_emod (Int.natCast_nonneg _) (by decide), Int.toNat_natCast]
  exact (congrArg UInt32.ofNat (Nat.mod_eq_of_lt small)).trans UInt32.ofNat_toNat

theorem Cached.latency_iff (cached : Cached clock policy)
    (requests : ∀ req ∈ policy.latencyReqs, req.2.toNat < 2 ^ 31)
    (fits : ∀ req ∈ policy.latencyReqs, cycles clock 1000000 req.2.toNat < 2 ^ 31) (count : Nat)
    : ¬(policy.maxLatencyCyc ≥ 0 ∧ (count : Int) ≥ policy.maxLatencyCyc)
      ↔ ∀ req ∈ policy.latencyReqs, count < cycles clock 1000000 req.2.toNat := by
  have value {req : Nat × UInt32} (member : req ∈ policy.latencyReqs)
      : asInt32 req.2 = req.2.toNat :=
    asInt32_of_lt (requests req member)
  have positive : ∀ req ∈ policy.latencyReqs, 0 ≤ asInt32 req.2 := by
    intro req member
    rw [value member]
    exact Int.natCast_nonneg _
  rw [cached.latencyCycles, cached.latencyUs, newMaxLatencyUs]
  rcases foldl_least (· = forever) rfl (by rintro number more rfl; cases more) positive
    with ⟨empty, none⟩ | ⟨req, member, least, lower⟩
  · rw [none, empty]
    simp [latencyCyc, forever]
  · rw [least, value member]
    have small := fits req member
    have word : (kUsToCycCeil32 clock req.2).toNat = cycles clock 1000000 req.2.toNat :=
      toNat_kUsToCycCeil32 (by omega)
    have set : ((req.2.toNat : Nat) : Int) ≠ forever := by
      simp only [forever]
      omega
    rw [latencyCyc, if_pos set, ofInt_toNat, asInt32_of_lt (by omega), word]
    constructor
    · intro below other among
      have le := lower other among
      rw [value member, value among] at le
      exact lt_of_lt_of_le (by omega) (cycles_mono clock 1000000 (Int.ofNat_le.mp le))
    · intro below
      have := below req member
      omega

/-- Without wraps the cached event is the earliest. -/
theorem Cached.nextEvent_cases (cached : Cached clock policy)
    : (policy.events = [] ∧ policy.nextEventCyc = -1)
      ∨ ∃ evt ∈ policy.events,
          policy.nextEventCyc = evt.2.toNat
          ∧ ∀ other ∈ policy.events, evt.2.toNat ≤ other.2.toNat := by
  have fold : newNextEventCyc 0 policy.events
      = policy.events.foldl (fun least evt =>
          if least < 0 ∨ (evt.2.toNat : Int) < least then (evt.2.toNat : Int) else least) (-1) := by
    simp [newNextEventCyc]
  rw [cached.nextEvent, fold]
  rcases foldl_least (· < 0) (by decide : (-1 : Int) < 0) (fun _ more => Int.not_lt.mpr more)
      (fun evt (_ : evt ∈ policy.events) => Int.natCast_nonneg evt.2.toNat)
    with empty | ⟨evt, member, least, lower⟩
  · exact .inl empty
  · exact .inr ⟨evt, member, least, fun other among => Int.ofNat_le.mp (lower other among)⟩

theorem toNat_sub_of_lt {curr evt : UInt32} (ahead : curr < evt)
    : (evt - curr).toNat = evt.toNat - curr.toNat :=
  UInt32.toNat_sub_of_le _ _ (UInt32.le_of_lt ahead)

theorem Cached.cycLeft_iff (cached : Cached clock policy) {ticks : Int} {cycCurr : UInt32}
    (ahead : ∀ evt ∈ policy.events, cycCurr < evt.2)
    (ticksFit
      : ticks ≠ forever →
          (kTicksToCycCeil32 clock ticks).toNat = cycles clock clock.ticksHz ticks.toNat)
    (count : Nat)
    : (cycLeft clock policy ticks cycCurr < 0 ∨ (count : Int) ≤ cycLeft clock policy ticks cycCurr)
      ↔ (ticks ≠ forever → count ≤ cycles clock clock.ticksHz ticks.toNat)
        ∧ ∀ evt ∈ policy.events, count ≤ (evt.2 - cycCurr).toNat := by
  have kernel : ∃ cyc : Int,
      cyc = (if ticks ≠ forever then ((kTicksToCycCeil32 clock ticks).toNat : Int) else -1)
      ∧ ((cyc < 0 ∨ (count : Int) ≤ cyc)
        ↔ (ticks ≠ forever → count ≤ cycles clock clock.ticksHz ticks.toNat)) := by
    refine ⟨_, rfl, ?_⟩
    by_cases none : ticks = forever
    · simp [none]
    · rw [if_pos none, ticksFit none]
      simp only [none, ne_eq, not_false_eq_true, true_imp_iff]
      omega
  obtain ⟨cyc, isCyc, kernel⟩ := kernel
  rw [← kernel, cycLeft, ← isCyc]
  rcases cached.nextEvent_cases with ⟨empty, none⟩ | ⟨evt, member, next, lower⟩
  · rw [none, empty]
    simp
  · have later := UInt32.lt_iff_toNat_lt.mp (ahead evt member)
    have distance : (∀ other ∈ policy.events, count ≤ (other.2 - cycCurr).toNat)
        ↔ count ≤ evt.2.toNat - cycCurr.toNat := by
      constructor
      · intro every
        have := every evt member
        rwa [toNat_sub_of_lt (ahead evt member)] at this
      · intro first other among
        have := lower other among
        rw [toNat_sub_of_lt (ahead other among)]
        omega
    rw [next, if_pos (Int.natCast_nonneg _), distance]
    simp only [if_neg (show ¬(evt.2.toNat : Int) ≤ cycCurr.toNat by omega)]
    rw [if_pos (by omega)]
    split <;> omega

end

/-! ### A deadline behind a wrap -/

/-- The clock of the build, 10 kHz ticks and 96 MHz cycles. -/
def buildClock : Clock := ⟨10000, 96000000, by decide, by decide⟩

def standby : PmStateInfo := ⟨.standby, 0, 5, 0⟩

/-- Five hundred cycles before the wrap two events are registered, due in 960 and 96 cycles. The one
behind the wrap counts as the earlier of the two, and a state is chosen that needs 480 cycles.
-/
def twoEvents : List Call :=
  [.eventRegister 0 10 4294966796, .eventRegister 1 1 4294966796]

end Zephyr.Pm.Policy
