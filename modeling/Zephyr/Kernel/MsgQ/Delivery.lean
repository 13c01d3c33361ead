import Zephyr.Library.Run
import Zephyr.Kernel.MsgQ.Model

/-! Along every interleaving the ledger of the calls matches the queue: what was accepted and
not removed is stored, and a pended call is a put to a full queue or a get from an empty one.
-/

namespace Zephyr.Kernel.MsgQ

open Zephyr.Library

variable {size : Nat}

abbrev Ledger (size : Nat) : Type := FifoLedger (Message size)

def record (ledger : Ledger size) : Call size → Ledger size
  | .put _ data _ => ledger.invoke (.put data)
  | .get _ _ _ => ledger.invoke .get
  | .purge => ledger.purge
  | .timeout _ => ledger
  | .prioSet _ _ => ledger

def recordedStep (state : System size × Ledger size) (call : Call size)
    : Option (System size × Ledger size) :=
  (step state.1 call).map
    (fun result => (result.1, result.2.foldl FifoLedger.settle (record state.2 call)))

def recordedStart (buffer : Nat → UInt8) (maxMsgs : Nat) (prio : Nat → Int)
    : System size × Ledger size :=
  (⟨kMsgqInit buffer maxMsgs, prio, 0⟩, {})

/-- A pended thread is in a put to a full queue or in a get from an empty one. -/
def Waits (msgq : KMsgq size) (ledger : Ledger size) (waiter : Waiter size) : Prop :=
  (ledger.operations[waiter.call]? = some (.put waiter.swapData)
    ∧ msgq.usedMsgs = msgq.maxMsgs)
  ∨ (ledger.operations[waiter.call]? = some .get ∧ msgq.usedMsgs = 0)

structure Tracks (msgq : KMsgq size) (ledger : Ledger size) : Prop where
  holds : ∃ first messages, msgq.Holds first messages ∧ ledger.Balanced messages
  consistent : ledger.Consistent (msgq.waitQ.map Waiter.call)
  waiting : ∀ waiter ∈ msgq.waitQ, Waits msgq ledger waiter

/-! ### The waiting threads -/

variable {msgq : KMsgq size} {ledger : Ledger size} {waiter self : Waiter size}
  {rest : List (Waiter size)} {prio : Nat → Int}

theorem Waits.congr {other : KMsgq size} {later : Ledger size} (waits : Waits msgq ledger waiter)
    (known : later.operations[waiter.call]? = ledger.operations[waiter.call]?)
    (max : other.maxMsgs = msgq.maxMsgs) (used : other.usedMsgs = msgq.usedMsgs)
    : Waits other later waiter := by
  unfold Waits
  rw [known, max, used]
  exact waits

theorem Waits.get_of_room (waits : Waits msgq ledger waiter)
    (room : msgq.usedMsgs < msgq.maxMsgs)
    : ledger.operations[waiter.call]? = some .get ∧ msgq.usedMsgs = 0 := by
  rcases waits with ⟨-, full⟩ | empty
  · omega
  · exact empty

theorem Waits.put_of_used (waits : Waits msgq ledger waiter) (used : 0 < msgq.usedMsgs)
    : ledger.operations[waiter.call]? = some (.put waiter.swapData)
      ∧ msgq.usedMsgs = msgq.maxMsgs := by
  rcases waits with full | ⟨-, empty⟩
  · exact full
  · omega

theorem Tracks.operation_old (tracks : Tracks msgq ledger) (member : waiter ∈ msgq.waitQ)
    (operation : FifoOperation (Message size))
    : (ledger.invoke operation).operations[waiter.call]? = ledger.operations[waiter.call]? :=
  FifoLedger.invoke_old (tracks.consistent.waiting_lt (List.mem_map_of_mem member))

theorem Tracks.pend {operation : FifoOperation (Message size)} (tracks : Tracks msgq ledger)
    (call : self.call = ledger.operations.length)
    (waits : Waits msgq (ledger.invoke operation) self)
    : Tracks (zPendCurr prio msgq self) (ledger.invoke operation) := by
  have queued : (zPendCurr prio msgq self).waitQ.Perm (self :: msgq.waitQ) := by
    rw [zPendCurr, zPriqDumbAdd_eq_stableInsert]
    exact perm_stableInsert _ _ _
  obtain ⟨first, messages, holds, balanced⟩ := tracks.holds
  refine ⟨⟨first, messages, holds.waitQ _, balanced⟩, ?_, ?_⟩
  · refine FifoLedger.Consistent.perm ?_ (queued.map Waiter.call)
    rw [List.map_cons, call]
    exact tracks.consistent.invoke operation
  · intro waiter member
    rcases List.mem_cons.mp (queued.subset member) with rfl | old
    · exact waits
    · exact (tracks.waiting waiter old).congr (tracks.operation_old old operation) rfl rfl

theorem Tracks.fail {operation : FifoOperation (Message size)} {result : Int}
    (tracks : Tracks msgq ledger) (failure : result ≠ 0) (data : Message size)
    : Tracks msgq
        ((ledger.invoke operation).settle ⟨ledger.operations.length, result, data⟩) := by
  obtain ⟨first, messages, holds, balanced⟩ := tracks.holds
  refine ⟨⟨first, messages, holds, ?_⟩, ?_, ?_⟩
  · have invoked : (ledger.invoke operation).Balanced messages := balanced
    exact invoked.failure failure
  · exact (tracks.consistent.invoke operation).settle
  · intro waiter member
    refine (tracks.waiting waiter member).congr ?_ rfl rfl
    rw [FifoLedger.settle_operations, tracks.operation_old member]

/-! ### One step -/

theorem Tracks.put (tracks : Tracks msgq ledger) (call : self.call = ledger.operations.length)
    : Tracks (kMsgqPut prio msgq self).1
        ((kMsgqPut prio msgq self).2.foldl FifoLedger.settle
          (ledger.invoke (.put self.swapData))) := by
  have known : (ledger.invoke (.put self.swapData)).operations[self.call]?
      = some (.put self.swapData) := call ▸ FifoLedger.invoke_new
  have invoked := tracks.consistent.invoke (.put self.swapData)
  rw [← call] at invoked
  obtain ⟨first, messages, holds, balanced⟩ := tracks.holds
  have balanced : (ledger.invoke (.put self.swapData)).Balanced messages := balanced
  rw [kMsgqPut]
  by_cases room : msgq.usedMsgs < msgq.maxMsgs
  · rw [if_pos room]
    cases queue : msgq.waitQ with
    | nil =>
        rw [queue] at invoked
        simp only [List.foldl_cons, List.foldl_nil]
        refine ⟨⟨first, _, holds.push room _, balanced.put _ rfl known⟩, ?_, ?_⟩
        · change FifoLedger.Consistent _ (msgq.waitQ.map Waiter.call)
          rw [queue]
          exact invoked.settle
        · intro waiter member
          have : waiter ∈ msgq.waitQ := member
          simp [queue] at this
    | cons pendingThread rest =>
        -- the waiter is a reader, so nothing is stored and it gets this very message
        have member : pendingThread ∈ msgq.waitQ := queue ▸ List.mem_cons_self
        obtain ⟨reader, empty⟩ := (tracks.waiting pendingThread member).get_of_room room
        obtain rfl := List.eq_nil_of_length_eq_zero (holds.length_eq.trans empty)
        have settled := balanced.put ⟨self.call, 0, self.swapData⟩ rfl known
        rw [queue, List.map_cons] at invoked
        simp only [List.foldl_cons, List.foldl_nil]
        refine ⟨⟨first, [], holds.waitQ rest, ?_⟩, invoked.settle.settle, ?_⟩
        · refine FifoLedger.Balanced.get _ settled rfl ?_
          rw [FifoLedger.settle_operations, tracks.operation_old member, reader]
        · intro waiter later
          have old : waiter ∈ msgq.waitQ := queue ▸ List.mem_cons_of_mem _ later
          refine (tracks.waiting waiter old).congr ?_ rfl rfl
          rw [FifoLedger.settle_operations, FifoLedger.settle_operations,
            tracks.operation_old old]
  · rw [if_neg room]
    by_cases noWait : self.timeout = kNoWait
    · rw [if_pos noWait, call]
      exact tracks.fail (show -enomsg ≠ 0 by decide) _
    · rw [if_neg noWait]
      have full : msgq.usedMsgs = msgq.maxMsgs := by
        have := holds.bounded
        omega
      exact tracks.pend call (.inl ⟨known, full⟩)

theorem Tracks.get (tracks : Tracks msgq ledger) (call : self.call = ledger.operations.length)
    : Tracks (kMsgqGet prio msgq self).1
        ((kMsgqGet prio msgq self).2.foldl FifoLedger.settle (ledger.invoke .get)) := by
  have known : (ledger.invoke .get).operations[self.call]? = some .get :=
    call ▸ FifoLedger.invoke_new
  have invoked := tracks.consistent.invoke .get
  rw [← call] at invoked
  obtain ⟨first, messages, holds, balanced⟩ := tracks.holds
  have balanced : (ledger.invoke .get).Balanced messages := balanced
  rw [kMsgqGet]
  by_cases used : 0 < msgq.usedMsgs
  · rw [if_pos used]
    cases messages with
    | nil => exact absurd holds.length_eq (Nat.ne_of_lt used)
    | cons message later =>
        rw [holds.load_read]
        have taken := FifoLedger.Balanced.get ⟨self.call, 0, message⟩ balanced rfl known
        cases queue : msgq.waitQ with
        | nil =>
            rw [queue] at invoked
            simp only [List.foldl_cons, List.foldl_nil]
            refine ⟨⟨_, later, holds.pop, taken⟩, ?_, ?_⟩
            · change FifoLedger.Consistent _ (msgq.waitQ.map Waiter.call)
              rw [queue]
              exact invoked.settle
            · intro waiter member
              have : waiter ∈ msgq.waitQ := member
              simp [queue] at this
        | cons pendingThread rest =>
            -- the waiter is a writer, and its message takes the slot that is now free
            have member : pendingThread ∈ msgq.waitQ := queue ▸ List.mem_cons_self
            obtain ⟨writer, full⟩ := (tracks.waiting pendingThread member).put_of_used used
            have room : msgq.pop.usedMsgs < msgq.pop.maxMsgs := by
              change msgq.usedMsgs - 1 < msgq.maxMsgs
              omega
            have same : (msgq.pop.push pendingThread.swapData).usedMsgs = msgq.usedMsgs := by
              change msgq.usedMsgs - 1 + 1 = msgq.usedMsgs
              omega
            rw [queue, List.map_cons] at invoked
            simp only [List.foldl_cons, List.foldl_nil]
            refine ⟨⟨_, _, (holds.pop.push room pendingThread.swapData).waitQ rest, ?_⟩,
              invoked.settle.settle, ?_⟩
            · refine FifoLedger.Balanced.put taken _ rfl ?_
              rw [FifoLedger.settle_operations, tracks.operation_old member, writer]
            · intro waiter later
              have old : waiter ∈ msgq.waitQ := queue ▸ List.mem_cons_of_mem _ later
              refine (tracks.waiting waiter old).congr ?_ rfl same
              rw [FifoLedger.settle_operations, FifoLedger.settle_operations,
                tracks.operation_old old]
  · rw [if_neg used]
    by_cases noWait : self.timeout = kNoWait
    · rw [if_pos noWait, call]
      exact tracks.fail (show -enomsg ≠ 0 by decide) _
    · rw [if_neg noWait]
      exact tracks.pend call (.inr ⟨known, by omega⟩)

theorem settle_failures {messages : List (Message size)} {result : Int} (failure : result ≠ 0)
    (waitQ : List (Waiter size)) {ledger : Ledger size}
    (consistent : ledger.Consistent (waitQ.map Waiter.call)) (balanced : ledger.Balanced messages)
    : let settled :=
        (waitQ.map (fun waiter => (⟨waiter.call, result, waiter.swapData⟩ : Return size))).foldl
          FifoLedger.settle ledger
      settled.Consistent [] ∧ settled.Balanced messages := by
  induction waitQ generalizing ledger with
  | nil => exact ⟨consistent, balanced⟩
  | cons waiter rest ih =>
      exact ih (FifoLedger.Consistent.settle consistent) (balanced.failure failure)

theorem Tracks.purge (tracks : Tracks msgq ledger)
    : Tracks (kMsgqPurge msgq).1 ((kMsgqPurge msgq).2.foldl FifoLedger.settle ledger.purge) := by
  obtain ⟨first, messages, holds, balanced⟩ := tracks.holds
  obtain ⟨consistent, empty⟩ :=
    settle_failures (show -enomsg ≠ 0 by decide) msgq.waitQ tracks.consistent.purge
      balanced.purge
  refine ⟨⟨_, [], holds.clear, empty⟩, consistent, ?_⟩
  intro waiter member
  cases member

theorem Tracks.waitTimeout (tracks : Tracks msgq ledger) (member : waiter ∈ msgq.waitQ)
    : Tracks (waitTimeout msgq waiter).1
        ((waitTimeout msgq waiter).2.foldl FifoLedger.settle ledger) := by
  obtain ⟨first, messages, holds, balanced⟩ := tracks.holds
  simp only [MsgQ.waitTimeout, List.foldl_cons, List.foldl_nil]
  refine ⟨⟨first, messages, holds.waitQ _, balanced.failure (show -eagain ≠ 0 by decide)⟩,
    ?_, ?_⟩
  · refine FifoLedger.Consistent.settle ?_
    exact tracks.consistent.perm ((List.perm_cons_erase member).symm.map Waiter.call)
  · intro other remains
    refine (tracks.waiting other (List.mem_of_mem_erase remains)).congr ?_ rfl rfl
    exact congrArg (fun operations => operations[other.call]?) FifoLedger.settle_operations

theorem Tracks.initial (buffer : Nat → UInt8) (maxMsgs : Nat)
    : Tracks (kMsgqInit buffer maxMsgs : KMsgq size) {} where
  holds := ⟨0, [], KMsgq.Holds.init buffer maxMsgs, rfl⟩
  consistent := .initial
  waiting := by
    intro waiter member
    cases member

theorem Tracks.step {system next : System size} {call : Call size} {returns : List (Return size)}
    (tracks : Tracks system.msgq ledger) (calls : system.calls = ledger.operations.length)
    (stepped : MsgQ.step system call = some (next, returns))
    : Tracks next.msgq (returns.foldl FifoLedger.settle (record ledger call)) := by
  cases call with
  | put thread data timeout =>
      obtain ⟨-, same⟩ := Option.ite_none_right_eq_some.mp stepped
      cases same
      exact tracks.put calls
  | get thread data timeout =>
      obtain ⟨-, same⟩ := Option.ite_none_right_eq_some.mp stepped
      cases same
      exact tracks.get calls
  | purge =>
      cases stepped
      exact tracks.purge
  | timeout thread =>
      simp only [MsgQ.step] at stepped
      split at stepped
      · cases stepped
        exact tracks.waitTimeout (List.mem_of_find?_eq_some ‹_›)
      · cases stepped
  | prioSet thread prio =>
      cases stepped
      exact tracks

theorem step_calls {system next : System size} {call : Call size} {returns : List (Return size)}
    (calls : system.calls = ledger.operations.length)
    (stepped : MsgQ.step system call = some (next, returns))
    : next.calls = (returns.foldl FifoLedger.settle (record ledger call)).operations.length := by
  rw [FifoLedger.foldl_settle_operations]
  cases call with
  | put thread data timeout =>
      obtain ⟨-, same⟩ := Option.ite_none_right_eq_some.mp stepped
      cases same
      simp [record, FifoLedger.invoke, calls]
  | get thread data timeout =>
      obtain ⟨-, same⟩ := Option.ite_none_right_eq_some.mp stepped
      cases same
      simp [record, FifoLedger.invoke, calls]
  | purge =>
      cases stepped
      exact calls
  | timeout thread =>
      simp only [MsgQ.step] at stepped
      split at stepped
      · cases stepped
        exact calls
      · cases stepped
  | prioSet thread prio =>
      cases stepped
      exact calls

/-! ### What every interleaving delivers -/

/-- In every interleaving, the messages accepted from the puts that returned 0 are those that
gets returned, those purged and those still stored, in the order of acceptance and unchanged.
Each successful put is accepted once, and each successful get removes one message. Each call
returns once or still waits, a put only while the queue is full and a get only while it is
empty. The write pointer is `used_msgs` messages behind the read pointer.
Witness: the ledger tracks the queue along the run.
-/
theorem messages_delivered_once {buffer : Nat → UInt8} {maxMsgs : Nat} {prio : Nat → Int}
    {calls : List (Call size)} {system : System size} {ledger : Ledger size}
    (ran
      : run recordedStep (recordedStart buffer maxMsgs prio) calls = some (system, ledger))
    : ledger.accepted.map Prod.snd = ledger.removed.map Prod.snd ++ system.msgq.stored
      ∧ (∀ call message,
          (call, message) ∈ ledger.accepted
          ↔ ledger.operations[call]? = some (.put message) ∧ (call, 0) ∈ ledger.results)
      ∧ (ledger.accepted.map Prod.fst).Nodup
      ∧ (∀ call,
          some call ∈ ledger.removed.map Prod.fst
          ↔ ledger.operations[call]? = some .get ∧ (call, 0) ∈ ledger.results)
      ∧ (ledger.removed.filterMap Prod.fst).Nodup
      ∧ (system.msgq.waitQ.map Waiter.call ++ ledger.results.map Prod.fst).Perm
          (List.range ledger.operations.length)
      ∧ (∀ waiter ∈ system.msgq.waitQ, Waits system.msgq ledger waiter)
      ∧ ledger.accepted.length = ledger.removed.length + system.msgq.usedMsgs
      ∧ system.msgq.advance^[system.msgq.usedMsgs] system.msgq.readPtr = system.msgq.writePtr
      ∧ system.msgq.usedMsgs ≤ system.msgq.maxMsgs := by
  have invariant : Tracks system.msgq ledger ∧ system.calls = ledger.operations.length := by
    refine run_invariant
      (fun state => Tracks state.1.msgq state.2 ∧ state.1.calls = state.2.operations.length)
      ?_ ⟨Tracks.initial buffer maxMsgs, rfl⟩ ran
    rintro state call next ⟨tracks, calls⟩ stepped
    obtain ⟨result, stepped', rfl⟩ := Option.map_eq_some_iff.mp stepped
    exact ⟨tracks.step calls stepped', step_calls calls stepped'⟩
  obtain ⟨tracks, -⟩ := invariant
  obtain ⟨first, messages, holds, balanced⟩ := tracks.holds
  refine ⟨holds.stored_eq ▸ balanced, tracks.consistent.accepted, tracks.consistent.acceptedOnce,
    tracks.consistent.removed, tracks.consistent.removedOnce, tracks.consistent.calls,
    tracks.waiting, ?_, holds.write_eq, holds.bounded⟩
  have count := congrArg List.length balanced
  rwa [List.length_append, List.length_map, List.length_map, holds.length_eq] at count

/-- A queue of one slot: a second put waits for the slot, a third times out, and the last
put goes to the get that waits for it.
-/
def deliveryCalls : List (Call 1) :=
  [.put 1 #v[10] kNoWait, .put 2 #v[20] kForever, .get 3 #v[0] kNoWait, .put 4 #v[30] ⟨5⟩,
    .timeout 4, .get 3 #v[0] kNoWait, .get 5 #v[0] ⟨5⟩, .put 1 #v[40] kNoWait]

theorem deliveryCalls_delivered_once
    : ∃ system ledger,
        run recordedStep (recordedStart (fun _ => 0) 1 (fun _ => 0)) deliveryCalls
          = some (system, ledger)
        ∧ ledger.removed = [(some 2, #v[10]), (some 4, #v[20]), (some 5, #v[40])]
        ∧ ledger.accepted.map Prod.snd = ledger.removed.map Prod.snd ++ system.msgq.stored := by
  obtain ⟨state, ran⟩
      : ∃ state,
          run recordedStep (recordedStart (fun _ => 0) 1 (fun _ => 0)) deliveryCalls
            = some state :=
    Option.isSome_iff_exists.mp (by decide)
  refine ⟨state.1, state.2, ran, ?_, (messages_delivered_once ran).1⟩
  have removed : (run recordedStep (recordedStart (fun _ => 0) 1 (fun _ => 0)) deliveryCalls).map
      (fun state => state.2.removed)
      = some [(some 2, #v[10]), (some 4, #v[20]), (some 5, #v[40])] := by decide
  simpa [ran] using removed

/-! ### What is shown without being removed -/

/-- In every interleaving, `k_msgq_peek_at` shows the accepted message that has `idx` others before
it until it is removed, and `k_msgq_peek` the next one.
-/
theorem peeks_show_next {buffer : Nat → UInt8} {maxMsgs : Nat} {prio : Nat → Int}
    {calls : List (Call size)} {system : System size} {ledger : Ledger size}
    (ran
      : run recordedStep (recordedStart buffer maxMsgs prio) calls = some (system, ledger))
    (data : Message size) (idx : Nat)
    : kMsgqPeekAt system.msgq data idx
        = (ledger.accepted.map Prod.snd)[ledger.removed.length + idx]?.elim (-enomsg, data)
            (fun message => (0, message))
      ∧ kMsgqPeek system.msgq data = kMsgqPeekAt system.msgq data 0 := by
  have invariant : Tracks system.msgq ledger ∧ system.calls = ledger.operations.length := by
    refine run_invariant
      (fun state => Tracks state.1.msgq state.2 ∧ state.1.calls = state.2.operations.length)
      ?_ ⟨Tracks.initial buffer maxMsgs, rfl⟩ ran
    rintro state call next ⟨tracks, calls⟩ stepped
    obtain ⟨result, stepped', rfl⟩ := Option.map_eq_some_iff.mp stepped
    exact ⟨tracks.step calls stepped', step_calls calls stepped'⟩
  obtain ⟨first, messages, holds, balanced⟩ := invariant.1.holds
  refine ⟨?_, holds.peek data⟩
  rw [holds.peekAt, balanced, List.getElem?_append_right (by simp), List.length_map,
    Nat.add_sub_cancel_left]
  cases messages[idx]? with
  | none => rfl
  | some message => rfl

theorem deliveryCalls_show_next
    : ∃ system ledger,
        run recordedStep (recordedStart (fun _ => 0) 1 (fun _ => 0)) (deliveryCalls.take 3)
          = some (system, ledger)
        ∧ kMsgqPeek system.msgq #v[0] = kMsgqPeekAt system.msgq #v[0] 0 := by
  obtain ⟨state, ran⟩
      : ∃ state,
          run recordedStep (recordedStart (fun _ => 0) 1 (fun _ => 0)) (deliveryCalls.take 3)
            = some state :=
    Option.isSome_iff_exists.mp (by decide)
  exact ⟨state.1, state.2, ran, (peeks_show_next ran #v[0] 0).2⟩

end Zephyr.Kernel.MsgQ
