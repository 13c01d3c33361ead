import Zephyr.Kernel.Base
import Zephyr.Library.FifoLedger
import Zephyr.Library.Ring

/-! The message queue of `msg_q.c`.
Pointers are byte offsets from `buffer_start`. A function runs under the queue's lock up to the
point where it returns or pends, so it is one step; it reports every call that it ended,
which are its own unless it pends, and those of the threads it woke.
-/

namespace Zephyr.Kernel.MsgQ

open Zephyr.Library

abbrev Message (size : Nat) : Type := Vector UInt8 size

/-- A thread pended in `call`; `swapData` is the memory its `swap_data` points at. -/
structure Waiter (size : Nat) where
  thread : Nat
  call : Nat
  timeout : KTimeout
  swapData : Message size
  deriving DecidableEq, Repr

/-- `struct k_msgq` for messages of `size` bytes. -/
structure KMsgq (size : Nat) where
  maxMsgs : Nat
  buffer : Nat → UInt8
  readPtr : Nat
  writePtr : Nat
  usedMsgs : Nat
  waitQ : List (Waiter size)

abbrev Return (size : Nat) : Type := FifoReturn (Message size)

variable {size : Nat}

def kMsgqInit (buffer : Nat → UInt8) (maxMsgs : Nat) : KMsgq size where
  maxMsgs := maxMsgs
  buffer := buffer
  readPtr := 0
  writePtr := 0
  usedMsgs := 0
  waitQ := []

/-! ### Copies and pointers -/

/-- `memcpy` of one message out of the buffer. -/
def load (buffer : Nat → UInt8) (ptr : Nat) : Message size :=
  Vector.ofFn (fun i => buffer (ptr + i))

/-- `memcpy` of one message into the buffer. -/
def store (buffer : Nat → UInt8) (ptr : Nat) (data : Message size) : Nat → UInt8 :=
  fun offset =>
    if within : ptr ≤ offset ∧ offset - ptr < size then data.get ⟨offset - ptr, within.2⟩
    else buffer offset

namespace KMsgq

def bufferEnd (msgq : KMsgq size) : Nat :=
  msgq.maxMsgs * size

/-- Move a pointer over one message, back to `buffer_start` from `buffer_end`. -/
def advance (msgq : KMsgq size) (ptr : Nat) : Nat :=
  if ptr + size = msgq.bufferEnd then 0 else ptr + size

/-- The part of put and get that copies a message to `write_ptr`. -/
def push (msgq : KMsgq size) (data : Message size) : KMsgq size :=
  { msgq with
    buffer := store msgq.buffer msgq.writePtr data
    writePtr := msgq.advance msgq.writePtr
    usedMsgs := msgq.usedMsgs + 1 }

/-- The part of get that moves `read_ptr` past the first message. -/
def pop (msgq : KMsgq size) : KMsgq size :=
  { msgq with readPtr := msgq.advance msgq.readPtr, usedMsgs := msgq.usedMsgs - 1 }

/-- The stored messages, met by walking from `read_ptr`. -/
def stored (msgq : KMsgq size) : List (Message size) :=
  (List.range msgq.usedMsgs).map (fun i => load msgq.buffer (msgq.advance^[i] msgq.readPtr))

end KMsgq

/-! ### The queue's functions -/

/-- `z_pend_curr`: the calling thread joins the wait queue by its priority. -/
def zPendCurr (prio : Nat → Int) (msgq : KMsgq size) (self : Waiter size) : KMsgq size :=
  { msgq with waitQ := zPriqDumbAdd (fun waiter => prio waiter.thread) self msgq.waitQ }

def kMsgqPut (prio : Nat → Int) (msgq : KMsgq size) (self : Waiter size)
    : KMsgq size × List (Return size) :=
  if msgq.usedMsgs < msgq.maxMsgs then
    match msgq.waitQ with
    | pendingThread :: rest =>
        -- the copy goes to the waiter's own buffer, whatever it waits for
        ({ msgq with waitQ := rest },
          [⟨self.call, 0, self.swapData⟩, ⟨pendingThread.call, 0, self.swapData⟩])
    | [] => (msgq.push self.swapData, [⟨self.call, 0, self.swapData⟩])
  else if self.timeout = kNoWait then (msgq, [⟨self.call, -enomsg, self.swapData⟩])
  else (zPendCurr prio msgq self, [])

def kMsgqGet (prio : Nat → Int) (msgq : KMsgq size) (self : Waiter size)
    : KMsgq size × List (Return size) :=
  if 0 < msgq.usedMsgs then
    let data := load msgq.buffer msgq.readPtr
    match msgq.waitQ with
    | pendingThread :: rest =>
        ({ msgq.pop.push pendingThread.swapData with waitQ := rest },
          [⟨self.call, 0, data⟩, ⟨pendingThread.call, 0, pendingThread.swapData⟩])
    | [] => (msgq.pop, [⟨self.call, 0, data⟩])
  else if self.timeout = kNoWait then (msgq, [⟨self.call, -enomsg, self.swapData⟩])
  else (zPendCurr prio msgq self, [])

def kMsgqPeek (msgq : KMsgq size) (data : Message size) : Int × Message size :=
  if 0 < msgq.usedMsgs then (0, load msgq.buffer msgq.readPtr) else (-enomsg, data)

def kMsgqPeekAt (msgq : KMsgq size) (data : Message size) (idx : Nat) : Int × Message size :=
  if idx < msgq.usedMsgs then
    let bytesToEnd := msgq.bufferEnd - msgq.readPtr
    let byteOffset := idx * size
    if bytesToEnd ≤ byteOffset then (0, load msgq.buffer (byteOffset - bytesToEnd))
    else (0, load msgq.buffer (msgq.readPtr + byteOffset))
  else (-enomsg, data)

def kMsgqPurge (msgq : KMsgq size) : KMsgq size × List (Return size) :=
  ({ msgq with waitQ := [], usedMsgs := 0, readPtr := msgq.writePtr },
    msgq.waitQ.map (fun waiter => ⟨waiter.call, -enomsg, waiter.swapData⟩))

/-- The wait of `waiter` times out: it leaves the queue and its call returns `-EAGAIN`. -/
def waitTimeout (msgq : KMsgq size) (waiter : Waiter size) : KMsgq size × List (Return size) :=
  ({ msgq with waitQ := msgq.waitQ.erase waiter }, [⟨waiter.call, -eagain, waiter.swapData⟩])

/-! ### Interleavings -/

inductive Call (size : Nat) where
  | put (thread : Nat) (data : Message size) (timeout : KTimeout)
  | get (thread : Nat) (data : Message size) (timeout : KTimeout)
  | purge
  | timeout (thread : Nat)
  | prioSet (thread : Nat) (prio : Int)
  deriving DecidableEq, Repr

/-- The queue, the threads' priorities and the number of puts and gets made so far. -/
structure System (size : Nat) where
  msgq : KMsgq size
  prio : Nat → Int
  calls : Nat

/-- Only a thread that is not pended makes a call; an interrupt makes calls that do not wait. -/
def mayCall (msgq : KMsgq size) (thread : Nat) (timeout : KTimeout) : Bool :=
  timeout = kNoWait || msgq.waitQ.all (fun waiter => waiter.thread ≠ thread)

def step (system : System size) : Call size → Option (System size × List (Return size))
  | .put thread data timeout =>
      if mayCall system.msgq thread timeout then
        let (msgq, returns) :=
          kMsgqPut system.prio system.msgq ⟨thread, system.calls, timeout, data⟩
        some ({ system with msgq := msgq, calls := system.calls + 1 }, returns)
      else none
  | .get thread data timeout =>
      if mayCall system.msgq thread timeout then
        let (msgq, returns) :=
          kMsgqGet system.prio system.msgq ⟨thread, system.calls, timeout, data⟩
        some ({ system with msgq := msgq, calls := system.calls + 1 }, returns)
      else none
  | .purge =>
      let (msgq, returns) := kMsgqPurge system.msgq
      some ({ system with msgq := msgq }, returns)
  | .timeout thread =>
      match system.msgq.waitQ.find?
          (fun waiter => waiter.thread = thread ∧ waiter.timeout ≠ kForever) with
      | some waiter =>
          let (msgq, returns) := waitTimeout system.msgq waiter
          some ({ system with msgq := msgq }, returns)
      | none => none
  | .prioSet thread prio =>
      some ({ system with prio := Function.update system.prio thread prio }, [])

end Zephyr.Kernel.MsgQ

/-! The buffer of a message queue is a ring of whole messages. -/

namespace Zephyr.Kernel.MsgQ

open Zephyr.Library

variable {size : Nat}

/-- The message in slot `index` of the buffer. -/
def slot (buffer : Nat → UInt8) (index : Nat) : Message size :=
  load buffer (index * size)

/-- The pointers of the queue delimit `messages`, which start in slot `first`. -/
structure KMsgq.Holds (msgq : KMsgq size) (first : Nat) (messages : List (Message size))
    : Prop where
  inside : first < msgq.maxMsgs ∨ (first = 0 ∧ msgq.maxMsgs = 0)
  read : msgq.readPtr = first * size
  write : msgq.writePtr = (first + msgq.usedMsgs) % msgq.maxMsgs * size
  bounded : msgq.usedMsgs ≤ msgq.maxMsgs
  contents : window (slot msgq.buffer) msgq.maxMsgs first msgq.usedMsgs = messages

theorem load_store_self (buffer : Nat → UInt8) (ptr : Nat) (data : Message size)
    : load (store buffer ptr data) ptr = data := by
  ext i bound
  simp [load, store, Vector.get]

theorem slot_store (buffer : Nat → UInt8) (index : Nat) (data : Message size)
    : slot (store buffer (index * size) data) = Function.update (slot buffer) index data := by
  funext other
  by_cases same : other = index
  · subst same
    rw [Function.update_self]
    exact load_store_self _ _ _
  · rw [Function.update_of_ne same]
    ext i bound
    have apart : ¬(index * size ≤ other * size + i ∧ other * size + i - index * size < size) := by
      rcases Nat.lt_or_gt_of_ne same with before | after
      · have := Nat.mul_le_mul_right size (Nat.succ_le_of_lt before)
        rw [Nat.succ_mul] at this
        omega
      · have := Nat.mul_le_mul_right size (Nat.succ_le_of_lt after)
        rw [Nat.succ_mul] at this
        omega
    simp only [slot, load, store, Vector.getElem_ofFn, dif_neg apart]

namespace KMsgq

theorem advance_slot {msgq : KMsgq size} {index : Nat} (inside : index < msgq.maxMsgs)
    : msgq.advance (index * size) = (index + 1) % msgq.maxMsgs * size := by
  rw [advance, bufferEnd, ← Nat.succ_mul]
  rcases Nat.eq_zero_or_pos size with rfl | positive
  · simp
  · rcases Nat.lt_or_ge (index + 1) msgq.maxMsgs with before | last
    · rw [Nat.mod_eq_of_lt before, if_neg]
      intro same
      have := Nat.eq_of_mul_eq_mul_right positive same
      omega
    · obtain wrapped : index + 1 = msgq.maxMsgs := by omega
      rw [Nat.succ_eq_add_one, wrapped, Nat.mod_self, Nat.zero_mul, if_pos rfl]

theorem advance_iterate {msgq : KMsgq size} {first : Nat} (inside : first < msgq.maxMsgs)
    (count : Nat)
    : msgq.advance^[count] (first * size) = (first + count) % msgq.maxMsgs * size := by
  induction count with
  | zero => simp [Nat.mod_eq_of_lt inside]
  | succ count ih =>
      have positive : 0 < msgq.maxMsgs := by omega
      rw [Function.iterate_succ_apply', ih, advance_slot (Nat.mod_lt _ positive),
        Nat.mod_add_mod, Nat.add_assoc]

variable {msgq : KMsgq size} {first : Nat} {messages : List (Message size)}

theorem Holds.length_eq (holds : msgq.Holds first messages) : messages.length = msgq.usedMsgs := by
  rw [← holds.contents, window_length]

/-- Walking from `read_ptr` meets exactly the messages that are held. -/
theorem Holds.stored_eq (holds : msgq.Holds first messages) : msgq.stored = messages := by
  rw [← holds.contents, stored, window, holds.read]
  rcases holds.inside with inside | ⟨-, none⟩
  · simp only [advance_iterate inside, slot]
  · have unused : msgq.usedMsgs = 0 := by have := holds.bounded; omega
    simp [unused]

/-- The write pointer is `used_msgs` messages behind the read pointer. -/
theorem Holds.write_eq (holds : msgq.Holds first messages)
    : msgq.advance^[msgq.usedMsgs] msgq.readPtr = msgq.writePtr := by
  rw [holds.write, holds.read]
  rcases holds.inside with inside | ⟨start, none⟩
  · exact advance_iterate inside _
  · have unused : msgq.usedMsgs = 0 := by have := holds.bounded; omega
    simp [unused, start]

theorem Holds.push (holds : msgq.Holds first messages) (room : msgq.usedMsgs < msgq.maxMsgs)
    (data : Message size)
    : (msgq.push data).Holds first (messages ++ [data]) := by
  have positive : 0 < msgq.maxMsgs := by omega
  refine ⟨holds.inside, holds.read, ?_, room, ?_⟩
  · change msgq.advance msgq.writePtr = _
    rw [holds.write, advance_slot (Nat.mod_lt _ positive), Nat.mod_add_mod, Nat.add_assoc]
    rfl
  · change window (slot (store msgq.buffer msgq.writePtr data)) msgq.maxMsgs first
      (msgq.usedMsgs + 1) = _
    rw [holds.write, slot_store, window_push room, holds.contents]

theorem Holds.load_read {data : Message size} {rest : List (Message size)}
    (holds : msgq.Holds first (data :: rest))
    : load msgq.buffer msgq.readPtr = data := by
  have used : rest.length + 1 = msgq.usedMsgs := holds.length_eq
  have inside : first < msgq.maxMsgs := by
    have := holds.bounded
    have := holds.inside
    omega
  have head := holds.contents
  rw [← used, window_pop, Nat.mod_eq_of_lt inside] at head
  rw [holds.read]
  exact (List.cons.inj head).1

theorem Holds.pop {data : Message size} {rest : List (Message size)}
    (holds : msgq.Holds first (data :: rest))
    : msgq.pop.Holds ((first + 1) % msgq.maxMsgs) rest := by
  have used : rest.length + 1 = msgq.usedMsgs := holds.length_eq
  have bounded := holds.bounded
  have inside : first < msgq.maxMsgs := by
    have := holds.inside
    omega
  have positive : 0 < msgq.maxMsgs := by omega
  have fewer : msgq.usedMsgs - 1 = rest.length := by omega
  refine ⟨.inl (Nat.mod_lt _ positive), ?_, ?_, Nat.le_trans (Nat.sub_le _ 1) bounded, ?_⟩
  · change msgq.advance msgq.readPtr = _
    rw [holds.read, advance_slot inside]
  · change msgq.writePtr = ((first + 1) % msgq.maxMsgs + (msgq.usedMsgs - 1)) % msgq.maxMsgs * size
    rw [holds.write, fewer, ← used, Nat.mod_add_mod]
    congr 2
    omega
  · have tail := holds.contents
    rw [← used, window_pop] at tail
    change window _ _ _ (msgq.usedMsgs - 1) = rest
    rw [fewer]
    exact (List.cons.inj tail).2

theorem Holds.clear (holds : msgq.Holds first messages)
    : (kMsgqPurge msgq).1.Holds ((first + msgq.usedMsgs) % msgq.maxMsgs) [] := by
  refine ⟨?_, holds.write, ?_, Nat.zero_le _, rfl⟩
  · rcases holds.inside with inside | ⟨start, none⟩
    · exact .inl (Nat.mod_lt _ (Nat.zero_lt_of_lt inside))
    · have unused : msgq.usedMsgs = 0 := by have := holds.bounded; omega
      exact .inr ⟨by simp [unused, start], none⟩
  · change msgq.writePtr = ((first + msgq.usedMsgs) % msgq.maxMsgs + 0) % msgq.maxMsgs * size
    rw [holds.write, Nat.add_zero, Nat.mod_mod]

theorem Holds.init (buffer : Nat → UInt8) (maxMsgs : Nat)
    : (kMsgqInit buffer maxMsgs : KMsgq size).Holds 0 [] where
  inside := by
    rcases Nat.eq_zero_or_pos maxMsgs with none | positive
    · exact .inr ⟨rfl, none⟩
    · exact .inl positive
  read := by simp [kMsgqInit]
  write := by simp [kMsgqInit]
  bounded := Nat.zero_le _
  contents := rfl

/-- Only the wait queue differs, so the same messages are held. -/
theorem Holds.waitQ (holds : msgq.Holds first messages) (waitQ : List (Waiter size))
    : { msgq with waitQ := waitQ }.Holds first messages :=
  ⟨holds.inside, holds.read, holds.write, holds.bounded, holds.contents⟩

/-- Peeking at `idx` copies the message that `idx + 1` gets would return last. -/
theorem Holds.peekAt (holds : msgq.Holds first messages) (data : Message size) (idx : Nat)
    : kMsgqPeekAt msgq data idx
      = match messages[idx]? with
        | some message => (0, message)
        | none => (-enomsg, data) := by
  rw [kMsgqPeekAt]
  rcases Nat.lt_or_ge idx msgq.usedMsgs with present | absent
  · have bounded := holds.bounded
    have inside : first < msgq.maxMsgs := by
      have := holds.inside
      omega
    have found : messages[idx]? = some (slot msgq.buffer ((first + idx) % msgq.maxMsgs)) := by
      rw [← holds.contents]
      simp [window, present]
    have toEnd : msgq.bufferEnd - msgq.readPtr = (msgq.maxMsgs - first) * size := by
      rw [bufferEnd, holds.read, Nat.sub_mul]
    rw [if_pos present, found, toEnd]
    simp only [slot]
    rcases Nat.lt_or_ge (first + idx) msgq.maxMsgs with before | wrapped
    · rw [Nat.mod_eq_of_lt before, Nat.add_mul, holds.read]
      rcases Nat.eq_zero_or_pos size with rfl | positive
      · simp
      · have := Nat.mul_lt_mul_of_pos_right (show idx < msgq.maxMsgs - first by omega) positive
        rw [if_neg (by omega)]
    · have index : (first + idx) % msgq.maxMsgs = idx - (msgq.maxMsgs - first) := by
        rw [Nat.mod_eq_sub_mod wrapped, Nat.mod_eq_of_lt (by omega)]
        omega
      rw [if_pos (Nat.mul_le_mul_right _ (by omega)), index, Nat.sub_mul idx]
  · have missing : messages[idx]? = none :=
      List.getElem?_eq_none (holds.length_eq.trans_le absent)
    rw [if_neg (Nat.not_lt.mpr absent), missing]

theorem Holds.peek (holds : msgq.Holds first messages) (data : Message size)
    : kMsgqPeek msgq data = kMsgqPeekAt msgq data 0 := by
  rw [holds.peekAt, kMsgqPeek, ← holds.length_eq]
  cases messages with
  | nil => rfl
  | cons message rest =>
      rw [holds.load_read]
      simp

end KMsgq

end Zephyr.Kernel.MsgQ
