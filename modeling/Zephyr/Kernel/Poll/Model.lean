import Zephyr.Kernel.Base

/-! Polling of several kernel objects in `poll.c`. `k_poll` takes the lock once for each event that
it registers, once to pend the thread, and once for each event whose registration it clears; each
of these is a step. An object pops one registered event when its condition becomes true.
-/

namespace Zephyr.Kernel.Poll

def eintr : Int := 4

inductive ObjKind where
  | signal
  | sem
  | queue
  | msgq
  | pipe
  deriving DecidableEq, Repr

structure Obj where
  kind : ObjKind
  number : Nat
  deriving DecidableEq, Repr

/-- The `K_POLL_STATE_` bit of a condition that is met. -/
def ObjKind.state : ObjKind → UInt32
  | .signal => 1
  | .sem => 2
  | .queue => 4
  | .msgq => 16
  | .pipe => 32

def kPollStateCancelled : UInt32 := 8

/-- Where a thread is in `k_poll`: in `register_events` at event `ii`, in its wait queue, or with
the registrations of the first `left` events still to be cleared.
-/
inductive Phase where
  | away (rc : Int)
  | registering (ii eventsRegistered : Nat) (justCheck : Bool)
  | pended (eventsRegistered : Nat)
  | clearing (left : Nat) (rc : Int)
  deriving DecidableEq, Repr

/-- The `z_poller` of a thread and the events of its call: the object of each, or none for
`K_POLL_TYPE_IGNORE`, its `state`, and whether its `poller` is this one or `NULL`.
-/
structure Poller where
  events : List (Option Obj) := []
  state : Nat → UInt32 := fun _ => 0
  refers : Nat → Bool := fun _ => false
  isPolling : Bool := false
  phase : Phase := .away 0

/-- All threads and objects. A registered event is named by its thread and its index. -/
structure System where
  prio : Nat → Int
  poller : Nat → Poller := fun _ => {}
  pollEvents : Obj → List (Nat × Nat) := fun _ => []
  condition : Obj → Bool := fun _ => false

namespace System

def setPoller (system : System) (thread : Nat) (change : Poller → Poller) : System :=
  { system with
    poller := Function.update system.poller thread (change (system.poller thread)) }

def setPollEvents (system : System) (obj : Obj) (events : List (Nat × Nat)) : System :=
  { system with pollEvents := Function.update system.pollEvents obj events }

end System

/-- `z_sched_prio_cmp` of two threads without deadlines. -/
def zSchedPrioCmp (prio : Nat → Int) (thread other : Nat) : Int :=
  prio other - prio thread

/-! ### Registering -/

/-- The loop of `add_event`. -/
def insertEvent (prio : Nat → Int) (event : Nat × Nat) : List (Nat × Nat) → List (Nat × Nat)
  | [] => [event]
  | pending :: rest =>
      if zSchedPrioCmp prio event.1 pending.1 > 0 then event :: pending :: rest
      else pending :: insertEvent prio event rest

def addEvent (prio : Nat → Int) (events : List (Nat × Nat)) (event : Nat × Nat)
    : List (Nat × Nat) :=
  match events.getLast? with
  | none => events ++ [event]
  | some pending =>
      if zSchedPrioCmp prio pending.1 event.1 > 0 then events ++ [event]
      else insertEvent prio event events

def isConditionMet (system : System) : Option Obj → Bool
  | some obj => system.condition obj
  | none => false

/-- `register_event` without its last line, which sets `poller` for every type of event. -/
def registerEvent (system : System) (thread ii : Nat) : Option Obj → System
  | some obj => system.setPollEvents obj (addEvent system.prio (system.pollEvents obj) (thread, ii))
  | none => system

def setEventReady (poller : Poller) (index : Nat) (state : UInt32) : Poller :=
  { poller with
    refers := Function.update poller.refers index false
    state := Function.update poller.state index (poller.state index ||| state) }

/-- One turn of the loop of `register_events`. -/
def registerTurn (system : System) (thread ii eventsRegistered : Nat) (justCheck : Bool)
    (event : Option Obj)
    : System :=
  if isConditionMet system event then
    system.setPoller thread (fun poller =>
      { setEventReady poller ii ((event.map (fun obj => obj.kind.state)).getD 0) with
        isPolling := false
        phase := .registering (ii + 1) eventsRegistered justCheck })
  else if !justCheck && (system.poller thread).isPolling then
    (registerEvent system thread ii event).setPoller thread (fun poller =>
      { poller with
        refers := Function.update poller.refers ii true
        phase := .registering (ii + 1) (eventsRegistered + 1) justCheck })
  else
    system.setPoller thread (fun poller =>
      { poller with phase := .registering (ii + 1) eventsRegistered justCheck })

/-! ### Clearing -/

/-- `clear_event_registration` without its first line, which resets `poller`. -/
def clearEventRegistration (system : System) (thread index : Nat) : System :=
  match (system.poller thread).events[index]? with
  | some (some obj) => system.setPollEvents obj ((system.pollEvents obj).erase (thread, index))
  | _ => system

/-- One turn of the loop of `clear_event_registrations`, or the return from `k_poll`. -/
def clearTurn (system : System) (thread left : Nat) (rc : Int) : System :=
  match left with
  | 0 => system.setPoller thread (fun poller => { poller with phase := .away rc })
  | left + 1 =>
      (clearEventRegistration system thread left).setPoller thread (fun poller =>
        { poller with
          refers := Function.update poller.refers left false
          phase := .clearing left rc })

/-- `k_poll` behind `register_events`. -/
def pendOrClear (system : System) (thread eventsRegistered : Nat) (justCheck : Bool) : System :=
  if !(system.poller thread).isPolling then clearTurn system thread eventsRegistered 0
  else
    system.setPoller thread (fun poller =>
      { poller with
        isPolling := false
        phase := if justCheck then .away (-eagain) else .pended eventsRegistered })

/-! ### Signalling -/

/-- `signal_poller`: a thread that is not pending is left alone. -/
def signalPoller (poller : Poller) (state : UInt32) : Poller :=
  match poller.phase with
  | .pended eventsRegistered =>
      { poller with
        phase := .clearing eventsRegistered (if state = kPollStateCancelled then -eintr else 0) }
  | _ => poller

def signalPollEvent (system : System) (event : Nat × Nat) (state : UInt32) : System :=
  system.setPoller event.1 (fun poller =>
    setEventReady { signalPoller poller state with isPolling := false } event.2 state)

def zHandleObjPollEvents (system : System) (obj : Obj) (state : UInt32) : System :=
  match system.pollEvents obj with
  | [] => system
  | event :: rest => signalPollEvent (system.setPollEvents obj rest) event state

/-- The condition of the object becomes true, as in `k_poll_signal_raise` or `k_sem_give`. -/
def fulfil (system : System) (obj : Obj) : System :=
  zHandleObjPollEvents
    { system with condition := Function.update system.condition obj true } obj obj.kind.state

/-! ### Interleavings -/

/-- `notify` are the calls of `z_handle_obj_poll_events` that meet no condition, as in
`k_queue_cancel_wait` and `k_sem_reset`.
-/
inductive Call where
  | poll (thread : Nat) (events : List (Option Obj)) (state : Nat → UInt32) (noWait : Bool)
  | register (thread : Nat)
  | pend (thread : Nat)
  | clear (thread : Nat)
  | timeout (thread : Nat)
  | fulfil (obj : Obj)
  | consume (obj : Obj)
  | notify (obj : Obj) (state : UInt32)

def step (system : System) : Call → Option System
  | .poll thread events state noWait =>
      match (system.poller thread).phase with
      | .away _ =>
          some (system.setPoller thread (fun _ =>
            { events := events, state := state, isPolling := true
              phase := .registering 0 0 noWait }))
      | _ => none
  | .register thread =>
      match (system.poller thread).phase with
      | .registering ii eventsRegistered justCheck =>
          (system.poller thread).events[ii]?.map
            (registerTurn system thread ii eventsRegistered justCheck)
      | _ => none
  | .pend thread =>
      match (system.poller thread).phase with
      | .registering ii eventsRegistered justCheck =>
          if ii = (system.poller thread).events.length then
            some (pendOrClear system thread eventsRegistered justCheck)
          else none
      | _ => none
  | .clear thread =>
      match (system.poller thread).phase with
      | .clearing left rc => some (clearTurn system thread left rc)
      | _ => none
  | .timeout thread =>
      match (system.poller thread).phase with
      | .pended eventsRegistered =>
          some (system.setPoller thread (fun poller =>
            { poller with phase := .clearing eventsRegistered (-eagain) }))
      | _ => none
  | .fulfil obj => some (fulfil system obj)
  | .consume obj =>
      some { system with condition := Function.update system.condition obj false }
  | .notify obj state => some (zHandleObjPollEvents system obj state)

end Zephyr.Kernel.Poll
