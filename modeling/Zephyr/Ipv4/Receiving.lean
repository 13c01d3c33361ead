import Zephyr.Library.Run
import Zephyr.Ipv4.Ownership

/-! Runs of a receiver: fragments that arrive, and reassemblies that take too long. -/

namespace Zephyr.Ipv4

open Zephyr.Library

/-- A packet arrives, with whether `net_recv_data` takes what it completes, or the timer of a slot
runs out.
-/
inductive Event where
  | input (pkt : NetPkt) (accepted : Bool)
  | timeout (index : Nat)
  deriving DecidableEq, Repr

def receiverStep (receiver : Receiver) : Event → Option Receiver
  | .input pkt accepted => some (receiver.input pkt accepted)
  | .timeout index => receiver.timeout index

/-- A slot cannot take the fragment, or its packets do not fit together with it. -/
def fails (slot : List (Option NetPkt)) (pkt : NetPkt) : Bool :=
  match storePacket slot pkt with
  | none => true
  | some (_, stored) => fragmentsAreReady stored < 0

/-- `reassembly_cancel` finds the slot at this place for the key. -/
def Finds (reassembly : List Reassembly) (key : Key) (index : Nat) : Prop :=
  reassembly.findIdx? (fun reass => reass.isFor key) = some index

instance (reassembly : List Reassembly) (key : Key) (index : Nat)
    : Decidable (Finds reassembly key index) :=
  inferInstanceAs (Decidable (_ = _))

/-- A fragment that is not the last has a multiple of 8 bytes, and if it cannot be put to the
others, then it is their reassembly that is cancelled.
-/
def Handles (reassembly : List Reassembly) (pkt : NetPkt) : Prop :=
  match reassemblyGet pkt.key reassembly with
  | none => True
  | some (index, reassembly) =>
      (pkt.hdr.fragmentMore → ((pkt.len : Int) - hdrLen) % 8 = 0)
      ∧ (fails ((reassembly[index]?.map Reassembly.pkt).getD []) pkt →
          Finds reassembly pkt.key index)

instance (reassembly : List Reassembly) (pkt : NetPkt) : Decidable (Handles reassembly pkt) := by
  unfold Handles
  split <;> infer_instance

/-- The reassembly that is cancelled is the one that the step is for. -/
def Careful (receiver : Receiver) : Event → Prop
  | .input pkt _ =>
      pkt.hdr.fragmentOffset ≠ 0 ∨ pkt.hdr.fragmentMore
      → Handles receiver.reassembly { pkt with number := receiver.received }
  | .timeout index =>
      ∀ reass ∈ receiver.reassembly[index]?, Finds receiver.reassembly reass.key index

instance (receiver : Receiver) (event : Event) : Decidable (Careful receiver event) :=
  match event with
  | .input _ _ => inferInstanceAs (Decidable (_ → _))
  | .timeout index => inferInstanceAs (Decidable (∀ reass ∈ receiver.reassembly[index]?, _))

variable {receiver : Receiver} {index : Nat} {reass : Reassembly} {pending : List NetPkt}
  {reassembly : List Reassembly} {pkt : NetPkt}

theorem Finds.modify {key : Key} (finds : Finds reassembly key index) (place : Nat)
    {change : Reassembly → Reassembly} (keeps : ∀ reass, (change reass).key = reass.key)
    : Finds (reassembly.modify place change) key index := by
  refine Eq.trans ?_ finds
  have same (reass : Reassembly) : (change reass).isFor key = reass.isFor key := by
    rw [Reassembly.isFor, Reassembly.isFor, keeps]
  clear finds
  induction reassembly generalizing place with
  | nil => rw [List.modify_nil]
  | cons first rest ih =>
      cases place with
      | zero => rw [List.modify_zero_cons, List.findIdx?_cons, List.findIdx?_cons, same]
      | succ place =>
          rw [List.modify_succ_cons, List.findIdx?_cons, List.findIdx?_cons, ih]

theorem Receiver.Focused.setPackets {slot : List (Option NetPkt)} {after : List NetPkt}
    (focused : receiver.Focused index reass pending)
    (moved
      : ∀ number,
          copies number (slot.filterMap id) + copies number after
            = copies number reass.packets + copies number pending)
    : (receiver.setPackets index slot).Focused index { reass with pkt := slot } after :=
  focused.modify (fun reass => { reass with pkt := slot }) after receiver.passed receiver.released
    (fun number => by
      have moved := moved number
      simp only [Reassembly.packets] at *
      omega)

/-- A packet is still the caller's if it is to be dropped. -/
def Settled (pkt : NetPkt) : Verdict × Receiver → Prop
  | (.ok, receiver) => receiver.Sound []
  | (.drop, receiver) => receiver.Sound [pkt]

theorem Receiver.Focused.release_cancel (focused : receiver.Focused index reass [pkt])
    (own : ∀ other ∈ reass.packets, other.key = pkt.key)
    (finds : Finds receiver.reassembly pkt.key index)
    : Settled pkt ((receiver.release pkt).cancel pkt.key) := by
  obtain ⟨verdict, sound⟩ := focused.release.cancel finds own
  generalize (receiver.release pkt).cancel pkt.key = result at verdict sound
  obtain ⟨_, _⟩ := result
  subst verdict
  exact sound

theorem Receiver.Focused.stored {front back : List NetPkt} {free : Nat} (accepted : Bool)
    (focused : receiver.Focused index reass [pkt]) (isPackets : reass.packets = front ++ back)
    (running : reass.running = true) (own : ∀ other ∈ reass.packets, other.key = reass.key)
    (key : reass.key = pkt.key)
    (finds
      : fragmentsAreReady (filled (front ++ pkt :: back) free) < 0
        → Finds receiver.reassembly pkt.key index)
    : Settled pkt
        (let stored := filled (front ++ pkt :: back) free
        let ret := fragmentsAreReady stored
        if ret < 0 then
          ((receiver.setPackets index (stored.set front.length none)).release pkt).cancel pkt.key
        else if ret = 0 then (.ok, receiver.setPackets index stored)
        else (.ok, (receiver.setPackets index stored).reassemblePacket index accepted)) := by
  dsimp only
  have one (number : Nat) : copies number (front ++ pkt :: back)
      = copies number reass.packets + copies number [pkt] := by
    rw [isPackets, copies_append, copies_append, copies_cons pkt]
    omega
  have ownAll : ∀ other ∈ front ++ pkt :: back, other.key = reass.key := by
    intro other member
    rw [isPackets] at own
    rcases List.mem_append.mp member with early | late
    · exact own other (List.mem_append_left _ early)
    rcases List.mem_cons.mp late with rfl | late
    · exact key.symm
    · exact own other (List.mem_append_right _ late)
  have isStored : (receiver.setPackets index (filled (front ++ pkt :: back) free)).Focused index
      { reass with pkt := filled (front ++ pkt :: back) free } [] := by
    refine focused.setPackets fun number => ?_
    rw [filled_packets]
    exact one number
  split
  next bad =>
    have isTaken : ((filled (front ++ pkt :: back) free).set front.length none).filterMap id
        = reass.packets := by
      rw [filled_append, isPackets, List.set_append_right _ _ (by simp)]
      simp [filled]
    refine (focused.setPackets (fun number => by rw [isTaken])).release_cancel ?_
      ((finds bad).modify index fun _ => rfl)
    intro other member
    rw [Reassembly.packets, isTaken] at member
    exact key ▸ own other member
  next fits =>
  split
  next =>
    refine isStored.unfocus (.of_filled _ free rfl ?_ ownAll)
    exact fun stopped => absurd (running.symm.trans stopped) (by decide)
  next unfinished =>
    have ready : 0 < fragmentsAreReady (filled (front ++ pkt :: back) free) := by omega
    have whole := readyFrom_filled ready
    obtain ⟨first, rest, isCons⟩ : ∃ first rest, front ++ pkt :: back = first :: rest :=
      List.exists_cons_of_ne_nil (by simp)
    rw [isCons] at isStored whole ⊢
    exact isStored.reassemble rfl whole accepted

theorem Receiver.Sound.handleFragmentHdr (accepted : Bool) (sound : receiver.Sound [pkt])
    (handles : Handles receiver.reassembly pkt)
    : Settled pkt (receiver.handleFragmentHdr pkt accepted) := by
  unfold Handles at handles
  unfold Receiver.handleFragmentHdr
  cases got : reassemblyGet pkt.key receiver.reassembly with
  | none => exact sound
  | some place =>
      obtain ⟨index, reassembly⟩ := place
      rw [got] at handles
      obtain ⟨reass, focused, slot, running, key⟩ := sound.get got
      obtain ⟨aligned, finds⟩ := handles
      have here : reassembly[index]? = some reass := focused.here
      rw [here] at finds
      dsimp only
      rw [if_neg fun bad => bad.2 (aligned bad.1), here]
      dsimp only [Option.map_some, Option.getD_some] at finds ⊢
      obtain ⟨free, isFilled⟩ := slot.filled
      obtain ⟨front, back, isPackets, all, stop⟩ := exists_split reass.packets pkt
      have own : ∀ other ∈ reass.packets, other.key = pkt.key := key ▸ slot.key
      unfold fails at finds
      rw [isFilled, isPackets, storePacket_filled all stop] at finds ⊢
      by_cases full : free = 0
      · rw [if_pos full] at finds ⊢
        exact focused.release_cancel own (finds rfl)
      · rw [if_neg full] at finds ⊢
        refine focused.stored accepted isPackets running slot.key key ?_
        exact fun bad => finds (decide_eq_true bad)

/-! ### Runs -/

theorem Receiver.Sound.arrive (sound : receiver.Sound []) (pkt : NetPkt)
    : ({ receiver with received := receiver.received + 1 } : Receiver).Sound
        [{ pkt with number := receiver.received }] := by
  refine ⟨sound.slots, ?_, sound.cancelled⟩
  intro number
  have account := sound.account number
  have single : copies number [{ pkt with number := receiver.received }]
      = if receiver.received = number then 1 else 0 := by
    simp [copies]
  rw [single]
  rw [copies_nil] at account
  dsimp only
  split at account <;> split <;> split <;> omega

theorem Receiver.Sound.release (sound : receiver.Sound [pkt])
    : (receiver.release pkt).Sound [] := by
  refine ⟨sound.slots, ?_, sound.cancelled⟩
  intro number
  refine Eq.trans ?_ (sound.account number)
  have cons := copies_cons pkt number receiver.released
  simp only [Receiver.release, copies_nil]
  omega

theorem Receiver.Sound.pass (sound : receiver.Sound [pkt])
    : ({ receiver with passed := pkt :: receiver.passed } : Receiver).Sound [] := by
  refine ⟨sound.slots, ?_, sound.cancelled⟩
  intro number
  refine Eq.trans ?_ (sound.account number)
  have cons := copies_cons pkt number receiver.passed
  simp only [copies_nil]
  omega

theorem Receiver.Sound.input (accepted : Bool) (sound : receiver.Sound [])
    (careful : Careful receiver (.input pkt accepted))
    : (receiver.input pkt accepted).Sound [] := by
  have arrived := sound.arrive pkt
  unfold Receiver.input
  dsimp only
  split
  next isFragment =>
    have settled := arrived.handleFragmentHdr accepted (careful isFragment)
    split
    next heq =>
      rw [heq] at settled
      exact settled
    next heq =>
      rw [heq] at settled
      exact Receiver.Sound.release settled
  next => exact arrived.pass

theorem Receiver.Sound.timeout {next : Receiver} (sound : receiver.Sound [])
    (careful : Careful receiver (.timeout index)) (stepped : receiver.timeout index = some next)
    : next.Sound [] := by
  unfold Receiver.timeout at stepped
  split at stepped
  next => exact nomatch stepped
  next reass here =>
    obtain ⟨-, ⟨⟩⟩ := Option.ite_none_right_eq_some.mp stepped
    have focused := (sound.focus here).modify (fun reass => { reass with running := false }) []
      receiver.passed receiver.released (fun _ => rfl)
    exact (focused.cancel ((careful reass here).modify index fun _ => rfl)
      (sound.slots index reass here).key).2

theorem Receiver.Sound.step {event : Event} {next : Receiver} (sound : receiver.Sound [])
    (careful : Careful receiver event) (stepped : receiverStep receiver event = some next)
    : next.Sound [] := by
  cases event with
  | input pkt accepted =>
      obtain ⟨⟩ := stepped
      exact sound.input accepted careful
  | timeout index => exact sound.timeout careful stepped

/-- A fragment for one destination. -/
def fragment (proto offset len : Nat) (more : Bool) : NetPkt :=
  { hdr :=
      { id := 7, src := 1, dst := 2, proto := proto, len := len
        offset := if more then offset ||| 2 ^ 13 else offset }
    len := len
    payload := List.replicate (len - hdrLen) 0 }

/-- One packet is put together, one takes too long, and one has two fragments that overlap. -/
def carefulEvents : List Event :=
  [.input (fragment 17 1 25 false) true, .input (fragment 17 0 28 true) true,
    .input (fragment 6 0 28 true) true, .timeout 0,
    .input (fragment 17 0 36 true) true, .input (fragment 17 1 28 true) true]

end Zephyr.Ipv4
