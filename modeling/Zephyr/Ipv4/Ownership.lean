import Zephyr.Ipv4.Model

/-! The packets of a slot are at its front, without a gap. A fragment is put behind those with a
smaller offset.
-/

namespace Zephyr.Ipv4

/-- A slot with the packets it holds and so many free places behind them. -/
def filled (held : List NetPkt) (free : Nat) : List (Option NetPkt) :=
  held.map some ++ List.replicate free none

def NetPkt.isBefore (other fragment : NetPkt) : Prop :=
  other.hdr.fragmentOffset < fragment.hdr.fragmentOffset

variable {front back held : List NetPkt} {fragment : NetPkt} {free : Nat}

@[simp]
theorem filled_packets : (filled held free).filterMap id = held := by
  simp [filled]

@[simp]
theorem length_filled : (filled held free).length = held.length + free := by
  simp [filled]

theorem filled_append : filled (front ++ back) free = front.map some ++ filled back free := by
  simp [filled]

theorem exists_split (held : List NetPkt) (fragment : NetPkt)
    : ∃ front back,
        held = front ++ back
        ∧ (∀ other ∈ front, other.isBefore fragment)
        ∧ ∀ other ∈ back.head?, ¬ other.isBefore fragment := by
  induction held with
  | nil => exact ⟨[], [], rfl, nofun, nofun⟩
  | cons first rest ih =>
      by_cases before : first.isBefore fragment
      · obtain ⟨front, back, rfl, all, stop⟩ := ih
        refine ⟨first :: front, back, rfl, ?_, stop⟩
        intro other member
        rcases List.mem_cons.mp member with rfl | member
        · exact before
        · exact all other member
      · refine ⟨[], first :: rest, rfl, nofun, ?_⟩
        rintro other ⟨⟩
        exact before

theorem findIdx?_filled (held : List NetPkt) (free : Nat)
    : (filled held free).findIdx? Option.isNone = if free = 0 then none else some held.length := by
  induction held with
  | nil =>
      cases free with
      | zero => rfl
      | succ free => rfl
  | cons first rest ih =>
      have cons : filled (first :: rest) free = some first :: filled rest free := rfl
      rw [cons, List.findIdx?_cons, ih, if_neg (by simp), List.length_cons]
      cases free with
      | zero => rfl
      | succ free => rfl

theorem shiftPackets_filled (front : List NetPkt) (first : NetPkt) (rest : List NetPkt) (free : Nat)
    : shiftPackets (filled (front ++ first :: rest) free) front.length
      = if free = 0 then none
        else some (front.map some ++ none :: filled (first :: rest) (free - 1)) := by
  have here : (filled (front ++ first :: rest) free).drop front.length
      = filled (first :: rest) free := by
    rw [filled_append, List.drop_left' (List.length_map _)]
  have behind : (filled (front ++ first :: rest) free).drop (front.length + 1)
      = filled rest free := by
    rw [← List.drop_drop, here]
    rfl
  have start : (filled (front ++ first :: rest) free).take front.length = front.map some := by
    rw [filled_append, List.take_left' (List.length_map _)]
  unfold shiftPackets
  rw [behind, findIdx?_filled]
  split
  · rfl
  · rename_i room
    have moved : (filled (first :: rest) free).take (rest.length + 1)
        = (first :: rest).map some := by
      rw [filled, List.take_left' (by simp)]
    have last : (filled (front ++ first :: rest) free).drop (front.length + 1 + rest.length + 1)
        = List.replicate (free - 1) none := by
      rw [Nat.add_assoc (front.length + 1), ← List.drop_drop, behind, filled,
        ← List.drop_drop, List.drop_left' (List.length_map _), List.drop_replicate]
    rw [Option.map_some, start, here, moved, last]
    simp [filled]

theorem storePacket_filled (all : ∀ other ∈ front, other.isBefore fragment)
    (stop : ∀ other ∈ back.head?, ¬ other.isBefore fragment)
    : storePacket (filled (front ++ back) free) fragment
      = if free = 0 then none
        else some (front.length, filled (front ++ fragment :: back) (free - 1)) := by
  have place : (filled (front ++ back) free).findIdx
      (fun place => !place.any fun other =>
        decide (other.hdr.fragmentOffset < fragment.hdr.fragmentOffset))
      = front.length := by
    induction front with
    | nil =>
        cases back with
        | nil => cases free <;> simp [filled, List.replicate_succ, List.findIdx_cons]
        | cons first rest =>
            have notBefore : ¬ first.hdr.fragmentOffset < fragment.hdr.fragmentOffset :=
              stop first rfl
            simp [filled, List.findIdx_cons, notBefore]
    | cons first rest ih =>
        have before : first.hdr.fragmentOffset < fragment.hdr.fragmentOffset :=
          all first List.mem_cons_self
        have cons : filled (first :: rest ++ back) free
            = some first :: filled (rest ++ back) free :=
          rfl
        rw [cons, List.findIdx_cons,
          ih fun other member => all other (List.mem_cons_of_mem _ member)]
        simp [before]
  unfold storePacket
  dsimp only
  rw [place]
  cases back with
  | nil =>
      cases free with
      | zero => simp [filled]
      | succ free =>
          have found : (filled (front ++ []) (free + 1))[front.length]? = some none := by
            simp [filled, List.replicate_succ]
          rw [found, if_neg (Nat.succ_ne_zero _)]
          simp [filled, List.replicate_succ]
  | cons first rest =>
      have found : (filled (front ++ first :: rest) free)[front.length]? = some (some first) := by
        simp [filled]
      rw [found]
      dsimp only
      rw [shiftPackets_filled]
      split
      · rfl
      · simp [filled]

theorem readyFrom_filled {expectedOffset : Nat} {more : Bool}
    (ready : 0 < readyFrom (filled held free) expectedOffset more)
    : ∀ pkt ∈ held, hdrLen ≤ pkt.len := by
  induction held generalizing expectedOffset more with
  | nil => exact nofun
  | cons first rest ih =>
      rw [show filled (first :: rest) free = some first :: filled rest free from rfl, readyFrom]
        at ready
      split at ready
      · exact absurd ready (by decide)
      split at ready
      · exact absurd ready (by decide)
      split at ready
      · exact absurd ready (by decide)
      · rename_i whole
        intro pkt member
        rcases List.mem_cons.mp member with rfl | member
        · exact Nat.le_of_not_lt whole
        · exact ih ready pkt member

theorem mergeable_filled (whole : ∀ pkt ∈ held, hdrLen ≤ pkt.len)
    : mergeable (filled held free) = (held, none) := by
  induction held with
  | nil => cases free <;> rfl
  | cons first rest ih =>
      have cons : filled (first :: rest) free = some first :: filled rest free := rfl
      have short : ¬ first.len < hdrLen := Nat.not_lt.mpr (whole first List.mem_cons_self)
      rw [cons, mergeable, if_neg short,
        ih fun pkt member => whole pkt (List.mem_cons_of_mem _ member)]

end Zephyr.Ipv4

/-! Every packet that was received is held in one slot, or was passed on, or was released, and a
reassembly that is cancelled loses its own packets only.
-/

namespace Zephyr.Ipv4

/-- The packets that are held in the slots. -/
def held (reassembly : List Reassembly) : List NetPkt :=
  reassembly.flatMap Reassembly.packets

/-- How often the packet with this number is among the packets. -/
def copies (number : Nat) (pkts : List NetPkt) : Nat :=
  pkts.countP fun pkt => pkt.number = number

/-- A slot holds packets of its reassembly, and none when it is not in use. -/
structure Reassembly.Sound (reass : Reassembly) : Prop where
  filled : ∃ free, reass.pkt = Ipv4.filled reass.packets free
  idle : reass.running = false → reass.packets = []
  key : ∀ pkt ∈ reass.packets, pkt.key = reass.key

/-- A receiver between two steps. The packets that are `pending` have been received, and are in
none of the places yet.
-/
structure Receiver.Sound (receiver : Receiver) (pending : List NetPkt) : Prop where
  slots
    : ∀ (index : Nat) (reass : Reassembly),
        receiver.reassembly[index]? = some reass → reass.Sound
  account
    : ∀ number,
        copies number (held receiver.reassembly) + copies number pending
            + copies number receiver.passed + copies number receiver.released
          = if number < receiver.received then 1 else 0
  cancelled : ∀ entry ∈ receiver.cancelled, entry.2.key = entry.1

/-- A receiver while one of its slots is worked on. -/
structure Receiver.Focused (receiver : Receiver) (index : Nat) (reass : Reassembly)
    (pending : List NetPkt) : Prop where
  here : receiver.reassembly[index]? = some reass
  others
    : ∀ (other : Nat) (slot : Reassembly),
        other ≠ index → receiver.reassembly[other]? = some slot → slot.Sound
  account
    : ∀ number,
        copies number reass.packets + copies number (held (receiver.reassembly.eraseIdx index))
            + copies number pending + copies number receiver.passed
            + copies number receiver.released
          = if number < receiver.received then 1 else 0
  cancelled : ∀ entry ∈ receiver.cancelled, entry.2.key = entry.1

variable {receiver : Receiver} {index : Nat} {reass : Reassembly} {pending : List NetPkt}
  {reassembly : List Reassembly} {pkt : NetPkt}

/-! ### Packets and slots -/

@[simp]
theorem copies_nil (number : Nat) : copies number [] = 0 := rfl

@[simp]
theorem copies_append (number : Nat) (front back : List NetPkt)
    : copies number (front ++ back) = copies number front + copies number back :=
  List.countP_append

theorem copies_cons (pkt : NetPkt) (number : Nat) (rest : List NetPkt)
    : copies number (pkt :: rest) = copies number [pkt] + copies number rest :=
  copies_append number [pkt] rest

theorem copies_of_number {other : NetPkt} (same : pkt.number = other.number) (number : Nat)
    : copies number [pkt] = copies number [other] := by
  simp [copies, same]

theorem copies_held (here : reassembly[index]? = some reass) (number : Nat)
    : copies number (held reassembly)
      = copies number reass.packets + copies number (held (reassembly.eraseIdx index)) := by
  obtain ⟨inside, rfl⟩ := List.getElem?_eq_some_iff.mp here
  have perm := (List.getElem_cons_eraseIdx_perm inside).flatMap_right Reassembly.packets
  rw [List.flatMap_cons] at perm
  rw [← copies_append]
  exact perm.symm.countP_eq _

theorem Reassembly.Sound.of_filled (held : List NetPkt) (free : Nat)
    (isFilled : reass.pkt = Ipv4.filled held free) (idle : reass.running = false → held = [])
    (key : ∀ pkt ∈ held, pkt.key = reass.key)
    : reass.Sound := by
  have packets : reass.packets = held := by rw [Reassembly.packets, isFilled, filled_packets]
  rw [← packets] at isFilled idle key
  exact ⟨⟨free, isFilled⟩, idle, key⟩

theorem Reassembly.cancelled_packets : reass.cancelled.packets = [] := by
  simp [Reassembly.packets, Reassembly.cancelled]

theorem Reassembly.cancelled_sound : reass.cancelled.Sound := by
  refine .of_filled [] reass.pkt.length ?_ (fun _ => rfl) nofun
  simp [Reassembly.cancelled, filled, List.map_const']

/-! ### Work on one slot -/

theorem Receiver.Sound.focus (sound : receiver.Sound pending)
    (here : receiver.reassembly[index]? = some reass)
    : receiver.Focused index reass pending where
  here := here
  others := fun other slot _ isSlot => sound.slots other slot isSlot
  account := fun number => by rw [← copies_held here, sound.account]
  cancelled := sound.cancelled

theorem Receiver.Focused.unfocus (focused : receiver.Focused index reass pending)
    (sound : reass.Sound)
    : receiver.Sound pending where
  slots := by
    intro other slot isSlot
    by_cases same : other = index
    · subst same
      rw [Option.some.inj (isSlot.symm.trans focused.here)]
      exact sound
    · exact focused.others other slot same isSlot
  account := fun number => by rw [copies_held focused.here, focused.account]
  cancelled := focused.cancelled

theorem Receiver.Focused.modify (focused : receiver.Focused index reass pending)
    (change : Reassembly → Reassembly) (after passed released : List NetPkt)
    (moved
      : ∀ number,
          copies number (change reass).packets + copies number after + copies number passed
              + copies number released
            = copies number reass.packets + copies number pending + copies number receiver.passed
              + copies number receiver.released)
    : ({ receiver with
          reassembly := receiver.reassembly.modify index change
          passed := passed
          released := released } : Receiver).Focused index (change reass) after where
  here := by rw [List.getElem?_modify_eq, focused.here]; rfl
  others := by
    intro other slot different isSlot
    replace isSlot : (receiver.reassembly.modify index change)[other]? = some slot := isSlot
    rw [List.getElem?_modify_ne _ _ (Ne.symm different)] at isSlot
    exact focused.others other slot different isSlot
  account := by
    intro number
    have account := focused.account number
    have moved := moved number
    simp only [List.eraseIdx_modify_of_eq]
    omega
  cancelled := focused.cancelled

/-- The verdict is that of `reassembly_cancel` for a reassembly that it finds. -/
theorem Receiver.Focused.cancel {key : Key} (focused : receiver.Focused index reass pending)
    (first : receiver.reassembly.findIdx? (fun reass => reass.isFor key) = some index)
    (own : ∀ pkt ∈ reass.packets, pkt.key = key)
    : (receiver.cancel key).1 = .ok ∧ (receiver.cancel key).2.Sound pending := by
  have cancelled
      : receiver.cancel key
        = (.ok,
            { receiver with
              reassembly := receiver.reassembly.modify index Reassembly.cancelled
              released := reass.packets ++ receiver.released
              cancelled := reass.packets.map (fun pkt => (key, pkt)) ++ receiver.cancelled }) := by
    simp [Receiver.cancel, reassemblyCancel, first, focused.here]
  rw [cancelled]
  refine ⟨rfl, ?_⟩
  have changed := focused.modify Reassembly.cancelled pending receiver.passed
    (reass.packets ++ receiver.released) (fun number => by
      simp only [Reassembly.cancelled_packets, copies_append, copies_nil]
      omega)
  have sound := changed.unfocus Reassembly.cancelled_sound
  refine ⟨sound.slots, sound.account, ?_⟩
  intro entry member
  rcases List.mem_append.mp member with fresh | old
  · obtain ⟨pkt, isPacket, rfl⟩ := List.mem_map.mp fresh
    exact own pkt isPacket
  · exact focused.cancelled entry old

/-! ### Steps of a slot -/

theorem Receiver.Sound.get {key : Key} (sound : receiver.Sound pending)
    (got : reassemblyGet key receiver.reassembly = some (index, reassembly))
    : ∃ reass,
        ({ receiver with reassembly := reassembly } : Receiver).Focused index reass pending
        ∧ reass.Sound ∧ reass.running = true ∧ reass.key = key := by
  unfold reassemblyGet at got
  split at got
  next i found =>
    obtain ⟨rfl, rfl⟩ := Prod.mk.inj (Option.some.inj got)
    obtain ⟨inside, matching, -⟩ := List.findIdx?_eq_some_iff_getElem.mp found
    have here := List.getElem?_eq_getElem inside
    simp only [Bool.and_eq_true, decide_eq_true_eq] at matching
    exact ⟨_, sound.focus here, sound.slots _ _ here, matching⟩
  next =>
    obtain ⟨avail, found, pair⟩ := Option.map_eq_some_iff.mp got
    obtain ⟨rfl, rfl⟩ := Prod.mk.inj pair
    obtain ⟨inside, idle, -⟩ := List.findIdx?_eq_some_iff_getElem.mp found
    have here := List.getElem?_eq_getElem inside
    have empty := (sound.slots _ _ here).idle (by simpa using idle)
    obtain ⟨free, isFilled⟩ := (sound.slots _ _ here).filled
    rw [empty] at isFilled
    refine ⟨_, (sound.focus here).modify (fun reass => { reass with running := true, key := key })
      pending receiver.passed receiver.released (fun number => rfl), ?_, rfl, rfl⟩
    exact .of_filled [] free isFilled (fun _ => rfl) nofun

theorem Receiver.Focused.release (focused : receiver.Focused index reass [pkt])
    : (receiver.release pkt).Focused index reass [] := by
  refine ⟨focused.here, focused.others, ?_, focused.cancelled⟩
  intro number
  refine Eq.trans ?_ (focused.account number)
  have cons := copies_cons pkt number receiver.released
  simp only [Receiver.release, copies_nil]
  omega

/-- A slot that is stopped without packets. -/
def Reassembly.emptied (places : Nat) (reass : Reassembly) : Reassembly :=
  { reass with running := false, pkt := filled [] places }

theorem Reassembly.emptied_packets (places : Nat) : (reass.emptied places).packets = [] :=
  filled_packets

theorem Reassembly.emptied_sound (places : Nat) : (reass.emptied places).Sound :=
  .of_filled [] places rfl (fun _ => rfl) nofun

theorem reassemblePacket_filled {first : NetPkt} {rest : List NetPkt} {free : Nat}
    (here : receiver.reassembly[index]? = some reass)
    (isFilled : reass.pkt = filled (first :: rest) free)
    (whole : ∀ pkt ∈ first :: rest, hdrLen ≤ pkt.len) (accepted : Bool)
    : ∃ places,
        receiver.reassemblePacket index accepted
        = { receiver with
            reassembly := receiver.reassembly.modify index (Reassembly.emptied places)
            passed :=
              if accepted then (first.attach rest).whole :: receiver.passed else receiver.passed
            released :=
              if accepted then rest ++ receiver.released
              else first.attach rest :: rest ++ receiver.released } := by
  have isReady : mergeable (filled rest free) = (rest, none) :=
    mergeable_filled fun pkt member => whole pkt (List.mem_cons_of_mem _ member)
  have isCons : reass.pkt = some first :: filled rest free := isFilled
  have cleared : none :: (rest.map (fun _ => none) ++ (filled rest free).drop rest.length)
      = filled [] (rest.length + free + 1) := by
    simp [filled, List.map_const', List.replicate_succ]
  have long : ¬ (first.attach rest).len < hdrLen := by
    have := whole first List.mem_cons_self
    simp only [NetPkt.attach]
    omega
  refine ⟨rest.length + free + 1, ?_⟩
  simp only [Receiver.reassemblePacket, here, Option.getD_some, isCons, isReady, cleared,
    List.modify_modify_eq, long, false_or]
  cases accepted with
  | true => rfl
  | false => rfl

theorem Receiver.Focused.reassemble {first : NetPkt} {rest : List NetPkt} {free : Nat}
    (focused : receiver.Focused index reass pending)
    (isFilled : reass.pkt = filled (first :: rest) free)
    (whole : ∀ pkt ∈ first :: rest, hdrLen ≤ pkt.len) (accepted : Bool)
    : (receiver.reassemblePacket index accepted).Sound pending := by
  obtain ⟨places, reassembled⟩ := reassemblePacket_filled focused.here isFilled whole accepted
  have packets : reass.packets = first :: rest := by
    rw [Reassembly.packets, isFilled, filled_packets]
  rw [reassembled]
  refine (focused.modify (Reassembly.emptied places) pending _ _ ?_).unfocus
    (Reassembly.emptied_sound places)
  intro number
  have attached := copies_of_number (show (first.attach rest).number = first.number from rfl) number
  have passed
      := copies_of_number (show (first.attach rest).whole.number = first.number from rfl) number
  rw [packets, Reassembly.emptied_packets, copies_nil, copies_cons first]
  cases accepted with
  | true =>
      rw [if_pos rfl, if_pos rfl, copies_append, copies_cons (first.attach rest).whole, passed]
      omega
  | false =>
      rw [if_neg nofun, if_neg nofun, copies_append, copies_cons (first.attach rest), attached]
      omega

/-- A receiver with so many slots of so many places, none of which is in use. -/
def initial (slots places : Nat) : Receiver :=
  { reassembly := List.replicate slots { pkt := List.replicate places none } }

theorem initial_sound (slots places : Nat) : (initial slots places).Sound [] := by
  refine ⟨?_, ?_, nofun⟩
  · intro index reass here
    obtain ⟨-, rfl⟩ := List.mem_replicate.mp (List.mem_of_getElem? here)
    exact .of_filled [] places rfl (fun _ => rfl) nofun
  · intro number
    have none : held (initial slots places).reassembly = [] := by
      simp [held, initial, Reassembly.packets]
    rw [none]
    rfl

end Zephyr.Ipv4
