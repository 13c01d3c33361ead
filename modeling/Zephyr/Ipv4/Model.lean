import Mathlib

/-! IPv4 fragmentation and reassembly, after `ipv4_fragment.c`. The header of a packet is what
`net_ipv4_input` or the sender has read of it, and the data behind it is a list of bytes. Checksums
and errors that are reported to the sender are left out.
-/

namespace Zephyr.Ipv4

def ebadmsg : Int := 77

def eperm : Int := 1

def einval : Int := 22

/-- `sizeof(struct net_ipv4_hdr)`, which `net_ipv4_input` sets as the length of the header. -/
def hdrLen : Nat := 20

/-- `struct net_ipv4_hdr`. `offset` has the flags in front of the fragment offset. -/
structure Ipv4Hdr where
  id : Nat
  src : Nat
  dst : Nat
  proto : Nat
  offset : Nat
  len : Nat
  deriving DecidableEq, Repr

/-- `NET_IPV4_FRAGH_OFFSET_MASK` is for the lowest 13 bits. -/
def Ipv4Hdr.fragmentOffset (hdr : Ipv4Hdr) : Nat :=
  hdr.offset % 2 ^ 13 * 8

/-- `NET_IPV4_MORE_FRAG_MASK` -/
def Ipv4Hdr.fragmentMore (hdr : Ipv4Hdr) : Bool :=
  hdr.offset.testBit 13

/-- `NET_IPV4_DO_NOT_FRAG_MASK` -/
def Ipv4Hdr.doNotFragment (hdr : Ipv4Hdr) : Bool :=
  hdr.offset.testBit 14

/-- A packet with the number it was received as. `len` is all that is left of it when
`net_ipv4_input` has cut it to the length in its header, which may be less than the header has.
-/
structure NetPkt where
  number : Nat := 0
  hdr : Ipv4Hdr
  len : Nat
  payload : List UInt8
  deriving DecidableEq, Repr

/-- What fragments of one packet have in common. -/
structure Key where
  id : Nat
  src : Nat
  dst : Nat
  proto : Nat
  deriving DecidableEq, Repr

def NetPkt.key (pkt : NetPkt) : Key :=
  ⟨pkt.hdr.id, pkt.hdr.src, pkt.hdr.dst, pkt.hdr.proto⟩

/-- `struct net_ipv4_reassembly`. It is in use while its timer is `running`. -/
structure Reassembly where
  running : Bool := false
  key : Key := ⟨0, 0, 0, 0⟩
  pkt : List (Option NetPkt)
  deriving DecidableEq, Repr

/-! ### Slots -/

/-- `reassembly_get`: the place of the reassembly for the key, or of one that is free. -/
def reassemblyGet (key : Key) (reassembly : List Reassembly) : Option (Nat × List Reassembly) :=
  match reassembly.findIdx? (fun reass => reass.running && reass.key = key) with
  | some i => some (i, reassembly)
  | none =>
      (reassembly.findIdx? (fun reass => !reass.running)).map fun avail =>
        (avail, reassembly.modify avail fun reass => { reass with running := true, key := key })

/-- Whether `reassembly_cancel` takes the reassembly for the one it looks for. -/
def Reassembly.isFor (reass : Reassembly) (key : Key) : Bool :=
  reass.key.id = key.id && reass.key.src = key.src && reass.key.dst = key.dst

def Reassembly.packets (reass : Reassembly) : List NetPkt :=
  reass.pkt.filterMap id

def Reassembly.cancelled (reass : Reassembly) : Reassembly :=
  { running := false
    key := { reass.key with id := 0 }
    pkt := reass.pkt.map fun _ => none }

/-- `reassembly_cancel`: the packets that it releases, if it finds a reassembly. -/
def reassemblyCancel (key : Key) (reassembly : List Reassembly)
    : Option (List NetPkt × List Reassembly) :=
  (reassembly.findIdx? (fun reass => reass.isFor key)).map fun i =>
    ((reassembly[i]?.map Reassembly.packets).getD [],
      reassembly.modify i Reassembly.cancelled)

/-- `shift_packets`: the first free place behind `pos` is used up. -/
def shiftPackets (pkt : List (Option NetPkt)) (pos : Nat) : Option (List (Option NetPkt)) :=
  ((pkt.drop (pos + 1)).findIdx? Option.isNone).map fun further =>
    pkt.take pos ++ none :: (pkt.drop pos).take (further + 1) ++ pkt.drop (pos + 1 + further + 1)

/-- The loop of `net_ipv4_handle_fragment_hdr` that stores a packet: where it is, if there is room
for it.
-/
def storePacket (pkt : List (Option NetPkt)) (fragment : NetPkt)
    : Option (Nat × List (Option NetPkt)) :=
  let before (other : NetPkt) : Bool := other.hdr.fragmentOffset < fragment.hdr.fragmentOffset
  let i := pkt.findIdx fun place => !place.any before
  match pkt[i]? with
  | none => none
  | some none => some (i, pkt.set i (some fragment))
  | some (some _) => (shiftPackets pkt i).map fun shifted => (i, shifted.set i (some fragment))

/-- `fragments_are_ready` from some place on. -/
def readyFrom : List (Option NetPkt) → (expectedOffset : Nat) → (more : Bool) → Int
  | some pkt :: rest, expectedOffset, _ =>
      if pkt.hdr.fragmentOffset < expectedOffset then -ebadmsg
      else if pkt.hdr.fragmentOffset ≠ expectedOffset then 0
      else if pkt.len < hdrLen then -ebadmsg
      else readyFrom rest (expectedOffset + (pkt.len - hdrLen)) pkt.hdr.fragmentMore
  | _, _, more => if more then 0 else 1

def fragmentsAreReady (pkt : List (Option NetPkt)) : Int :=
  readyFrom pkt 0 true

/-! ### The receiver -/

/-- The reassemblies, how many packets have been received, and of these the ones that were passed
on, that were released, and that were released by `reassembly_cancel`, with the key of the
reassembly it was called for.
-/
structure Receiver where
  reassembly : List Reassembly
  received : Nat := 0
  passed : List NetPkt := []
  released : List NetPkt := []
  cancelled : List (Key × NetPkt) := []
  deriving DecidableEq, Repr

inductive Verdict where
  | ok
  | drop
  deriving DecidableEq, Repr

def Receiver.release (receiver : Receiver) (pkt : NetPkt) : Receiver :=
  { receiver with released := pkt :: receiver.released }

/-- The packets of a slot at its place. -/
def Receiver.setPackets (receiver : Receiver) (index : Nat) (pkt : List (Option NetPkt))
    : Receiver :=
  { receiver with
    reassembly := receiver.reassembly.modify index fun reass => { reass with pkt := pkt } }

/-- What is done behind `drop`, for a reassembly. -/
def Receiver.cancel (receiver : Receiver) (key : Key) : Verdict × Receiver :=
  match reassemblyCancel key receiver.reassembly with
  | none => (.drop, receiver)
  | some (packets, reassembly) =>
      (.ok,
        { receiver with
          reassembly := reassembly
          released := packets ++ receiver.released
          cancelled := packets.map (fun pkt => (key, pkt)) ++ receiver.cancelled })

/-- The packets up to the first free place, which `reassemble_packet` goes through, and the first
behind them that has no whole header.
-/
def mergeable : List (Option NetPkt) → List NetPkt × Option NetPkt
  | some pkt :: rest =>
      if pkt.len < hdrLen then ([], some pkt)
      else
        let (merged, short) := mergeable rest
        (pkt :: merged, short)
  | _ => ([], none)

/-- The data of the others is attached to the first packet. -/
def NetPkt.attach (first : NetPkt) (others : List NetPkt) : NetPkt :=
  { first with
    len := first.len + (others.map fun pkt => pkt.len - hdrLen).sum
    payload := first.payload ++ others.flatMap NetPkt.payload }

/-- The header becomes that of a whole packet. -/
def NetPkt.whole (pkt : NetPkt) : NetPkt :=
  { pkt with hdr := { pkt.hdr with len := pkt.len % 2 ^ 16, offset := 0 } }

/-- `reassemble_packet` of the slot at a place, where `accepted` is whether `net_recv_data` takes
the packet. A packet without a whole header is released and left in the slot.
-/
def Receiver.reassemblePacket (receiver : Receiver) (index : Nat) (accepted : Bool) : Receiver :=
  let reass := receiver.reassembly[index]?.getD ⟨false, ⟨0, 0, 0, 0⟩, []⟩
  let stopped := receiver.reassembly.modify index fun reass => { reass with running := false }
  match reass.pkt with
  | some first :: rest =>
      let (others, short) := mergeable rest
      let cleared := others.map (fun _ => none) ++ rest.drop others.length
      match short with
      | some pkt =>
          { receiver with
            reassembly := stopped.modify index fun reass =>
              { reass with pkt := some (first.attach others) :: cleared }
            released := pkt :: others ++ receiver.released }
      | none =>
          let merged := first.attach others
          let emptied := stopped.modify index fun reass => { reass with pkt := none :: cleared }
          if merged.len < hdrLen ∨ !accepted then
            { receiver with
              reassembly := emptied
              released := merged :: others ++ receiver.released }
          else
            { receiver with
              reassembly := emptied
              passed := merged.whole :: receiver.passed
              released := others ++ receiver.released }
  | _ => { receiver with reassembly := stopped }

/-- `net_ipv4_handle_fragment_hdr` -/
def Receiver.handleFragmentHdr (receiver : Receiver) (pkt : NetPkt) (accepted : Bool)
    : Verdict × Receiver :=
  match reassemblyGet pkt.key receiver.reassembly with
  | none => (.drop, receiver)
  | some (index, reassembly) =>
      let receiver := { receiver with reassembly := reassembly }
      -- the difference is one of a `size_t`, of which 2^32 is a multiple of 8
      if pkt.hdr.fragmentMore ∧ ((pkt.len : Int) - hdrLen) % 8 ≠ 0 then receiver.cancel pkt.key
      else
        let slot := (receiver.reassembly[index]?.map Reassembly.pkt).getD []
        match storePacket slot pkt with
        | none => (receiver.release pkt).cancel pkt.key
        | some (i, stored) =>
            let ret := fragmentsAreReady stored
            if ret < 0 then
              ((receiver.setPackets index (stored.set i none)).release pkt).cancel pkt.key
            else if ret = 0 then (.ok, receiver.setPackets index stored)
            else (.ok, (receiver.setPackets index stored).reassemblePacket index accepted)

/-- A packet is received, as far as it matters here: it is numbered, a fragment is handled and
released if that fails, and any other packet is passed on.
-/
def Receiver.input (receiver : Receiver) (pkt : NetPkt) (accepted : Bool) : Receiver :=
  let pkt := { pkt with number := receiver.received }
  let receiver := { receiver with received := receiver.received + 1 }
  if pkt.hdr.fragmentOffset ≠ 0 ∨ pkt.hdr.fragmentMore then
    match receiver.handleFragmentHdr pkt accepted with
    | (.ok, receiver) => receiver
    | (.drop, receiver) => receiver.release pkt
  else { receiver with passed := pkt :: receiver.passed }

/-- `reassembly_timeout` of a slot whose timer has run out. -/
def Receiver.timeout (receiver : Receiver) (index : Nat) : Option Receiver :=
  match receiver.reassembly[index]? with
  | none => none
  | some reass =>
      if reass.running then
        let stopped := receiver.reassembly.modify index fun reass => { reass with running := false }
        some ({ receiver with reassembly := stopped }.cancel reass.key).2
      else none

/-! ### The sender -/

/-- `send_ipv4_fragment`; the data of the packet from the offset on. -/
def sendIpv4Fragment (pkt : NetPkt) (randId fitLen fragOffset : Nat) (final : Bool) : NetPkt :=
  let offsetPkt := fragOffset / 8
  { number := 0
    hdr :=
      { pkt.hdr with
        id := randId
        offset := if final then offsetPkt else offsetPkt ||| 2 ^ 13
        len := (fitLen + hdrLen) % 2 ^ 16 }
    len := fitLen + hdrLen
    payload := (pkt.payload.drop fragOffset).take fitLen }

/-- The loop of `net_ipv4_send_fragmented_pkt`. -/
def sendLoop (pkt : NetPkt) (randId pktLen : Nat)
    : (fuel : Nat) → (fitLen fragOffset : Nat) → List NetPkt
  | 0, _, _ => []
  | fuel + 1, fitLen, fragOffset =>
      if fragOffset < pktLen then
        let final := decide (fragOffset + fitLen ≥ pktLen)
        let fitLen := if final then pktLen - fragOffset else fitLen
        sendIpv4Fragment pkt randId fitLen fragOffset final
          :: sendLoop pkt randId pktLen fuel fitLen (fragOffset + fitLen)
      else []

/-- `net_ipv4_send_fragmented_pkt`: the fragments, or an error. -/
def sendFragmentedPkt (pkt : NetPkt) (random mtu : Nat) : Except Int (List NetPkt) :=
  if pkt.hdr.doNotFragment then .error (-eperm)
  else
    let randId := if random = 0 then 1 else random
    let fitLen : Int := ((mtu : Int) - hdrLen).tdiv 8
    if fitLen ≤ 0 then .error (-einval)
    else
      let pktLen := pkt.len - hdrLen
      .ok (sendLoop pkt randId pktLen (pktLen + 1) (fitLen.toNat * 8) 0)

end Zephyr.Ipv4
