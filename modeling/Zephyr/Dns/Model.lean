import Mathlib
import Zephyr.Library.Loop

/-! Packing and unpacking of names in DNS messages (`dns_pack.c`).
Every access to the message and to a destination is recorded with its place and its size.
-/

namespace Zephyr.Dns

open Zephyr.Library

/-- `ENOMEM`, `EINVAL` and `EMSGSIZE` -/
def eNoMem : Int := 12

def eInval : Int := 22

def eMsgSize : Int := 122

/-- `DNS_LABEL_MAX_SIZE` -/
def dnsLabelMaxSize : Nat := 63

/-- An access to `count` bytes from `start` on, counted from the message or the destination. -/
structure Access where
  start : Nat
  count : Nat
  deriving DecidableEq, Repr

/-- All accesses end inside of the first `size` bytes. -/
def Within (size : Nat) (accesses : List Access) : Prop :=
  ∀ access ∈ accesses, access.start + access.count ≤ size

instance (size : Nat) (accesses : List Access) : Decidable (Within size accesses) :=
  List.decidableBAll ..

/-- `struct dns_msg_t`; `msg` has the bytes of the message and the memory behind it. -/
structure DnsMsg where
  msg : Nat → UInt8
  msgSize : UInt16
  responseType : Int := -22
  responsePosition : UInt16 := 0
  responseLength : UInt16 := 0
  queryOffset : UInt16 := 0
  answerOffset : UInt16 := 0

def ntohs (memory : Nat → UInt8) (place : Nat) : Nat :=
  256 * (memory place).toNat + (memory (place + 1)).toNat

def ntohl (memory : Nat → UInt8) (place : Nat) : Nat :=
  65536 * ntohs memory place + ntohs memory (place + 2)

-----------------------------------------------------------------------------------------
-- Packing a name
-----------------------------------------------------------------------------------------

/-- `'.'` -/
def dot : UInt8 := 46

structure Packing where
  lbStart : Nat := 0
  lbIndex : Nat := 1
  lbSize : Nat := 0
  buf : Nat → UInt8

/-- One character of the domain name, or its terminator, is packed at `lb_index`. -/
def Packing.put (packing : Packing) (char : UInt8) : Packing :=
  if char = dot then
    { packing with
      lbStart := packing.lbIndex
      lbIndex := packing.lbIndex + 1
      lbSize := 0
      buf := Function.update packing.buf packing.lbStart (.ofNat packing.lbSize) }
  else if char = 0 then
    { packing with
      lbIndex := packing.lbIndex + 1
      buf :=
        Function.update (Function.update packing.buf packing.lbStart (.ofNat packing.lbSize))
          packing.lbIndex 0 }
  else
    { packing with
      lbIndex := packing.lbIndex + 1
      lbSize := packing.lbSize + 1
      buf := Function.update packing.buf packing.lbIndex char }

/-- The loop over the characters: what it returns and how far it came. -/
def packChars (size : Nat) (packing : Packing) : List UInt8 → Int × Packing
  | [] => (0, packing)
  | char :: rest =>
      if size ≤ packing.lbIndex then (-eNoMem, packing)
      else packChars size (packing.put char) rest

/-- What `dns_msg_pack_qname` returns, `*len` if it succeeds, and the buffer. -/
structure Packed where
  ret : Int
  len : Option Nat
  buf : Nat → UInt8

/-- `dns_msg_pack_qname` for a domain name without its terminator. -/
def dnsMsgPackQname (buf : Nat → UInt8) (size : UInt16) (domainName : List UInt8) : Packed :=
  -- the length is cut off to 16 bits
  let dnSize := domainName.length % 65536
  if dnSize = 0 then ⟨-eInval, none, buf⟩
  else
    let (ret, packing) :=
      packChars size.toNat { buf := buf } ((domainName ++ [0]).take (dnSize + 1))
    ⟨ret, if ret = 0 then some packing.lbIndex else none, packing.buf⟩

-----------------------------------------------------------------------------------------
-- Unpacking an answer
-----------------------------------------------------------------------------------------

structure Skipping where
  i : Nat := 0
  reads : List Access := []

/-- A turn of the loop of `skip_fqdn`, for the answer at `offset`. -/
def skipTurn (memory : Nat → UInt8) (offset : Nat) (bufSz : Int) (state : Skipping)
    : Skipping ⊕ Int × List Access :=
  if bufSz ≤ state.i then .inr (-eInval, state.reads)
  else
    let length := (memory (offset + state.i)).toNat
    let reads := ⟨offset + state.i, 1⟩ :: state.reads
    if length = 0 then .inr (state.i + 1, reads)
    else if 0xc0 ≤ length then
      if bufSz < state.i + 2 then .inr (-eInval, reads) else .inr (state.i + 2, reads)
    else if length < dnsLabelMaxSize then .inl ⟨state.i + (length + 1), reads⟩
    else .inr (-eInval, reads)

/-- What `dns_unpack_answer` returns and stores. -/
structure Answer where
  ret : Int
  message : DnsMsg
  ttl : Option Nat := none
  type : Option Nat := none
  reads : List Access

/-- What `dns_unpack_answer` does behind a name of `dnameLen` bytes. -/
def unpackRecord (mdns : Bool) (message : DnsMsg) (dnameLen : Nat) (reads : List Access)
    : Answer :=
  let place := message.answerOffset.toNat + dnameLen
  -- the offset of the answer is not subtracted
  let remSize := message.msgSize - .ofNat dnameLen
  if remSize < 10 then { ret := -eInval, message := message, reads := reads }
  else
    let reads := ⟨place + 2, 2⟩ :: reads
    let cls := ntohs message.msg (place + 2)
    if (if mdns then cls % 0x8000 else cls) ≠ 1 then
      { ret := -eInval, message := message, reads := reads }
    else
      let reads := ⟨place, 2⟩ :: ⟨place + 8, 2⟩ :: ⟨place + 4, 4⟩ :: reads
      let ttl := ntohl message.msg (place + 4)
      let len := ntohs message.msg (place + 8)
      let pos := place + 10
      let type := ntohs message.msg place
      let response (responseType : Int) : DnsMsg :=
        { message with
          responseType := responseType
          responsePosition := .ofNat pos
          responseLength := .ofNat len }
      if type = 1 ∨ type = 28 then
        { ret := 0, message := response (-21), ttl := some ttl, type := some type, reads := reads }
      else if type = 5 then
        { ret := 0, message := response (-19), ttl := some ttl, type := some type, reads := reads }
      else
        { ret := -eInval, message := message, ttl := some ttl, type := some type, reads := reads }

def dnsUnpackAnswer (fuel : Nat) (mdns : Bool) (message : DnsMsg) : Option Answer :=
  let offset := message.answerOffset.toNat
  let bufSz : Int := message.msgSize.toNat - offset
  (loop (skipTurn message.msg offset bufSz) fuel {}).map fun (dnameLen, reads) =>
    if dnameLen < 0 then { ret := dnameLen, message := message, reads := reads }
    else unpackRecord mdns message dnameLen.toNat reads

-----------------------------------------------------------------------------------------
-- Copying a name
-----------------------------------------------------------------------------------------

structure Copying where
  pos : UInt16
  len : Nat := 0
  buf : Nat → UInt8
  reads : List Access := []
  writes : List Access := []

/-- What `dns_copy_qname` returns, with `*len`, the destination and the accesses. -/
structure Copied where
  rc : Int
  state : Copying

def copyTurn (message : DnsMsg) (size : UInt16) (state : Copying) : Copying ⊕ Copied :=
  if message.msgSize ≤ state.pos then .inr ⟨-eNoMem, state⟩
  else
    let place := state.pos.toNat
    let lbSize := (message.msg place).toNat
    let state := { state with reads := ⟨place, 1⟩ :: state.reads }
    if dnsLabelMaxSize < lbSize then
      if message.msgSize.toNat ≤ place + 1 then .inr ⟨-eNoMem, state⟩
      else
        .inl { state with
          pos := .ofNat (256 * (lbSize % 64) + (message.msg (place + 1)).toNat)
          reads := ⟨place + 1, 1⟩ :: state.reads }
    else if size.toNat - state.len < 1 + lbSize then .inr ⟨-eNoMem, state⟩
    else
      -- the label is not compared with the size of the message
      let state :=
        { pos := state.pos + .ofNat (1 + lbSize)
          len := state.len + (1 + lbSize)
          buf := fun index =>
            if state.len ≤ index ∧ index < state.len + (1 + lbSize) then
              message.msg (place + (index - state.len))
            else state.buf index
          reads := ⟨place, 1 + lbSize⟩ :: state.reads
          writes := ⟨state.len, 1 + lbSize⟩ :: state.writes }
      if lbSize = 0 then .inr ⟨0, state⟩ else .inl state

def dnsCopyQname (fuel : Nat) (buf : Nat → UInt8) (size : UInt16) (message : DnsMsg)
    (pos : UInt16) : Option Copied :=
  loop (copyTurn message size) fuel { pos := pos, buf := buf }

-----------------------------------------------------------------------------------------
-- Unpacking a name and a query
-----------------------------------------------------------------------------------------

/-- A `struct net_buf`: its bytes, and how many there can be. -/
structure NetBuf where
  data : List UInt8
  room : Nat

structure Unpacking where
  currSrc : Nat
  endOfLabel : Option Nat := none
  loopCheck : Nat := 0
  data : List UInt8
  reads : List Access := []
  writes : List Access := []

/-- What `dns_unpack_name` returns, with `*eol` if it succeeds, the buffer and the accesses. -/
structure Unpacked where
  ret : Int
  eol : Option Nat := none
  data : List UInt8
  reads : List Access
  writes : List Access

def Unpacking.fails (state : Unpacking) : Unpacked :=
  { ret := -eMsgSize, data := state.data, reads := state.reads, writes := state.writes }

/-- A turn of the loop of `dns_unpack_name`; `destSize` is the room before the first turn. -/
def unpackTurn (memory : Nat → UInt8) (maxlen destSize : Nat) (state : Unpacking)
    : Unpacking ⊕ Unpacked :=
  let val := (memory state.currSrc).toNat
  let currSrc := state.currSrc + 1
  let state := { state with reads := ⟨state.currSrc, 1⟩ :: state.reads }
  if val = 0 then
    .inr {
      ret := state.data.length
      eol := some (state.endOfLabel.getD currSrc)
      data := state.data
      reads := state.reads
      writes := ⟨state.data.length, 1⟩ :: state.writes }
  else if 64 ≤ val then
    if maxlen ≤ currSrc then .inr state.fails
    else
      let pos := 256 * (val % 64) + (memory currSrc).toNat
      let state := { state with reads := ⟨currSrc, 1⟩ :: state.reads }
      if maxlen ≤ pos then .inr state.fails
      else if maxlen ≤ state.loopCheck + 2 then .inr state.fails
      else
        .inl { state with
          currSrc := pos
          endOfLabel := some (currSrc + 1)
          loopCheck := state.loopCheck + 2 }
  -- the bytes that are in the buffer already are not counted
  else if destSize ≤ val + 1 ∨ maxlen ≤ currSrc + val then .inr state.fails
  else
    .inl { state with
      currSrc := currSrc + val
      loopCheck := state.loopCheck + (val + 1)
      data := state.data ++ dot :: (List.range val).map fun index => memory (currSrc + index)
      reads := ⟨currSrc, val⟩ :: state.reads
      writes := ⟨state.data.length, val + 1⟩ :: state.writes }

/-- `dns_unpack_name` for the name at the offset `src`. -/
def dnsUnpackName (fuel : Nat) (memory : Nat → UInt8) (maxlen src : Nat) (buf : NetBuf)
    : Option Unpacked :=
  if maxlen ≤ src then
    some { ret := -eMsgSize, data := buf.data, reads := [], writes := [] }
  else
    loop (unpackTurn memory maxlen (buf.room - buf.data.length)) fuel
      { currSrc := src, data := buf.data }

structure Query where
  ret : Int
  message : DnsMsg
  qtype : Option Nat := none
  qclass : Option Nat := none
  name : Unpacked
  reads : List Access

/-- What `dns_unpack_query` does behind a name that ends at `eol`. -/
def unpackQuestion (message : DnsMsg) (name : Unpacked) (eol : Nat) : Query :=
  let queryType := ntohs message.msg eol
  let reads := ⟨eol, 2⟩ :: name.reads
  if queryType ∉ [1, 28, 12, 33, 16] then
    { ret := -eInval, message := message, name := name, reads := reads }
  else
    let queryClass := ntohs message.msg (eol + 2)
    let reads := ⟨eol + 2, 2⟩ :: reads
    if queryClass ≠ 1 then
      { ret := -eInval, message := message, name := name, reads := reads }
    else
      { ret := name.ret
        message := { message with queryOffset := .ofNat (eol + 4) }
        qtype := some queryType
        qclass := some queryClass
        name := name
        reads := reads }

def dnsUnpackQuery (fuel : Nat) (message : DnsMsg) (buf : NetBuf) : Option Query :=
  (dnsUnpackName fuel message.msg message.msgSize.toNat message.queryOffset.toNat buf).map
    fun name =>
      match name.eol with
      | none => { ret := name.ret, message := message, name := name, reads := name.reads }
      | some eol => unpackQuestion message name eol

end Zephyr.Dns
