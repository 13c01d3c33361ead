import Mathlib

/-! Frames of the modem PPP: the state machine that wraps packets into bytes, and the one that
takes packets out of received bytes.

Packet buffers are available, so every allocation succeeds. The ring buffer between the
transmitter and the pipe keeps the order of the bytes and is left out.
-/

namespace Zephyr.ModemPpp

def codeDelimiter : UInt8 := 0x7E

def codeEscape : UInt8 := 0x7D

def valueEscape : UInt8 := 0x20

/-- `crc16_ccitt` for one byte -/
def crc16Byte (seed : UInt16) (byte : UInt8) : UInt16 :=
  let e := seed.toUInt8 ^^^ byte
  let f := e ^^^ (e <<< 4)
  (seed >>> 8) ^^^ (f.toUInt16 <<< 8) ^^^ (f.toUInt16 <<< 3) ^^^ (f.toUInt16 >>> 4)

/-- `modem_ppp_fcs_init` -/
def fcsInit (byte : UInt8) : UInt16 :=
  crc16Byte 0xFFFF byte

/-- `modem_ppp_fcs_update` -/
def fcsUpdate (fcs : UInt16) (byte : UInt8) : UInt16 :=
  crc16Byte fcs byte

/-- `modem_ppp_fcs_final` -/
def fcsFinal (fcs : UInt16) : UInt16 :=
  fcs ^^^ 0xFFFF

-----------------------------------------------------------------------------------------
-- Transmitting
-----------------------------------------------------------------------------------------

inductive Family where
  | inet
  | inet6
  | unspec
  deriving DecidableEq, Repr

structure NetPkt where
  isPpp : Bool
  family : Family
  data : List UInt8
  deriving DecidableEq, Repr

/-- `modem_ppp_ppp_protocol` -/
def pppProtocol (pkt : NetPkt) : UInt16 :=
  match pkt.family with
  | .inet => 0x0021
  | .inet6 => 0x0057
  | .unspec => 0

inductive TransmitState where
  | idle
  | sof
  | hdrFf
  | hdr7d
  | hdr23
  | protocolHigh
  | escapingProtocolHigh
  | protocolLow
  | escapingProtocolLow
  | data
  | escapingData
  | fcsLow
  | escapingFcsLow
  | fcsHigh
  | escapingFcsHigh
  | eof
  deriving DecidableEq, Repr

/-- The fields of `struct modem_ppp` for the packet that is sent -/
structure Transmitter where
  transmitState : TransmitState
  txPkt : NetPkt
  /-- What is left of the packet behind its cursor. -/
  cursor : List UInt8 := []
  txPktEscaped : UInt8 := 0
  txPktProtocol : UInt16 := 0
  txPktFcs : UInt16 := 0

def isEscaped (byte : UInt8) : Bool :=
  byte = codeDelimiter || byte = codeEscape || byte < valueEscape

/-- A byte is returned, or the code for an escaped byte that follows. -/
def returnByte (byte : UInt8) (escaping plain : TransmitState) (t : Transmitter)
    : UInt8 × Transmitter :=
  if isEscaped byte then
    (codeEscape, { t with txPktEscaped := byte ^^^ valueEscape, transmitState := escaping })
  else (byte, { t with transmitState := plain })

/-- `modem_ppp_wrap_net_pkt_byte` -/
def wrapNetPktByte (t : Transmitter) : UInt8 × Transmitter :=
  match t.transmitState with
  | .idle => (0, t)
  | .sof => (codeDelimiter, { t with transmitState := .hdrFf })
  | .hdrFf =>
      (0xFF, { t with cursor := t.txPkt.data, txPktFcs := fcsInit 0xFF, transmitState := .hdr7d })
  | .hdr7d =>
      (codeEscape, { t with txPktFcs := fcsUpdate t.txPktFcs 0x03, transmitState := .hdr23 })
  | .hdr23 =>
      if t.txPkt.isPpp then (0x23, { t with transmitState := .data })
      else
        (0x23, { t with
          txPktProtocol := pppProtocol t.txPkt, transmitState := .protocolHigh })
  | .protocolHigh =>
      let byte := (t.txPktProtocol >>> 8).toUInt8
      returnByte byte .escapingProtocolHigh .protocolLow
        { t with txPktFcs := fcsUpdate t.txPktFcs byte }
  | .escapingProtocolHigh => (t.txPktEscaped, { t with transmitState := .protocolLow })
  | .protocolLow =>
      let byte := t.txPktProtocol.toUInt8
      returnByte byte .escapingProtocolLow .data { t with txPktFcs := fcsUpdate t.txPktFcs byte }
  | .escapingProtocolLow => (t.txPktEscaped, { t with transmitState := .data })
  | .data =>
      -- Nothing would be read from an empty packet.
      let byte := t.cursor.headD 0
      let t := { t with cursor := t.cursor.tail, txPktFcs := fcsUpdate t.txPktFcs byte }
      returnByte byte .escapingData (if t.cursor = [] then .fcsLow else .data) t
  | .escapingData =>
      (t.txPktEscaped, { t with transmitState := if t.cursor = [] then .fcsLow else .data })
  | .fcsLow =>
      let t := { t with txPktFcs := fcsFinal t.txPktFcs }
      returnByte t.txPktFcs.toUInt8 .escapingFcsLow .fcsHigh t
  | .escapingFcsLow => (t.txPktEscaped, { t with transmitState := .fcsHigh })
  | .fcsHigh => returnByte (t.txPktFcs >>> 8).toUInt8 .escapingFcsHigh .eof t
  | .escapingFcsHigh => (t.txPktEscaped, { t with transmitState := .eof })
  | .eof => (codeDelimiter, { t with transmitState := .idle })

/-- The loop of `modem_ppp_send_handler` over the bytes of one packet -/
def wrapLoop : Nat → Transmitter → List UInt8 × Transmitter
  | 0, t => ([], t)
  | fuel + 1, t =>
      if t.transmitState = .idle then ([], t)
      else
        let (byte, t) := wrapNetPktByte t
        let (bytes, t) := wrapLoop fuel t
        (byte :: bytes, t)

/-- A packet is sent from the start of its frame on. -/
def transmit (pkt : NetPkt) : List UInt8 × Transmitter :=
  wrapLoop (2 * pkt.data.length + 16) { transmitState := .sof, txPkt := pkt }

-----------------------------------------------------------------------------------------
-- Receiving
-----------------------------------------------------------------------------------------

inductive ReceiveState where
  | hdrSof
  | hdrFf
  | hdr7d
  | hdr23
  | writing
  | unescaping
  deriving DecidableEq, Repr

/-- The fields of `struct modem_ppp` for the packet that is received, with the packets that have
been handed to the network
-/
structure Receiver where
  receiveState : ReceiveState := .hdrSof
  rxPkt : List UInt8 := []
  delivered : List (List UInt8) := []
  deriving DecidableEq, Repr

/-- `net_pkt_remove_tail`, which fails without effect on a shorter packet -/
def removeTail (pkt : List UInt8) (length : Nat) : List UInt8 :=
  if pkt.length < length then pkt else pkt.take (pkt.length - length)

/-- `modem_ppp_process_received_byte` -/
def processReceivedByte (r : Receiver) (byte : UInt8) : Receiver :=
  match r.receiveState with
  | .hdrSof => if byte = codeDelimiter then { r with receiveState := .hdrFf } else r
  | .hdrFf =>
      if byte = codeDelimiter then r
      else if byte = 0xFF then { r with receiveState := .hdr7d }
      else { r with receiveState := .hdrSof }
  | .hdr7d =>
      if byte = codeEscape then { r with receiveState := .hdr23 }
      else { r with receiveState := .hdrSof }
  | .hdr23 =>
      if byte = 0x23 then { r with receiveState := .writing, rxPkt := [] }
      else { r with receiveState := .hdrSof }
  | .writing =>
      if byte = codeDelimiter then
        { receiveState := .hdrFf, rxPkt := [], delivered := r.delivered ++ [removeTail r.rxPkt 2] }
      else if byte = codeEscape then { r with receiveState := .unescaping }
      else { r with rxPkt := r.rxPkt ++ [byte] }
  | .unescaping =>
      { r with receiveState := .writing, rxPkt := r.rxPkt ++ [byte ^^^ valueEscape] }

def receive (r : Receiver) (bytes : List UInt8) : Receiver :=
  bytes.foldl processReceivedByte r

-----------------------------------------------------------------------------------------
-- The bytes of a frame
-----------------------------------------------------------------------------------------

/-- A byte as it is sent. -/
def escapeByte (byte : UInt8) : List UInt8 :=
  if isEscaped byte then [codeEscape, byte ^^^ valueEscape] else [byte]

/-- The protocol field and the payload. -/
def content (pkt : NetPkt) : List UInt8 :=
  if pkt.isPpp then pkt.data
  else (pppProtocol pkt >>> 8).toUInt8 :: (pppProtocol pkt).toUInt8 :: pkt.data

/-- The check sequence of a packet. -/
def checkSequence (pkt : NetPkt) : UInt16 :=
  fcsFinal ((content pkt).foldl fcsUpdate (fcsUpdate (fcsInit 0xFF) 0x03))

/-- The bytes behind the header of a frame, before they are escaped. -/
def frameBytes (pkt : NetPkt) : List UInt8 :=
  content pkt ++ [(checkSequence pkt).toUInt8, (checkSequence pkt >>> 8).toUInt8]

def frame (pkt : NetPkt) : List UInt8 :=
  [codeDelimiter, 0xFF, codeEscape, 0x23] ++ (frameBytes pkt).flatMap escapeByte ++ [codeDelimiter]

/-- Calls of the transmit state machine that return so many bytes. -/
inductive Wraps : Transmitter → List UInt8 → Transmitter → Prop where
  | nil (t : Transmitter) : Wraps t [] t
  | cons {t last : Transmitter} {bytes : List UInt8} (notIdle : t.transmitState ≠ .idle)
      (later : Wraps (wrapNetPktByte t).2 bytes last)
      : Wraps t ((wrapNetPktByte t).1 :: bytes) last

variable {t middle last : Transmitter} {bytes more : List UInt8} {byte : UInt8}

theorem Wraps.append (first : Wraps t bytes middle) (second : Wraps middle more last)
    : Wraps t (bytes ++ more) last := by
  induction first with
  | nil t => exact second
  | cons notIdle _ fromLater => exact .cons notIdle (fromLater second)

theorem Wraps.one (notIdle : t.transmitState ≠ .idle) (wrapped : wrapNetPktByte t = (byte, last))
    : Wraps t [byte] last := by
  have first : Wraps t [(wrapNetPktByte t).1] (wrapNetPktByte t).2 := .cons notIdle (.nil _)
  rwa [wrapped] at first

theorem wrapLoop_of_wraps {fuel : Nat} (wraps : Wraps t bytes last)
    (isIdle : last.transmitState = .idle) (enough : bytes.length < fuel)
    : wrapLoop fuel t = (bytes, last) := by
  induction wraps generalizing fuel with
  | nil t =>
      obtain ⟨fuel, rfl⟩ := Nat.exists_eq_succ_of_ne_zero (Nat.ne_of_gt enough)
      rw [wrapLoop, if_pos isIdle]
  | @cons t last bytes notIdle later fromLater =>
      obtain ⟨fuel, rfl⟩ := Nat.exists_eq_succ_of_ne_zero (Nat.ne_zero_of_lt enough)
      rw [wrapLoop, if_neg notIdle]
      dsimp only
      rw [fromLater isIdle (Nat.lt_of_succ_lt_succ enough)]

/-- A byte is returned in one call or in two. -/
theorem wraps_returnByte {b : Transmitter} {escaping plain : TransmitState}
    (notIdle : b.transmitState ≠ .idle) (escapes : escaping ≠ .idle)
    (wrapped : wrapNetPktByte b = returnByte byte escaping plain t)
    (escaped
      : ∀ code,
          wrapNetPktByte { t with txPktEscaped := code, transmitState := escaping }
            = (code, { t with txPktEscaped := code, transmitState := plain }))
    : ∃ code, Wraps b (escapeByte byte)
        { t with txPktEscaped := code, transmitState := plain } := by
  unfold returnByte at wrapped
  unfold escapeByte
  split_ifs at wrapped ⊢ with isEscaped
  · exact ⟨_, (Wraps.one notIdle wrapped).append (Wraps.one escapes (escaped _))⟩
  · exact ⟨_, Wraps.one notIdle wrapped⟩

theorem wraps_data {payload : List UInt8} (notEmpty : payload ≠ [])
    (isData : t.transmitState = .data) (isCursor : t.cursor = payload)
    : ∃ code, Wraps t (payload.flatMap escapeByte)
        { t with
          txPktEscaped := code, transmitState := .fcsLow, cursor := []
          txPktFcs := payload.foldl fcsUpdate t.txPktFcs } := by
  induction payload generalizing t with
  | nil => exact absurd rfl notEmpty
  | cons byte payload fromRest =>
      have wrapped : wrapNetPktByte t
          = returnByte byte .escapingData (if payload = [] then .fcsLow else .data)
              { t with cursor := payload, txPktFcs := fcsUpdate t.txPktFcs byte } := by
        unfold wrapNetPktByte
        rw [isData]
        dsimp only
        rw [isCursor]
        rfl
      have notIdle : t.transmitState ≠ .idle := by
        rw [isData]
        decide
      obtain ⟨code, first⟩ := wraps_returnByte notIdle (by decide) wrapped fun code => rfl
      rw [List.flatMap_cons]
      by_cases isLast : payload = []
      · subst isLast
        rw [List.flatMap_nil, List.append_nil]
        exact ⟨code, first⟩
      · rw [if_neg isLast] at first
        obtain ⟨code', later⟩ := fromRest isLast (t := { t with
          txPktEscaped := code, transmitState := .data, cursor := payload
          txPktFcs := fcsUpdate t.txPktFcs byte }) rfl rfl
        exact ⟨code', first.append later⟩

theorem wraps_protocol (isProtocol : t.transmitState = .protocolHigh)
    : ∃ code, Wraps t
        (escapeByte (t.txPktProtocol >>> 8).toUInt8 ++ escapeByte t.txPktProtocol.toUInt8)
        { t with
          txPktEscaped := code, transmitState := .data
          txPktFcs := fcsUpdate (fcsUpdate t.txPktFcs (t.txPktProtocol >>> 8).toUInt8)
            t.txPktProtocol.toUInt8 } := by
  have notIdle : t.transmitState ≠ .idle := by simp [isProtocol]
  have wrapped : wrapNetPktByte t
      = returnByte (t.txPktProtocol >>> 8).toUInt8 .escapingProtocolHigh .protocolLow
          { t with txPktFcs := fcsUpdate t.txPktFcs (t.txPktProtocol >>> 8).toUInt8 } := by
    unfold wrapNetPktByte
    rw [isProtocol]
  obtain ⟨code, high⟩ := wraps_returnByte notIdle (by decide) wrapped fun code => rfl
  obtain ⟨code', low⟩ := wraps_returnByte
    (b := { t with
      txPktEscaped := code, transmitState := .protocolLow
      txPktFcs := fcsUpdate t.txPktFcs (t.txPktProtocol >>> 8).toUInt8 })
    (by simp) (by decide) rfl fun code => rfl
  exact ⟨code', high.append low⟩

theorem wraps_fcs (isFcs : t.transmitState = .fcsLow)
    : ∃ last, Wraps t
          (escapeByte (fcsFinal t.txPktFcs).toUInt8
            ++ escapeByte (fcsFinal t.txPktFcs >>> 8).toUInt8 ++ [codeDelimiter]) last
        ∧ last.transmitState = .idle := by
  have notIdle : t.transmitState ≠ .idle := by simp [isFcs]
  have wrapped : wrapNetPktByte t
      = returnByte (fcsFinal t.txPktFcs).toUInt8 .escapingFcsLow .fcsHigh
          { t with txPktFcs := fcsFinal t.txPktFcs } := by
    unfold wrapNetPktByte
    rw [isFcs]
  obtain ⟨code, low⟩ := wraps_returnByte notIdle (by decide) wrapped fun code => rfl
  obtain ⟨code', high⟩ := wraps_returnByte
    (b := { t with
      txPktEscaped := code, transmitState := .fcsHigh, txPktFcs := fcsFinal t.txPktFcs })
    (by simp) (by decide) rfl fun code => rfl
  exact ⟨_, (low.append high).append (Wraps.one (by simp) rfl), rfl⟩

/-- The protocol field is sent unless it is part of the packet. -/
theorem wraps_content (isHeader : t.transmitState = .hdr23) (isCursor : t.cursor = t.txPkt.data)
    (notEmpty : t.txPkt.data ≠ [])
    : ∃ last, Wraps t (0x23 :: (content t.txPkt).flatMap escapeByte) last
        ∧ last.transmitState = .fcsLow
        ∧ last.txPktFcs = (content t.txPkt).foldl fcsUpdate t.txPktFcs := by
  have notIdle : t.transmitState ≠ .idle := by simp [isHeader]
  unfold content
  by_cases isPpp : t.txPkt.isPpp = true
  · have first : wrapNetPktByte t = (0x23, { t with transmitState := .data }) := by
      unfold wrapNetPktByte
      rw [isHeader]
      exact if_pos isPpp
    obtain ⟨code, later⟩ := wraps_data (t := { t with transmitState := .data }) notEmpty rfl
      isCursor
    rw [if_pos isPpp]
    exact ⟨_, (Wraps.one notIdle first).append later, rfl, rfl⟩
  · have first : wrapNetPktByte t
        = (0x23, { t with
            txPktProtocol := pppProtocol t.txPkt, transmitState := .protocolHigh }) := by
      unfold wrapNetPktByte
      rw [isHeader]
      exact if_neg isPpp
    obtain ⟨code, field⟩ := wraps_protocol
      (t := { t with txPktProtocol := pppProtocol t.txPkt, transmitState := .protocolHigh }) rfl
    obtain ⟨code', later⟩ := wraps_data (t := { t with
        txPktProtocol := pppProtocol t.txPkt, txPktEscaped := code, transmitState := .data
        txPktFcs := fcsUpdate (fcsUpdate t.txPktFcs (pppProtocol t.txPkt >>> 8).toUInt8)
          (pppProtocol t.txPkt).toUInt8 }) notEmpty rfl isCursor
    have all := (Wraps.one notIdle first).append (field.append later)
    rw [if_neg isPpp, List.flatMap_cons, List.flatMap_cons, ← List.append_assoc]
    exact ⟨_, all, rfl, rfl⟩

theorem length_escapeByte_le (byte : UInt8) : (escapeByte byte).length ≤ 2 := by
  unfold escapeByte
  split_ifs <;> simp

theorem length_flatMap_escapeByte_le (bytes : List UInt8)
    : (bytes.flatMap escapeByte).length ≤ 2 * bytes.length := by
  induction bytes with
  | nil => simp
  | cons byte bytes fromRest =>
      have := length_escapeByte_le byte
      rw [List.flatMap_cons, List.length_append, List.length_cons]
      omega

/-- A packet is sent as its frame, and the transmitter is idle again. -/
theorem transmit_eq_frame {pkt : NetPkt} (notEmpty : pkt.data ≠ [])
    : (transmit pkt).1 = frame pkt ∧ (transmit pkt).2.transmitState = .idle := by
  have header : Wraps { transmitState := .sof, txPkt := pkt } [codeDelimiter, 0xFF, codeEscape]
      { transmitState := .hdr23, txPkt := pkt, cursor := pkt.data
        txPktFcs := fcsUpdate (fcsInit 0xFF) 0x03 } :=
    .cons (by simp) (.cons (by simp [wrapNetPktByte]) (.cons (by simp [wrapNetPktByte]) (.nil _)))
  obtain ⟨middle, body, isFcs, isSequence⟩ := wraps_content
    (t := { transmitState := .hdr23, txPkt := pkt, cursor := pkt.data
            txPktFcs := fcsUpdate (fcsInit 0xFF) 0x03 }) rfl rfl notEmpty
  obtain ⟨last, tail, isIdle⟩ := wraps_fcs isFcs
  rw [isSequence] at tail
  have wraps : Wraps { transmitState := .sof, txPkt := pkt } (frame pkt) last := by
    have all := header.append (body.append tail)
    unfold frame frameBytes checkSequence
    simpa [List.flatMap_append] using all
  have enough : (frame pkt).length < 2 * pkt.data.length + 16 := by
    have shorter := length_flatMap_escapeByte_le (frameBytes pkt)
    have length : (frameBytes pkt).length ≤ pkt.data.length + 4 := by
      unfold frameBytes content
      split_ifs <;> simp
    unfold frame
    simp only [List.length_append, List.length_cons, List.length_nil]
    omega
  unfold transmit
  rw [wrapLoop_of_wraps wraps isIdle enough]
  exact ⟨rfl, isIdle⟩

-----------------------------------------------------------------------------------------
-- What is received of a frame
-----------------------------------------------------------------------------------------

variable {r : Receiver}

theorem receive_append (r : Receiver) (bytes more : List UInt8)
    : receive r (bytes ++ more) = receive (receive r bytes) more :=
  List.foldl_append

theorem xor_valueEscape (byte : UInt8) : byte ^^^ valueEscape ^^^ valueEscape = byte := by
  rw [UInt8.xor_assoc, UInt8.xor_self, UInt8.xor_zero]

/-- A byte is taken back from the one or two that were sent for it. -/
theorem receive_escapeByte (isWriting : r.receiveState = .writing) (byte : UInt8)
    : receive r (escapeByte byte) = { r with rxPkt := r.rxPkt ++ [byte] } := by
  obtain ⟨state, rxPkt, delivered⟩ := r
  cases isWriting
  unfold escapeByte receive
  split_ifs with isEscaped'
  · have unescaped := xor_valueEscape byte
    simp only [List.foldl_cons, List.foldl_nil, processReceivedByte, if_neg (by decide :
      codeEscape ≠ codeDelimiter), if_pos, unescaped]
  · simp only [isEscaped, Bool.or_eq_true, decide_eq_true_eq, not_or] at isEscaped'
    simp only [List.foldl_cons, List.foldl_nil, processReceivedByte, if_neg isEscaped'.1.1,
      if_neg isEscaped'.1.2]

theorem receive_escaped (isWriting : r.receiveState = .writing) (bytes : List UInt8)
    : receive r (bytes.flatMap escapeByte) = { r with rxPkt := r.rxPkt ++ bytes } := by
  induction bytes generalizing r with
  | nil =>
      rw [List.flatMap_nil, List.append_nil]
      rfl
  | cons byte bytes fromRest =>
      rw [List.flatMap_cons, receive_append, receive_escapeByte isWriting,
        fromRest (r := { r with rxPkt := r.rxPkt ++ [byte] }) isWriting]
      simp

theorem removeTail_append (bytes : List UInt8) (low high : UInt8)
    : removeTail (bytes ++ [low, high]) 2 = bytes := by
  unfold removeTail
  rw [if_neg (by simp)]
  simp

/-- The rest of a frame, with what has been written of the packet before, is delivered. -/
theorem receive_body (isWriting : r.receiveState = .writing) (pkt : NetPkt)
    : receive r ((frameBytes pkt).flatMap escapeByte ++ [codeDelimiter])
        = { receiveState := .hdrFf, rxPkt := []
            delivered := r.delivered ++ [r.rxPkt ++ content pkt] } := by
  have delivered : removeTail (r.rxPkt ++ frameBytes pkt) 2 = r.rxPkt ++ content pkt := by
    unfold frameBytes
    rw [← List.append_assoc, removeTail_append]
  rw [receive_append, receive_escaped isWriting]
  unfold receive
  simp only [List.foldl_cons, List.foldl_nil, processReceivedByte, isWriting, if_pos, delivered]

/-- Behind its flag, a frame is delivered. -/
theorem receive_frame_tail (isReady : r.receiveState = .hdrFf) (pkt : NetPkt)
    : receive r ([0xFF, codeEscape, 0x23]
          ++ ((frameBytes pkt).flatMap escapeByte ++ [codeDelimiter]))
        = { receiveState := .hdrFf, rxPkt := [], delivered := r.delivered ++ [content pkt] } := by
  have header : receive r [0xFF, codeEscape, 0x23]
      = { r with receiveState := .writing, rxPkt := [] } := by
    obtain ⟨state, rxPkt, delivered⟩ := r
    cases isReady
    rfl
  rw [receive_append, header, receive_body rfl]
  rfl

theorem frame_eq (pkt : NetPkt)
    : frame pkt = [codeDelimiter] ++ ([0xFF, codeEscape, 0x23]
        ++ ((frameBytes pkt).flatMap escapeByte ++ [codeDelimiter])) := by
  unfold frame
  simp

/-- A frame is delivered from every state in which a flag begins a frame. -/
theorem receive_frame (pkt : NetPkt)
    (isReady : (receive r [codeDelimiter]).receiveState = .hdrFf)
    : receive r (frame pkt)
        = { receiveState := .hdrFf, rxPkt := []
            delivered := (receive r [codeDelimiter]).delivered ++ [content pkt] } := by
  rw [frame_eq, receive_append, receive_frame_tail isReady]

/-- Every packet is delivered once, in order, with its protocol field and payload. -/
theorem packets_delivered (pkts : List NetPkt) (notEmpty : ∀ pkt ∈ pkts, pkt.data ≠ [])
    : (∀ pkt ∈ pkts, (transmit pkt).2.transmitState = .idle)
      ∧ (receive {} (pkts.flatMap fun pkt => (transmit pkt).1)).delivered = pkts.map content := by
  refine ⟨fun pkt member => (transmit_eq_frame (notEmpty pkt member)).2, ?_⟩
  -- Between two frames the receiver waits for one, with or without a flag.
  have delivers : ∀ (r : Receiver), r.receiveState = .hdrSof ∨ r.receiveState = .hdrFf
      → (receive r (pkts.flatMap fun pkt => (transmit pkt).1)).delivered
        = r.delivered ++ pkts.map content := by
    induction pkts with
    | nil =>
        intro r _
        exact (List.append_nil _).symm
    | cons pkt pkts fromRest =>
        intro r isBetween
        have flag : receive r [codeDelimiter] = { r with receiveState := .hdrFf } := by
          obtain ⟨state, rxPkt, delivered⟩ := r
          rcases isBetween with isSof | isFf
          · cases isSof
            rfl
          · cases isFf
            rfl
        have isReady : (receive r [codeDelimiter]).receiveState = .hdrFf := by rw [flag]
        rw [List.flatMap_cons, receive_append,
          (transmit_eq_frame (notEmpty pkt List.mem_cons_self)).1, receive_frame pkt isReady,
          fromRest (fun pkt member => notEmpty pkt (List.mem_cons_of_mem _ member)) _ (.inr rfl),
          flag, List.map_cons]
        simp
  have all := delivers {} (.inl rfl)
  rwa [List.nil_append] at all

/-- Two packets with bytes that are escaped. -/
theorem two_packets_delivered
    : (receive {} ([{ isPpp := false, family := .inet, data := [0x7E, 0x45] },
          { isPpp := true, family := .unspec, data := [0xC0, 0x21, 0x7D] }].flatMap
            fun pkt => (transmit pkt).1)).delivered
        = [[0x00, 0x21, 0x7E, 0x45], [0xC0, 0x21, 0x7D]] :=
  (packets_delivered _ (by decide)).2

-----------------------------------------------------------------------------------------
-- Frames behind other bytes
-----------------------------------------------------------------------------------------

theorem receive_no_flag {bytes : List UInt8} (isSearching : r.receiveState = .hdrSof)
    (noFlag : codeDelimiter ∉ bytes)
    : receive r bytes = r := by
  induction bytes with
  | nil => rfl
  | cons byte bytes fromRest =>
      rw [List.mem_cons, not_or] at noFlag
      have dropped : processReceivedByte r byte = r := by
        unfold processReceivedByte
        rw [isSearching]
        exact if_neg (Ne.symm noFlag.1)
      have rest := fromRest noFlag.2
      unfold receive at rest ⊢
      rw [List.foldl_cons, dropped, rest]

theorem escapeByte_no_flag (byte : Fin 256) : codeDelimiter ∉ escapeByte (UInt8.ofNat byte) := by
  revert byte
  decide +kernel

theorem escaped_no_flag (bytes : List UInt8) : codeDelimiter ∉ bytes.flatMap escapeByte := by
  intro member
  obtain ⟨byte, _, isFlag⟩ := List.mem_flatMap.mp member
  have noFlag := escapeByte_no_flag ⟨byte.toNat, byte.toNat_lt⟩
  rw [UInt8.ofNat_toNat] at noFlag
  exact noFlag isFlag

/-- A frame is lost while the receiver searches for a flag. -/
theorem receive_frame_tail_lost (isSearching : r.receiveState = .hdrSof) (pkt : NetPkt)
    : (receive r ([0xFF, codeEscape, 0x23]
          ++ ((frameBytes pkt).flatMap escapeByte ++ [codeDelimiter]))).delivered
        = r.delivered := by
  have noFlag : codeDelimiter
      ∉ [0xFF, codeEscape, 0x23] ++ (frameBytes pkt).flatMap escapeByte := by
    rw [List.mem_append, not_or]
    exact ⟨by decide, escaped_no_flag _⟩
  rw [← List.append_assoc, receive_append, receive_no_flag isSearching noFlag]
  obtain ⟨state, rxPkt, delivered⟩ := r
  cases isSearching
  rfl

/-- Behind an escape, the flag and the header are taken for bytes of the packet. -/
theorem receive_flag_escaped (isEscape : r.receiveState = .unescaping)
    : receive r ([codeDelimiter] ++ [0xFF, codeEscape, 0x23])
        = { r with receiveState := .writing, rxPkt := r.rxPkt ++ [0x5E, 0xFF, 0x03] } := by
  obtain ⟨state, rxPkt, delivered⟩ := r
  cases isEscape
  have joined : rxPkt ++ [0x5E, 0xFF, 0x03] = rxPkt ++ [0x5E] ++ [0xFF] ++ [0x03] := by simp
  rw [joined]
  rfl

/-- After any bytes, whether a frame is delivered depends on the state of the receiver: in the
middle of a header its flag is dropped, and behind an escape it is taken for a byte of the packet.
-/
theorem frame_after_noise (noise : List UInt8) (pkt : NetPkt) (notEmpty : pkt.data ≠ [])
    : let r := receive {} noise
      let delivered := (receive {} (noise ++ (transmit pkt).1)).delivered
      (r.receiveState = .hdrSof ∨ r.receiveState = .hdrFf ∨ r.receiveState = .writing
        → ∃ bad, delivered = r.delivered ++ bad ++ [content pkt])
      ∧ (r.receiveState = .hdr7d ∨ r.receiveState = .hdr23 → delivered = r.delivered)
      ∧ (r.receiveState = .unescaping
        → delivered = r.delivered ++ [r.rxPkt ++ [0x5E, 0xFF, 0x03] ++ content pkt]) := by
  dsimp only
  rw [(transmit_eq_frame notEmpty).1, receive_append]
  generalize receive {} noise = r
  refine ⟨fun isReady => ?_, fun isHeader => ?_, fun isEscape => ?_⟩
  · have flag : (receive r [codeDelimiter]).receiveState = .hdrFf
        ∧ ∃ bad, (receive r [codeDelimiter]).delivered = r.delivered ++ bad := by
      obtain ⟨state, rxPkt, delivered⟩ := r
      rcases isReady with isSof | isFf | isWriting
      · cases isSof
        exact ⟨rfl, [], (List.append_nil _).symm⟩
      · cases isFf
        exact ⟨rfl, [], (List.append_nil _).symm⟩
      · cases isWriting
        exact ⟨rfl, [removeTail rxPkt 2], rfl⟩
    obtain ⟨isReady', bad, isBad⟩ := flag
    refine ⟨bad, ?_⟩
    rw [receive_frame pkt isReady', isBad]
  · have dropped : receive r [codeDelimiter] = { r with receiveState := .hdrSof } := by
      obtain ⟨state, rxPkt, delivered⟩ := r
      rcases isHeader with is7d | is23
      · cases is7d
        rfl
      · cases is23
        rfl
    rw [frame_eq, receive_append, dropped, receive_frame_tail_lost rfl]
  · rw [frame_eq, ← List.append_assoc, receive_append, receive_flag_escaped isEscape,
      receive_body rfl]

/-- A frame behind the end of a frame that has been cut off is delivered. -/
theorem frame_after_cut_frame
    : ∃ bad, (receive {} ([0x7E, 0xFF, 0x7D, 0x23, 0x45]
          ++ (transmit { isPpp := true, family := .unspec, data := [0xC0] }).1)).delivered
        = bad ++ [[0xC0]] := by
  obtain ⟨bad, isLast⟩ := (frame_after_noise [0x7E, 0xFF, 0x7D, 0x23, 0x45]
    { isPpp := true, family := .unspec, data := [0xC0] } (by decide)).1 (by decide)
  exact ⟨_, isLast⟩

/-- Behind `7E FF`, or an escape in a packet, a frame is lost. -/
theorem frames_lost
    : (receive {} ([0x7E, 0xFF]
          ++ (transmit { isPpp := true, family := .unspec, data := [0xC0] }).1)).delivered = []
      ∧ (receive {} ([0x7E, 0xFF, 0x7D, 0x23, 0x7D]
          ++ (transmit { isPpp := true, family := .unspec, data := [0xC0] }).1)).delivered
        = [[0x5E, 0xFF, 0x03, 0xC0]] := by
  decide +kernel

end Zephyr.ModemPpp
