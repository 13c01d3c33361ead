import Mathlib
import Zephyr.Library.Overwrite

/-! Building, editing and parsing the options of a CoAP packet, of `subsys/net/lib/coap/coap.c`. -/

namespace Zephyr.Coap

open Zephyr.Library

inductive Errno where
  | einval
  | eilseq
  | ebadmsg
  deriving DecidableEq, Repr

/-- `struct coap_packet`. The buffer of the user may be longer than `max_len`. -/
structure Packet where
  data : List UInt8
  offset : Nat := 0
  maxLen : Nat
  hdrLen : Nat := 0
  optLen : Nat := 0
  delta : Nat := 0
  deriving DecidableEq, Repr

/-- `struct coap_option` -/
structure Opt where
  code : Nat := 0
  value : List UInt8 := []
  deriving DecidableEq, Repr

/-- `COAP_OPTION_NO_EXT` -/
def noExt : Nat := 12

/-- `COAP_OPTION_EXT_13` -/
def ext13 : Nat := 13

/-- `COAP_OPTION_EXT_14` -/
def ext14 : Nat := 14

/-- `COAP_OPTION_EXT_269` -/
def ext269 : Nat := 269

/-- `COAP_MARKER` -/
def marker : UInt8 := 0xFF

/-- `BASIC_HEADER_SIZE` -/
def basicHeaderSize : Nat := 4

/-! ### Writing -/

/-- `encode_buffer` -/
def encodeBuffer (cpkt : Packet) (offset : Nat) (data : List UInt8) : Packet :=
  { cpkt with data := overwrite cpkt.data offset data, offset := cpkt.offset + data.length }

/-- `encode_u8` -/
def encodeU8 (cpkt : Packet) (offset : Nat) (data : UInt8) : Packet :=
  encodeBuffer cpkt offset [data]

/-- The two bytes of a number, the higher one first. -/
def be16 (data : Nat) : List UInt8 :=
  [.ofNat (data / 2 ^ 8), .ofNat data]

/-- `encode_be16` -/
def encodeBe16 (cpkt : Packet) (offset : Nat) (data : Nat) : Packet :=
  encodeBuffer cpkt offset (be16 data)

/-- `enough_space` -/
def enoughSpace (cpkt : Packet) (bytesToAdd : Nat) : Bool :=
  cpkt.offset + bytesToAdd ≤ cpkt.maxLen

/-- `memmove(&cpkt->data[offset + n], &cpkt->data[offset], cpkt->offset - offset)` -/
def makeRoom (cpkt : Packet) (offset n : Nat) : Packet :=
  { cpkt with data := moveEntries cpkt.data (offset + n) offset (cpkt.offset - offset) }

/-- `append_u8` -/
def appendU8 (cpkt : Packet) (data : UInt8) : Bool × Packet :=
  if enoughSpace cpkt 1 then (true, encodeU8 cpkt cpkt.offset data) else (false, cpkt)

/-- `append_be16` -/
def appendBe16 (cpkt : Packet) (data : Nat) : Bool × Packet :=
  if enoughSpace cpkt 2 then (true, encodeBe16 cpkt cpkt.offset data) else (false, cpkt)

/-- `append`, with data that are there -/
def append (cpkt : Packet) (data : List UInt8) : Bool × Packet :=
  if enoughSpace cpkt data.length then (true, encodeBuffer cpkt cpkt.offset data)
  else (false, cpkt)

/-- `insert_u8` -/
def insertU8 (cpkt : Packet) (data : UInt8) (offset : Nat) : Bool × Packet :=
  if enoughSpace cpkt 1 then (true, encodeU8 (makeRoom cpkt offset 1) offset data)
  else (false, cpkt)

/-- `insert_be16`, which writes at the end of the packet -/
def insertBe16 (cpkt : Packet) (data : Nat) (offset : Nat) : Bool × Packet :=
  if enoughSpace cpkt 2 then (true, encodeBe16 (makeRoom cpkt offset 2) cpkt.offset data)
  else (false, cpkt)

/-- `insert`, with data that are there -/
def insert (cpkt : Packet) (data : List UInt8) (offset : Nat) : Bool × Packet :=
  if enoughSpace cpkt data.length then
    (true, encodeBuffer (makeRoom cpkt offset data.length) offset data)
  else (false, cpkt)

/-- `coap_packet_init` -/
def coapPacketInit (data : List UInt8) (maxLen : Nat) (ver type code : UInt8) (token : List UInt8)
    (id : Nat)
    : Except Errno Packet :=
  if maxLen = 0 then .error .einval
  else
    let hdr := (ver &&& 0x3) <<< 6 ||| (type &&& 0x3) <<< 4 ||| (.ofNat token.length &&& 0xF)
    match appendU8 { data := data, maxLen := maxLen } hdr with
    | (false, _) => .error .einval
    | (true, cpkt) =>
        match appendU8 cpkt code with
        | (false, _) => .error .einval
        | (true, cpkt) =>
            match appendBe16 cpkt id with
            | (false, _) => .error .einval
            | (true, cpkt) =>
                let (res, cpkt) := if token = [] then (true, cpkt) else append cpkt token
                if res then .ok { cpkt with hdrLen := 1 + 1 + 2 + token.length }
                else .error .einval

/-! ### One option -/

/-- `encode_extended_option`: the size of the extension, the four bits and the extension -/
def encodeExtendedOption (num : Nat) : Nat × Nat × Nat :=
  if num < ext13 then (0, num, 0)
  else if num < ext269 then (1, ext13, num - ext13)
  else (2, ext14, num - ext269)

/-- `option_header_set_delta` and `option_header_set_len` -/
def optionHeader (delta len : Nat) : UInt8 :=
  (UInt8.ofNat delta &&& 0xF) <<< 4 ||| (UInt8.ofNat len &&& 0xF)

/-- An extension of so many bytes is inserted. -/
def insertExt (cpkt : Packet) (size ext offset : Nat) : Bool × Packet :=
  if size = 1 then insertU8 cpkt (.ofNat ext) offset
  else if size = 2 then insertBe16 cpkt ext offset
  else (true, cpkt)

/-- `if (len && value)` with the value of an option -/
def insertValue (cpkt : Packet) (value : List UInt8) (offset : Nat) : Bool × Packet :=
  if value = [] then (true, cpkt) else insert cpkt value offset

/-- `encode_option`, where `code` is the difference to the code before -/
def encodeOption (cpkt : Packet) (code : Nat) (value : List UInt8) (offset : Nat)
    : Except Errno Nat × Packet :=
  let (deltaSize, optDelta, deltaExt) := encodeExtendedOption code
  let (lenSize, optLen, lenExt) := encodeExtendedOption value.length
  match insertU8 cpkt (optionHeader optDelta optLen) offset with
  | (false, cpkt) => (.error .einval, cpkt)
  | (true, cpkt) =>
      match insertExt cpkt deltaSize deltaExt (offset + 1) with
      | (false, cpkt) => (.error .einval, cpkt)
      | (true, cpkt) =>
          match insertExt cpkt lenSize lenExt (offset + 1 + deltaSize) with
          | (false, cpkt) => (.error .einval, cpkt)
          | (true, cpkt) =>
              match insertValue cpkt value (offset + 1 + deltaSize + lenSize) with
              | (false, cpkt) => (.error .einval, cpkt)
              | (true, cpkt) => (.ok (1 + deltaSize + lenSize + value.length), cpkt)

/-- Where the next option is, the code of the last one, and the length of the options so far. -/
structure Cursor where
  pos : Nat
  optDelta : Nat := 0
  optLen : Nat := 0
  deriving DecidableEq, Repr

/-- `read_u8`: what is left, the next position and the value -/
def readU8 (data : List UInt8) (offset maxLen : Nat) : Except Errno (Nat × Nat × Nat) :=
  if maxLen < offset + 1 then .error .einval
  else .ok (maxLen - (offset + 1), offset + 1, (data.getD offset 0).toNat)

/-- `read_be16` -/
def readBe16 (data : List UInt8) (offset maxLen : Nat) : Except Errno (Nat × Nat × Nat) :=
  if maxLen < offset + 2 then .error .einval
  else
    .ok (maxLen - (offset + 2), offset + 2,
      (data.getD offset 0).toNat * 2 ^ 8 + (data.getD (offset + 1) 0).toNat)

/-- `decode_delta`: what is left, the next position, the number and the size of its extension -/
def decodeDelta (data : List UInt8) (offset maxLen opt : Nat)
    : Except Errno (Nat × Nat × Nat × Nat) :=
  if opt = ext13 then
    match readU8 data offset maxLen with
    | .error errno => .error errno
    | .ok (ret, pos, val) => .ok (ret, pos, (val + ext13) % 2 ^ 16, 1)
  else if opt = ext14 then
    match readBe16 data offset maxLen with
    | .error errno => .error errno
    | .ok (ret, pos, val) => .ok (ret, pos, (val + ext269) % 2 ^ 16, 2)
  else .error .einval

/-- A number that does not fit in four bits is read; `opt_len` must not overflow. -/
def parseExt (data : List UInt8) (r pos maxLen opt optLen : Nat)
    : Except Errno (Nat × Nat × Nat × Nat) :=
  if noExt < opt then
    match decodeDelta data pos maxLen opt with
    | .error errno => .error errno
    | .ok (r, pos, num, hdrLen) =>
        if 2 ^ 16 ≤ optLen + hdrLen then .error .einval else .ok (r, pos, num, optLen + hdrLen)
  else .ok (r, pos, opt, optLen)

/-- What `parse_option` returns and stores. -/
structure Parsed where
  left : Nat
  cursor : Cursor
  option : Option Opt := none
  deriving DecidableEq, Repr

/-- The value of an option is read, if there is a place for it, or passed over. -/
def parseValue (valueSize : Nat) (data : List UInt8) (maxLen : Nat) (cursor : Cursor) (len : Nat)
    (store : Bool)
    : Except Errno Parsed :=
  if store then
    if valueSize < len then .error .einval
    else if maxLen < cursor.pos + len then .error .einval
    else
      .ok
        { left := maxLen - (cursor.pos + len)
          cursor := { cursor with pos := cursor.pos + len }
          option := some ⟨cursor.optDelta, (data.drop cursor.pos).take len⟩ }
  else if 2 ^ 16 ≤ cursor.pos + len then .error .einval
  else if maxLen < cursor.pos + len then .error .einval
  else .ok { left := maxLen - (cursor.pos + len), cursor := { cursor with pos := cursor.pos + len } }

/-- `parse_option`, with the size of the value in `struct coap_option` -/
def parseOption (valueSize : Nat) (data : List UInt8) (cursor : Cursor) (maxLen : Nat)
    (store : Bool)
    : Except Errno Parsed :=
  match readU8 data cursor.pos maxLen with
  | .error errno => .error errno
  | .ok (r, pos, opt) =>
      if opt = marker.toNat then
        if 0 < r then .ok { left := 0, cursor := { cursor with pos := pos } } else .error .einval
      else if r = 0 ∧ noExt < opt / 2 ^ 4 then .error .einval
      else
        match parseExt data r pos maxLen (opt / 2 ^ 4) ((cursor.optLen + 1) % 2 ^ 16) with
        | .error errno => .error errno
        | .ok (r, pos, delta, optLen) =>
            if noExt < opt / 2 ^ 4 ∧ r = 0 ∧ noExt < opt % 2 ^ 4 then .error .einval
            else
              match parseExt data r pos maxLen (opt % 2 ^ 4) optLen with
              | .error errno => .error errno
              | .ok (r, pos, len, optLen) =>
                  if 2 ^ 16 ≤ cursor.optDelta + delta ∨ 2 ^ 16 ≤ optLen + len then .error .einval
                  else if r = 0 ∧ len ≠ 0 then .error .einval
                  else
                    parseValue valueSize data maxLen
                      { pos := pos, optDelta := cursor.optDelta + delta, optLen := optLen + len }
                      len store

/-! ### Appending and inserting -/

/-- The variables of the loops that look for an option. -/
structure Walk where
  cursor : Cursor
  lastCode : Nat := 0
  lastOffset : Nat
  option : Opt := {}
  deriving DecidableEq, Repr

/-- In front of the options. -/
def Packet.walk (cpkt : Packet) : Walk :=
  { cursor := { pos := cpkt.hdrLen }, lastOffset := cpkt.hdrLen }

/-- The loop of `insert_option` -/
def insertLoop (valueSize : Nat) (cpkt : Packet) (code : Nat) : Nat → Walk → Except Errno Walk
  | 0, walk => .ok walk
  | fuel + 1, walk =>
      if walk.cursor.pos < cpkt.hdrLen + cpkt.optLen then
        match parseOption valueSize cpkt.data walk.cursor (cpkt.hdrLen + cpkt.optLen) true with
        | .error _ => .error .eilseq
        | .ok parsed =>
            let option := parsed.option.getD walk.option
            if code < parsed.cursor.optDelta then
              .ok { walk with cursor := parsed.cursor, option := option }
            else
              insertLoop valueSize cpkt code fuel
                { cursor := parsed.cursor
                  lastCode := parsed.cursor.optDelta
                  lastOffset := parsed.cursor.pos
                  option := option }
      else .ok walk

/-- `remove_option_data` -/
def removeOptionData (cpkt : Packet) (toOffset fromOffset : Nat) : Packet :=
  { cpkt with
    data := moveEntries cpkt.data toOffset fromOffset (cpkt.offset - fromOffset)
    optLen := cpkt.optLen - (fromOffset - toOffset)
    offset := cpkt.offset - (fromOffset - toOffset) }

/-- An option is encoded, and the length of the options grows by it. -/
def addOption (cpkt : Packet) (code : Nat) (value : List UInt8) (offset : Nat)
    : Except Errno Nat × Packet :=
  match encodeOption cpkt code value offset with
  | (.error _, cpkt) => (.error .einval, cpkt)
  | (.ok r, cpkt) => (.ok r, { cpkt with optLen := cpkt.optLen + r })

/-- `insert_option` -/
def insertOption (valueSize : Nat) (cpkt : Packet) (code : Nat) (value : List UInt8)
    : Except Errno Unit × Packet :=
  match insertLoop valueSize cpkt code cpkt.optLen cpkt.walk with
  | .error errno => (.error errno, cpkt)
  | .ok walk =>
      -- The option behind the new one is cleared, because its delta changes.
      let cpkt := removeOptionData cpkt walk.lastOffset walk.cursor.pos
      match addOption cpkt (code - walk.lastCode) value walk.lastOffset with
      | (.error errno, cpkt) => (.error errno, cpkt)
      | (.ok r, cpkt) =>
          match addOption cpkt (walk.option.code - code) walk.option.value (walk.lastOffset + r) with
          | (.error errno, cpkt) => (.error errno, cpkt)
          | (.ok _, cpkt) => (.ok (), cpkt)

/-- The arguments `value` and `len` of a call: a null pointer with a length, or bytes. -/
inductive Value where
  | null (len : Nat)
  | bytes (value : List UInt8)
  deriving DecidableEq, Repr

/-- `coap_packet_append_option` with a value that is there, or is empty -/
def appendBytes (valueSize : Nat) (cpkt : Packet) (code : Nat) (value : List UInt8)
    : Except Errno Unit × Packet :=
  if code < cpkt.delta then insertOption valueSize cpkt code value
  else
    let code := if cpkt.optLen ≠ 0 then (if code = cpkt.delta then 0 else code - cpkt.delta) else code
    match addOption cpkt code value (cpkt.hdrLen + cpkt.optLen) with
    | (.error errno, cpkt) => (.error errno, cpkt)
    | (.ok _, cpkt) => (.ok (), { cpkt with delta := cpkt.delta + code })

/-- `coap_packet_append_option` -/
def coapPacketAppendOption (valueSize : Nat) (cpkt : Packet) (code : Nat) (value : Value)
    : Except Errno Unit × Packet :=
  match value with
  | .null len => if len ≠ 0 then (.error .einval, cpkt) else appendBytes valueSize cpkt code []
  | .bytes value => appendBytes valueSize cpkt code value

/-! ### Parsing -/

/-- The loop of `coap_packet_parse` with places for so many options; the options in order -/
def parseLoop (valueSize : Nat) (data : List UInt8) (maxLen : Nat)
    : Nat → Nat → Cursor → List Opt → Except Errno (Cursor × List Opt)
  | 0, _, _, _ => .error .eilseq
  | fuel + 1, optNum, cursor, options =>
      match parseOption valueSize data cursor maxLen (options.length < optNum) with
      | .error _ => .error .eilseq
      | .ok parsed =>
          let options := options ++ parsed.option.toList
          if parsed.left = 0 then .ok (parsed.cursor, options)
          else parseLoop valueSize data maxLen fuel optNum parsed.cursor options

/-- `coap_packet_parse`; a place in the array that no option was stored in is left out -/
def coapPacketParse (valueSize : Nat) (data : List UInt8) (len optNum : Nat)
    : Except Errno (Packet × List Opt) :=
  if len < basicHeaderSize then .error .einval
  else
    let tkl := (data.getD 0 0 &&& 0x0F).toNat
    let cpkt : Packet :=
      { data := data, offset := len, maxLen := len, hdrLen := basicHeaderSize + tkl }
    if 8 < tkl then .error .ebadmsg
    else if len < cpkt.hdrLen then .error .ebadmsg
    else if cpkt.hdrLen = len then .ok (cpkt, [])
    else
      match parseLoop valueSize data len len optNum { pos := cpkt.hdrLen } [] with
      | .error errno => .error errno
      | .ok (cursor, options) =>
          .ok ({ cpkt with optLen := cursor.optLen, delta := cursor.optDelta }, options)

end Zephyr.Coap
