import Zephyr.Coap.Model

/-! What `coap_packet_parse` accepts, against the message format of RFC 7252.

The format is stated here with exact numbers. The code computes deltas and lengths in 16 bits, so
both readings of the options of a datagram agree as long as none of these numbers needs more.
-/

namespace Zephyr.Coap

/-- `coap_packet_get_payload`: the offset of the payload in the data and its length -/
def coapPacketGetPayload (cpkt : Packet) : Option (Nat × Nat) :=
  let payloadLen : Int := (cpkt.offset : Int) - cpkt.hdrLen - cpkt.optLen
  let len := if 1 < payloadLen then (payloadLen - 1).toNat % 2 ^ 16 else 0
  if len = 0 then none else some (cpkt.hdrLen + cpkt.optLen + 1, len)

-----------------------------------------------------------------------------------------
-- The format
-----------------------------------------------------------------------------------------

/-- The delta or the length that four bits and the bytes behind them stand for, and what is left
of the bytes.
-/
def rfcNumber (bits : Nat) (bytes : List UInt8) : Option (Nat × List UInt8) :=
  if bits < 13 then some (bits, bytes)
  else if bits = 13 then
    match bytes with
    | [] => none
    | ext :: rest => some (ext.toNat + 13, rest)
  else if bits = 14 then
    match bytes with
    | high :: low :: rest => some (high.toNat * 2 ^ 8 + low.toNat + 269, rest)
    | _ => none
  else none

/-- The exact delta and length of an option, and the bytes behind them. -/
def rfcHeader : List UInt8 → Option (Nat × Nat × List UInt8)
  | [] => none
  | first :: bytes =>
      match rfcNumber (first.toNat / 2 ^ 4) bytes with
      | none => none
      | some (delta, bytes) =>
          match rfcNumber (first.toNat % 2 ^ 4) bytes with
          | none => none
          | some (length, bytes) => some (delta, length, bytes)

/-- The bytes are options with these numbers and values, after an option with the number
`previous`.
-/
inductive RfcOptions : Nat → List UInt8 → List Opt → Prop where
  | nil (previous : Nat) : RfcOptions previous [] []
  | cons {previous delta : Nat} {bytes value rest : List UInt8} {options : List Opt}
      (header : rfcHeader bytes = some (delta, value.length, value ++ rest))
      (others : RfcOptions (previous + delta) rest options)
      : RfcOptions previous bytes (⟨previous + delta, value⟩ :: options)

/-- The exact delta and length in the header of an option. -/
structure Field where
  delta : Nat
  length : Nat
  deriving DecidableEq, Repr

/-- The bytes are options as the code reads them, with deltas and lengths modulo `2 ^ 16`; the
fields hold the exact ones.
-/
inductive Read16 : Nat → List UInt8 → List Field → List Opt → Prop where
  | nil (previous : Nat) : Read16 previous [] [] []
  | cons {previous delta length : Nat} {bytes value rest : List UInt8} {fields : List Field}
      {options : List Opt}
      (header : rfcHeader bytes = some (delta, length, value ++ rest))
      (isValue : value.length = length % 2 ^ 16)
      (others : Read16 (previous + delta % 2 ^ 16) rest fields options)
      : Read16 previous bytes (⟨delta, length⟩ :: fields)
          (⟨previous + delta % 2 ^ 16, value⟩ :: options)

/-- The number fits in the variable that the code has for it. -/
def Field.Fits (field : Field) : Prop :=
  field.delta < 2 ^ 16 ∧ field.length < 2 ^ 16

/-- Without a number that is too long, the code reads what the format says. -/
theorem Read16.rfcOptions {previous : Nat} {bytes : List UInt8} {fields : List Field}
    {options : List Opt} (reads : Read16 previous bytes fields options)
    (fit : ∀ field ∈ fields, field.Fits)
    : RfcOptions previous bytes options := by
  induction reads with
  | nil previous => exact .nil previous
  | cons header isValue others fromOthers =>
      have fits := fit _ List.mem_cons_self
      have same := Nat.mod_eq_of_lt fits.1
      rw [Nat.mod_eq_of_lt fits.2] at isValue
      have rest := fromOthers fun field isField => fit field (List.mem_cons_of_mem _ isField)
      simp only [same] at rest ⊢
      exact .cons (isValue ▸ header) rest

/-- The number of the last option. -/
def lastCode (previous : Nat) (options : List Opt) : Nat :=
  (options.getLast?.map Opt.code).getD previous

theorem lastCode_cons (previous : Nat) (option : Opt) (options : List Opt)
    : lastCode previous (option :: options) = lastCode option.code options := by
  simp [lastCode, List.getLast?_cons]

/-- Numbers ascend, so none is greater than the last. -/
theorem Read16.code_le_last {previous : Nat} {bytes : List UInt8} {fields : List Field}
    {options : List Opt} (reads : Read16 previous bytes fields options)
    : previous ≤ lastCode previous options
        ∧ ∀ option ∈ options, option.code ≤ lastCode previous options := by
  induction reads with
  | nil previous => exact ⟨le_refl _, fun option isOption => absurd isOption List.not_mem_nil⟩
  | cons header isValue others fromOthers =>
      rw [lastCode_cons]
      refine ⟨(Nat.le_add_right _ _).trans fromOthers.1, ?_⟩
      intro option isOption
      rcases List.mem_cons.mp isOption with rfl | isOther
      · exact fromOthers.1
      · exact fromOthers.2 option isOther

-----------------------------------------------------------------------------------------
-- One option
-----------------------------------------------------------------------------------------

variable {data : List UInt8} {pos : Nat}

theorem drop_eq_cons (isInside : pos + 1 ≤ data.length)
    : data.drop pos = data.getD pos 0 :: data.drop (pos + 1) := by
  rw [List.drop_eq_getElem_cons isInside, List.getD_eq_getElem _ _ isInside]

/-- A number is read as the format says, modulo `2 ^ 16`. -/
theorem parseExt_reads {r bits optLen r' pos' num optLen' : Nat} (isInside : pos ≤ data.length)
    (isLeft : r = data.length - pos)
    (parsed : parseExt data r pos data.length bits optLen = .ok (r', pos', num, optLen'))
    : ∃ exact,
        rfcNumber bits (data.drop pos) = some (exact, data.drop pos')
          ∧ num = exact % 2 ^ 16 ∧ pos ≤ pos' ∧ pos' ≤ data.length ∧ r' = data.length - pos'
          ∧ optLen' = optLen + (pos' - pos) := by
  unfold parseExt at parsed
  split_ifs at parsed with isLong
  · unfold decodeDelta at parsed
    split_ifs at parsed with isOne isTwo
    · unfold readU8 at parsed
      split_ifs at parsed with isShort
      dsimp only at parsed
      split_ifs at parsed
      simp only [Except.ok.injEq, Prod.mk.injEq] at parsed
      obtain ⟨rfl, rfl, rfl, rfl⟩ := parsed
      refine ⟨_, ?_, rfl, by omega, by omega, rfl, by omega⟩
      rw [isOne, drop_eq_cons (by omega)]
      rfl
    · unfold readBe16 at parsed
      split_ifs at parsed with isShort
      dsimp only at parsed
      split_ifs at parsed
      simp only [Except.ok.injEq, Prod.mk.injEq] at parsed
      obtain ⟨rfl, rfl, rfl, rfl⟩ := parsed
      refine ⟨_, ?_, rfl, by omega, by omega, rfl, by omega⟩
      rw [isTwo, drop_eq_cons (by omega), drop_eq_cons (by omega)]
      rfl
  · simp only [Except.ok.injEq, Prod.mk.injEq] at parsed
    obtain ⟨rfl, rfl, rfl, rfl⟩ := parsed
    unfold noExt at isLong
    refine ⟨bits, ?_, by omega, le_refl _, isInside, isLeft, by omega⟩
    exact if_pos (by omega)

/-- What `parse_option` does at a position of the datagram: the options end there, or there is
an option, and the cursor goes behind it.
-/
inductive OptionRead (data : List UInt8) (cursor : Cursor) (store : Bool) (parsed : Parsed)
    : Prop where
  | ends {payload : List UInt8}
      (isMarker : data.drop cursor.pos = marker :: payload)
      (isPayload : payload ≠ [])
      (isLeft : parsed.left = 0)
      (isCursor : parsed.cursor = { cursor with pos := cursor.pos + 1 })
      (isOption : parsed.option = none)
  | option {delta length : Nat} {value : List UInt8}
      (header : rfcHeader (data.drop cursor.pos)
        = some (delta, length, value ++ data.drop parsed.cursor.pos))
      (isValue : value.length = length % 2 ^ 16)
      (isPos : cursor.pos < parsed.cursor.pos)
      (isInside : parsed.cursor.pos ≤ data.length)
      (isLeft : parsed.left = data.length - parsed.cursor.pos)
      (isDelta : parsed.cursor.optDelta = cursor.optDelta + delta % 2 ^ 16)
      (isSmall : parsed.cursor.optDelta < 2 ^ 16)
      (isLen : parsed.cursor.optLen = cursor.optLen + (parsed.cursor.pos - cursor.pos))
      (isOption : parsed.option
        = if store then some ⟨parsed.cursor.optDelta, value⟩ else none)

/-- The value is the next bytes of the datagram. -/
theorem parseValue_reads {valueSize len : Nat} {cursor : Cursor} {store : Bool} {parsed : Parsed}
    (read : parseValue valueSize data data.length cursor len store = .ok parsed)
    : cursor.pos + len ≤ data.length
        ∧ parsed.left = data.length - (cursor.pos + len)
        ∧ parsed.cursor = { cursor with pos := cursor.pos + len }
        ∧ parsed.option
          = if store then some ⟨cursor.optDelta, (data.drop cursor.pos).take len⟩ else none := by
  unfold parseValue at read
  split_ifs at read with isStored
  all_goals
    simp only [Except.ok.injEq] at read
    subst read
  · exact ⟨by omega, rfl, rfl, by rw [if_pos isStored]⟩
  · exact ⟨by omega, rfl, rfl, by rw [if_neg isStored]⟩

theorem parseOption_reads {valueSize : Nat} {cursor : Cursor} {store : Bool} {parsed : Parsed}
    (isSmall : cursor.optLen + 1 < 2 ^ 16)
    (read : parseOption valueSize data cursor data.length store = .ok parsed)
    : OptionRead data cursor store parsed := by
  unfold parseOption readU8 at read
  by_cases isShort : data.length < cursor.pos + 1
  · simp [isShort] at read
  have first : data.drop cursor.pos = _ := drop_eq_cons (by omega)
  simp only [if_neg isShort, Nat.mod_eq_of_lt isSmall] at read
  generalize data.getD cursor.pos 0 = opt at first read
  split_ifs at read with isMarker isMore isCut
  · cases read
    have isByte : opt = marker := UInt8.toNat_inj.mp isMarker
    refine .ends (isByte ▸ first) ?_ rfl rfl rfl
    intro isEmpty
    have := List.drop_eq_nil_iff.mp isEmpty
    omega
  cases extended : parseExt data (data.length - (cursor.pos + 1)) (cursor.pos + 1) data.length
      (opt.toNat / 2 ^ 4) (cursor.optLen + 1) with
  | error errno =>
      rw [extended] at read
      cases read
  | ok result =>
      obtain ⟨r, pos, delta, optLen⟩ := result
      obtain ⟨exactDelta, isDelta, rfl, _, isInside, isLeft, isLen⟩ :=
        parseExt_reads (by omega) rfl extended
      simp only [extended] at read
      split_ifs at read
      cases again : parseExt data r pos data.length (opt.toNat % 2 ^ 4) optLen with
      | error errno =>
          rw [again] at read
          cases read
      | ok result =>
          obtain ⟨r', pos', len, optLen'⟩ := result
          obtain ⟨exactLength, isLength, rfl, _, isInside', isLeft', isLen'⟩ :=
            parseExt_reads isInside isLeft again
          simp only [again] at read
          split_ifs at read with wraps isMissing
          obtain ⟨isEnough, isLeft'', isCursor, isOption⟩ := parseValue_reads read
          simp only [not_or, not_le] at wraps
          have header : rfcHeader (data.drop cursor.pos)
              = some (exactDelta, exactLength, (data.drop pos').take (exactLength % 2 ^ 16)
                ++ data.drop parsed.cursor.pos) := by
            rw [isCursor, first]
            simp only [rfcHeader, isDelta, isLength]
            rw [← List.drop_drop, List.take_append_drop]
          refine .option header ?_ ?_ ?_ ?_ ?_ ?_ ?_ ?_
          · simp only [List.length_take, List.length_drop] at isEnough ⊢
            omega
          · simp only [isCursor]
            omega
          · rw [isCursor]
            exact isEnough
          · rw [isLeft'', isCursor]
          · rw [isCursor]
          · rw [isCursor]
            exact wraps.1
          · simp only [isCursor]
            omega
          · simp only [isOption, isCursor]

-----------------------------------------------------------------------------------------
-- The options one after the other
-----------------------------------------------------------------------------------------

/-- The number takes some bytes, whatever follows. -/
theorem rfcNumber_takes {bits number : Nat} {bytes rest : List UInt8}
    (isNumber : rfcNumber bits bytes = some (number, rest))
    : ∃ ext, bytes = ext ++ rest
        ∧ ∀ others, rfcNumber bits (ext ++ others) = some (number, others) := by
  unfold rfcNumber at isNumber
  split_ifs at isNumber with isSmall isOne isTwo
  · cases isNumber
    exact ⟨[], rfl, fun others => if_pos isSmall⟩
  · cases bytes with
    | nil => cases isNumber
    | cons ext bytes =>
        cases isNumber
        refine ⟨[ext], rfl, fun others => ?_⟩
        simp [rfcNumber, isOne]
  · rcases bytes with _ | ⟨high, _ | ⟨low, bytes⟩⟩
    · cases isNumber
    · cases isNumber
    · cases isNumber
      refine ⟨[high, low], rfl, fun others => ?_⟩
      simp [rfcNumber, isTwo]

/-- The delta and the length take some bytes, whatever follows. -/
theorem rfcHeader_takes {delta length : Nat} {bytes rest : List UInt8}
    (isHeader : rfcHeader bytes = some (delta, length, rest))
    : ∃ head, bytes = head ++ rest
        ∧ ∀ others, rfcHeader (head ++ others) = some (delta, length, others) := by
  cases bytes with
  | nil => cases isHeader
  | cons first bytes =>
      simp only [rfcHeader] at isHeader
      cases isDelta : rfcNumber (first.toNat / 2 ^ 4) bytes with
      | none =>
          rw [isDelta] at isHeader
          cases isHeader
      | some result =>
          obtain ⟨number, behind⟩ := result
          simp only [isDelta] at isHeader
          cases isLength : rfcNumber (first.toNat % 2 ^ 4) behind with
          | none =>
              rw [isLength] at isHeader
              cases isHeader
          | some result =>
              obtain ⟨number', behind'⟩ := result
              simp only [isLength, Option.some.injEq, Prod.mk.injEq] at isHeader
              obtain ⟨rfl, rfl, rfl⟩ := isHeader
              obtain ⟨ext, rfl, always⟩ := rfcNumber_takes isDelta
              obtain ⟨ext', rfl, always'⟩ := rfcNumber_takes isLength
              refine ⟨first :: (ext ++ ext'), by simp, fun others => ?_⟩
              simp only [List.cons_append, List.append_assoc, rfcHeader, always, always']

/-- What follows the options is nothing, or the marker and a payload. -/
inductive IsTail : List UInt8 → List UInt8 → Prop where
  | none : IsTail [] []
  | marked {payload : List UInt8} (isPayload : payload ≠ []) : IsTail (marker :: payload) payload

/-- What the loop read of the datagram from a cursor on. -/
structure LoopRead (data : List UInt8) (optNum : Nat) (cursor : Cursor) (stored : List Opt)
    (last : Cursor) (result : List Opt) (bytes tail payload : List UInt8) (fields : List Field)
    (options : List Opt)
    : Prop where
  split : data.drop cursor.pos = bytes ++ tail
  isTail : IsTail tail payload
  read : Read16 cursor.optDelta bytes fields options
  optLen : last.optLen = cursor.optLen + bytes.length
  optDelta : last.optDelta = lastCode cursor.optDelta options
  isSmall : last.optDelta < 2 ^ 16
  isResult : result = stored ++ options.take (optNum - stored.length)

theorem LoopRead.nil {cursor : Cursor} {stored result : List Opt} {optNum : Nat}
    (isEnd : data.length ≤ cursor.pos) (isSmall : cursor.optDelta < 2 ^ 16)
    (isResult : stored = result)
    : LoopRead data optNum cursor stored cursor result [] [] [] [] [] :=
  ⟨List.drop_eq_nil_of_le isEnd, .none, .nil _, rfl, rfl, isSmall, by simp [isResult]⟩

/-- An option that is read in front of what the loop reads after it. -/
theorem LoopRead.cons {optNum delta length : Nat} {cursor next last : Cursor}
    {stored result : List Opt} {value bytes tail payload : List UInt8} {fields : List Field}
    {options : List Opt}
    (header : rfcHeader (data.drop cursor.pos)
      = some (delta, length, value ++ data.drop next.pos))
    (isValue : value.length = length % 2 ^ 16) (isPos : cursor.pos < next.pos)
    (isInside : next.pos ≤ data.length)
    (isDelta : next.optDelta = cursor.optDelta + delta % 2 ^ 16)
    (isLen : next.optLen = cursor.optLen + (next.pos - cursor.pos))
    (others : LoopRead data optNum next
      (stored ++ (if stored.length < optNum then [⟨next.optDelta, value⟩] else [])) last result
      bytes tail payload fields options)
    : ∃ bytes fields options,
        LoopRead data optNum cursor stored last result bytes tail payload fields options := by
  obtain ⟨head, isHead, always⟩ := rfcHeader_takes header
  have lengths := congrArg List.length isHead
  simp only [List.length_drop, List.length_append] at lengths
  refine ⟨head ++ (value ++ bytes), ⟨delta, length⟩ :: fields, ⟨next.optDelta, value⟩ :: options,
    ?_, others.isTail, ?_, ?_, ?_, others.isSmall, ?_⟩
  · rw [isHead, others.split]
    simp only [List.append_assoc]
  · have rest := others.read
    rw [isDelta] at rest ⊢
    exact .cons (always _) isValue rest
  · rw [others.optLen, isLen]
    simp only [List.length_append]
    omega
  · rw [others.optDelta, lastCode_cons]
  · rw [others.isResult]
    by_cases isStored : stored.length < optNum
    · obtain ⟨places, isPlaces⟩ := Nat.exists_eq_add_of_lt isStored
      have before : optNum - stored.length = places + 1 := by omega
      have behind : optNum - (stored.length + 1) = places := by omega
      simp [if_pos isStored, before, behind]
    · simp [if_neg isStored, Nat.sub_eq_zero_of_le (not_lt.mp isStored)]

/-- What is left of the datagram after a cursor, and `opt_len`, stay below `2 ^ 16`. -/
structure Cursor.Within (cursor : Cursor) (data : List UInt8) : Prop where
  isInside : cursor.pos ≤ data.length
  isLess : cursor.optLen < cursor.pos
  isSmall : cursor.optDelta < 2 ^ 16

variable {valueSize optNum : Nat}

/-- An option that is read leaves the cursor behind it within the datagram. -/
theorem parseOption_within {cursor : Cursor} {store : Bool} {parsed : Parsed}
    (short : data.length < 2 ^ 16) (within : cursor.Within data)
    (read : parseOption valueSize data cursor data.length store = .ok parsed)
    : OptionRead data cursor store parsed := by
  have isByte : cursor.pos < data.length := by
    by_contra isEnd
    unfold parseOption readU8 at read
    rw [if_pos (by omega)] at read
    cases read
  have := within.isLess
  exact parseOption_reads (by omega) read

theorem toList_of_stored (option : Opt) (stored : List Opt)
    : (if decide (stored.length < optNum) then some option else none).toList
        = if stored.length < optNum then [option] else [] := by
  by_cases isStored : stored.length < optNum <;> simp [isStored]

theorem parseLoop_reads {fuel : Nat} {cursor last : Cursor} {stored result : List Opt}
    (short : data.length < 2 ^ 16) (within : cursor.Within data)
    (ended : parseLoop valueSize data data.length fuel optNum cursor stored = .ok (last, result))
    : ∃ bytes tail payload fields options,
        LoopRead data optNum cursor stored last result bytes tail payload fields options := by
  induction fuel generalizing cursor stored with
  | zero => cases ended
  | succ fuel fromNext =>
      simp only [parseLoop] at ended
      cases read : parseOption valueSize data cursor data.length (stored.length < optNum) with
      | error errno => simp [read] at ended
      | ok parsed =>
          simp only [read] at ended
          rcases parseOption_within short within read with
            ⟨isMarker, isPayload, isLeft, isCursor, isOption⟩
            | ⟨header, isValue, isPos, isInside, isLeft, isDelta, isSmall, isLen, isOption⟩
          · rw [if_pos isLeft, isOption] at ended
            simp only [Except.ok.injEq, Prod.mk.injEq, Option.toList_none, List.append_nil] at ended
            obtain ⟨rfl, rfl⟩ := ended
            refine ⟨[], _, _, [], [], isMarker, .marked isPayload, .nil _, ?_, ?_, ?_, ?_⟩
            · simp [isCursor]
            · simp [isCursor, lastCode]
            · simpa [isCursor] using within.isSmall
            · simp
          · rw [isOption, toList_of_stored] at ended
            by_cases isEnd : parsed.left = 0
            · rw [if_pos isEnd] at ended
              simp only [Except.ok.injEq, Prod.mk.injEq] at ended
              obtain ⟨rfl, isResult⟩ := ended
              obtain ⟨bytes, fields, options, all⟩ :=
                LoopRead.cons header isValue isPos isInside isDelta isLen
                  (.nil (by omega) isSmall isResult)
              exact ⟨bytes, [], [], fields, options, all⟩
            · rw [if_neg isEnd] at ended
              have next : parsed.cursor.Within data := by
                have := within.isLess
                exact ⟨isInside, by omega, isSmall⟩
              obtain ⟨bytes, tail, payload, fields, options, rest⟩ := fromNext next ended
              obtain ⟨bytes, fields, options, all⟩ :=
                LoopRead.cons header isValue isPos isInside isDelta isLen rest
              exact ⟨bytes, tail, payload, fields, options, all⟩

/-- Every turn of the loop goes on by a byte, so no more turns than bytes are made. -/
theorem parseLoop_fuel {fuel more : Nat} {cursor : Cursor} {stored : List Opt}
    (short : data.length < 2 ^ 16) (within : cursor.Within data)
    (enough : data.length - cursor.pos < fuel)
    : parseLoop valueSize data data.length (fuel + more) optNum cursor stored
        = parseLoop valueSize data data.length fuel optNum cursor stored := by
  induction fuel generalizing cursor stored with
  | zero => omega
  | succ fuel fromNext =>
      rw [Nat.succ_add]
      simp only [parseLoop]
      cases read : parseOption valueSize data cursor data.length (stored.length < optNum) with
      | error errno => rfl
      | ok parsed =>
          dsimp only
          split_ifs with isEnd
          · rfl
          · rcases parseOption_within short within read with
              ⟨_, _, isLeft, _, _⟩ | ⟨_, _, isPos, isInside, _, _, isSmall, isLen, _⟩
            · exact absurd isLeft isEnd
            · have := within.isLess
              exact fromNext ⟨isInside, by omega, isSmall⟩ (by omega)

-----------------------------------------------------------------------------------------
-- Bytes behind the datagram
-----------------------------------------------------------------------------------------

theorem readU8_append (data tail : List UInt8) (offset : Nat)
    : readU8 (data ++ tail) offset data.length = readU8 data offset data.length := by
  unfold readU8
  split_ifs with isShort
  · rfl
  · rw [List.getD_append _ _ _ _ (by omega)]

theorem readBe16_append (data tail : List UInt8) (offset : Nat)
    : readBe16 (data ++ tail) offset data.length = readBe16 data offset data.length := by
  unfold readBe16
  split_ifs with isShort
  · rfl
  · rw [List.getD_append _ _ _ _ (by omega), List.getD_append _ _ _ _ (by omega)]

theorem parseExt_append (data tail : List UInt8) (r pos bits optLen : Nat)
    : parseExt (data ++ tail) r pos data.length bits optLen
        = parseExt data r pos data.length bits optLen := by
  simp only [parseExt, decodeDelta, readU8_append, readBe16_append]

theorem parseValue_append (data tail : List UInt8) (cursor : Cursor) (len : Nat) (store : Bool)
    : parseValue valueSize (data ++ tail) data.length cursor len store
        = parseValue valueSize data data.length cursor len store := by
  unfold parseValue
  split_ifs with isStored isLong isShort
  · rfl
  · rfl
  · rw [List.drop_append_of_le_length (by omega), List.take_append_of_le_length]
    rw [List.length_drop]
    omega
  all_goals rfl

theorem parseOption_append (data tail : List UInt8) (cursor : Cursor) (store : Bool)
    : parseOption valueSize (data ++ tail) cursor data.length store
        = parseOption valueSize data cursor data.length store := by
  simp only [parseOption, readU8_append, parseExt_append, parseValue_append]

theorem parseLoop_append (data tail : List UInt8) (fuel : Nat) (cursor : Cursor)
    (stored : List Opt)
    : parseLoop valueSize (data ++ tail) data.length fuel optNum cursor stored
        = parseLoop valueSize data data.length fuel optNum cursor stored := by
  induction fuel generalizing cursor stored with
  | zero => rfl
  | succ fuel fromNext => simp only [parseLoop, parseOption_append, fromNext]

/-- The packet of the same datagram in another memory. -/
def Packet.placed (cpkt : Packet) (data : List UInt8) : Packet :=
  { cpkt with data := data }

/-- The datagram is read as if nothing were behind it. -/
theorem coapPacketParse_append (data tail : List UInt8)
    : coapPacketParse valueSize (data ++ tail) data.length optNum
        = (coapPacketParse valueSize data data.length optNum).map
            (Prod.map (Packet.placed · (data ++ tail)) id) := by
  unfold coapPacketParse
  by_cases isShort : data.length < basicHeaderSize
  · rw [if_pos isShort, if_pos isShort]
    rfl
  · have nonempty : 0 < data.length := by
      unfold basicHeaderSize at isShort
      omega
    rw [if_neg isShort, if_neg isShort, List.getD_append _ _ _ _ nonempty]
    dsimp only
    rw [parseLoop_append]
    split_ifs
    · rfl
    · rfl
    · rfl
    · cases parseLoop valueSize data data.length data.length optNum _ [] <;> rfl

-----------------------------------------------------------------------------------------
-- The whole datagram
-----------------------------------------------------------------------------------------

/-- How an accepted datagram is divided, and what the packet and its payload are. -/
structure Divided (data : List UInt8) (optNum : Nat) (cpkt : Packet) (result : List Opt)
    (header bytes tail payload : List UInt8) (fields : List Field) (options : List Opt)
    : Prop where
  partition : data = header ++ bytes ++ tail
  isHeader : header.length = basicHeaderSize + (data.getD 0 0).toNat % 2 ^ 4
  hdrLen : cpkt.hdrLen = header.length
  optLen : cpkt.optLen = bytes.length
  isTail : IsTail tail payload
  getPayload : coapPacketGetPayload cpkt
    = if payload = [] then none else some (data.length - payload.length, payload.length)
  read : Read16 0 bytes fields options
  delta : cpkt.delta = lastCode 0 options
  isSmall : ∀ option ∈ options, option.code < 2 ^ 16
  isResult : result = options.take optNum

theorem getPayload_of_isTail {cpkt : Packet} {tail payload : List UInt8}
    (short : cpkt.offset < 2 ^ 16)
    (isOffset : cpkt.offset = cpkt.hdrLen + cpkt.optLen + tail.length)
    (isTail : IsTail tail payload)
    : coapPacketGetPayload cpkt
        = if payload = [] then none
          else some (cpkt.offset - payload.length, payload.length) := by
  unfold coapPacketGetPayload
  cases isTail with
  | none =>
      simp only [List.length_nil] at isOffset
      have isNone : ¬1 < (cpkt.offset : Int) - cpkt.hdrLen - cpkt.optLen := by omega
      simp [isNone]
  | marked isPayload =>
      have := List.length_pos_iff.mpr isPayload
      simp only [List.length_cons] at isOffset
      have isLen : ((cpkt.offset : Int) - cpkt.hdrLen - cpkt.optLen - 1).toNat % 2 ^ 16
          = payload.length := by
        omega
      have isLong : 1 < (cpkt.offset : Int) - cpkt.hdrLen - cpkt.optLen := by omega
      have isStart : cpkt.hdrLen + cpkt.optLen + 1 = cpkt.offset - payload.length := by omega
      simp only [if_pos isLong, isLen, if_neg isPayload, isStart]
      exact if_neg (by omega)

theorem and_0x0F_toNat (byte : UInt8) : (byte &&& 0x0F).toNat = byte.toNat % 2 ^ 4 := by
  rw [UInt8.toNat_and]
  exact Nat.and_two_pow_sub_one_eq_mod byte.toNat 4

theorem coapPacketParse_divides {cpkt : Packet} {result : List Opt}
    (short : data.length < 2 ^ 16)
    (accepted : coapPacketParse valueSize data data.length optNum = .ok (cpkt, result))
    : ∃ header bytes tail payload fields options,
        Divided data optNum cpkt result header bytes tail payload fields options := by
  simp only [coapPacketParse, and_0x0F_toNat] at accepted
  split_ifs at accepted with isShort isReserved isCut isWhole
  · cases accepted
    refine ⟨data, [], [], [], [], [], by simp, isWhole.symm, isWhole, rfl, .none, ?_, .nil 0, rfl,
      fun option isOption => absurd isOption List.not_mem_nil, by simp⟩
    exact getPayload_of_isTail short (by dsimp only; rw [isWhole]; rfl) .none
  · cases ended : parseLoop valueSize data data.length data.length optNum
        { pos := basicHeaderSize + (data.getD 0 0).toNat % 2 ^ 4 } [] with
    | error errno =>
        rw [ended] at accepted
        cases accepted
    | ok found =>
        obtain ⟨last, stored⟩ := found
        rw [ended] at accepted
        cases accepted
        have within
            : Cursor.Within { pos := basicHeaderSize + (data.getD 0 0).toNat % 2 ^ 4 } data :=
          ⟨by dsimp only; omega, by simp [basicHeaderSize], by simp⟩
        obtain ⟨bytes, tail, payload, fields, options, all⟩ := parseLoop_reads short within ended
        have split := all.split
        have optLen := all.optLen
        dsimp only at split optLen
        have isLength := congrArg List.length split
        simp only [List.length_drop, List.length_append] at isLength
        refine ⟨data.take (basicHeaderSize + (data.getD 0 0).toNat % 2 ^ 4), bytes, tail, payload,
          fields, options, ?_, ?_, ?_, ?_, all.isTail, ?_, all.read, all.optDelta, ?_, ?_⟩
        · rw [List.append_assoc, ← split, List.take_append_drop]
        · rw [List.length_take]
          omega
        · dsimp only
          rw [List.length_take]
          omega
        · dsimp only
          omega
        · exact getPayload_of_isTail short (by dsimp only; omega) all.isTail
        · intro option isOption
          have isSmall := all.isSmall
          rw [all.optDelta] at isSmall
          exact (all.read.code_le_last.2 option isOption).trans_lt isSmall
        · simpa using all.isResult

end Zephyr.Coap
