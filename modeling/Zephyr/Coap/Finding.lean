import Zephyr.Coap.Parsing

/-! Looking for options of a packet: `coap_find_options`, and what it reports of a packet in the
format of RFC 7252.

`parse_option` stores nothing at the payload marker. The loop compares the entry of the output
array all the same, so it may count an entry that was there before the call.
-/

namespace Zephyr.Coap

/-- The loop of `coap_find_options`; `num` is a `uint8_t` -/
def findLoop (valueSize : Nat) (cpkt : Packet) (code : Nat)
    : Nat → Cursor → Nat → List Opt → Except Errno (Nat × List Opt)
  | 0, _, num, options => .ok (num, options)
  | fuel + 1, cursor, num, options =>
      if cursor.optDelta ≤ code ∧ num < options.length then
        match parseOption valueSize cpkt.data cursor cpkt.maxLen true with
        | .error _ => .error .einval
        | .ok parsed =>
            let options := match parsed.option with
              | some option => options.set num option
              | none => options
            let num := if code = (options.getD num {}).code then (num + 1) % 2 ^ 8 else num
            if parsed.left = 0 then .ok (num, options)
            else findLoop valueSize cpkt code fuel parsed.cursor num options
      else .ok (num, options)

/-- `coap_find_options` with an array of `veclen` entries: what it returns, and the array -/
def coapFindOptions (valueSize : Nat) (cpkt : Packet) (code : Nat) (options : List Opt)
    : Except Errno (Nat × List Opt) :=
  if cpkt.hdrLen = cpkt.maxLen then .ok (0, options)
  else findLoop valueSize cpkt code cpkt.maxLen { pos := cpkt.hdrLen } 0 options

/-- The packet is a datagram in the format, with these options and this payload. -/
structure Packet.Holds (cpkt : Packet) (options : List Opt) (payload : List UInt8) : Prop where
  isWhole : cpkt.maxLen = cpkt.data.length
  isShort : cpkt.data.length < 2 ^ 16
  hasHeader : 0 < cpkt.hdrLen ∧ cpkt.hdrLen ≤ cpkt.data.length
  divided : ∃ bytes tail, cpkt.data.drop cpkt.hdrLen = bytes ++ tail ∧ IsTail tail payload
    ∧ RfcOptions 0 bytes options
  isSmall : ∀ option ∈ options, option.code < 2 ^ 16

/-- The options with a code -/
def withCode (code : Nat) (options : List Opt) : List Opt :=
  options.filter fun option => option.code = code

-----------------------------------------------------------------------------------------
-- What the format has is read
-----------------------------------------------------------------------------------------

variable {data rest : List UInt8} {pos bits number optLen valueSize : Nat}

theorem parseExt_of_number (isInside : pos ≤ data.length)
    (isNumber : rfcNumber bits (data.drop pos) = some (number, rest)) (isSmall : number < 2 ^ 16)
    (room : optLen + (data.length - pos) < 2 ^ 16)
    : ∃ pos', parseExt data (data.length - pos) pos data.length bits optLen
          = .ok (data.length - pos', pos', number, optLen + (pos' - pos))
        ∧ data.drop pos' = rest ∧ pos ≤ pos' ∧ pos' ≤ data.length := by
  have isLength : (data.drop pos).length = data.length - pos := List.length_drop
  unfold rfcNumber at isNumber
  unfold parseExt decodeDelta noExt ext13 ext14 ext269
  split_ifs at isNumber with isBits isOne isTwo
  · cases isNumber
    exact ⟨pos, by simp [Nat.not_lt.mpr (Nat.le_of_lt_succ isBits)], rfl, le_rfl, isInside⟩
  · cases isBytes : data.drop pos with
    | nil => simp [isBytes] at isNumber
    | cons ext bytes =>
        have isMore : pos + 1 ≤ data.length := by
          rw [isBytes, List.length_cons] at isLength
          omega
        rw [drop_eq_cons isMore] at isNumber
        simp only [Option.some.injEq, Prod.mk.injEq] at isNumber
        refine ⟨pos + 1, ?_, isNumber.2, by omega, isMore⟩
        have isValue : ((data.getD pos 0).toNat + 13) % 2 ^ 16 = number := by omega
        rw [if_pos (by omega), if_pos isOne, readU8, if_neg (by omega)]
        dsimp only
        rw [if_neg (by omega), isValue, Nat.add_sub_cancel_left]
  · rcases isBytes : data.drop pos with _ | ⟨high, _ | ⟨low, bytes⟩⟩
    · simp [isBytes] at isNumber
    · simp [isBytes] at isNumber
    · have isMore : pos + 2 ≤ data.length := by
        rw [isBytes, List.length_cons, List.length_cons] at isLength
        omega
      rw [drop_eq_cons (by omega), drop_eq_cons isMore] at isNumber
      simp only [Option.some.injEq, Prod.mk.injEq] at isNumber
      refine ⟨pos + 2, ?_, isNumber.2, by omega, isMore⟩
      have isValue : ((data.getD pos 0).toNat * 2 ^ 8 + (data.getD (pos + 1) 0).toNat + 269)
          % 2 ^ 16 = number := by
        omega
      rw [if_pos (by omega), if_neg isOne, if_pos isTwo, readBe16, if_neg (by omega)]
      dsimp only
      rw [if_neg (by omega), isValue, Nat.add_sub_cancel_left]

/-- A number that does not fit in four bits takes bytes. -/
theorem rfcNumber_more (isNumber : rfcNumber bits (data.drop pos) = some (number, rest))
    (isLong : noExt < bits)
    : data.length - pos ≠ 0 := by
  intro isEnd
  rw [List.drop_eq_nil_of_le (by omega), rfcNumber, if_neg (by unfold noExt at isLong; omega)]
    at isNumber
  split_ifs at isNumber

theorem parseOption_of_header {cursor : Cursor} {delta : Nat} {value : List UInt8}
    (isShort : data.length < 2 ^ 16) (within : cursor.Within data)
    (header : rfcHeader (data.drop cursor.pos) = some (delta, value.length, value ++ rest))
    (isSmall : cursor.optDelta + delta < 2 ^ 16) (fits : value.length ≤ valueSize)
    : ∃ next, parseOption valueSize data cursor data.length true
          = .ok ⟨data.length - next.pos, next, some ⟨cursor.optDelta + delta, value⟩⟩
        ∧ next.optDelta = cursor.optDelta + delta ∧ data.drop next.pos = rest
        ∧ cursor.pos < next.pos ∧ next.Within data := by
  have isLength : (data.drop cursor.pos).length = data.length - cursor.pos := List.length_drop
  have isMore : cursor.pos + 1 ≤ data.length := by
    by_contra isEnd
    rw [List.drop_eq_nil_of_le (by omega)] at header
    cases header
  obtain ⟨delta', behind, isDelta, isValue⟩
      : ∃ delta' behind, rfcNumber ((data.getD cursor.pos 0).toNat / 2 ^ 4)
          (data.drop (cursor.pos + 1)) = some (delta', behind)
        ∧ (rfcNumber ((data.getD cursor.pos 0).toNat % 2 ^ 4) behind).map
            (fun found => (delta', found.1, found.2))
          = some (delta, value.length, value ++ rest) := by
    rw [drop_eq_cons isMore, rfcHeader] at header
    split at header
    · cases header
    · rename_i delta' behind isDelta
      refine ⟨delta', behind, isDelta, ?_⟩
      rw [← header]
      cases rfcNumber ((data.getD cursor.pos 0).toNat % 2 ^ 4) behind <;> rfl
  simp only [Option.map_eq_some_iff, Prod.mk.injEq] at isValue
  obtain ⟨⟨length, behind'⟩, isValue, rfl, rfl, rfl⟩ := isValue
  have := within.isLess
  obtain ⟨pos, isDelta', rfl, isLater, isInside⟩ :=
    parseExt_of_number isMore isDelta (by omega) (show cursor.optLen + 1 + _ < _ by omega)
  have isRest : (data.drop pos).length = data.length - pos := List.length_drop
  have isLess : value.length ≤ data.length - pos := by
    obtain ⟨ext, isExt, _⟩ := rfcNumber_takes isValue
    have lengths := congrArg List.length isExt
    simp only [List.length_append] at lengths
    omega
  obtain ⟨pos', isValue', isBehind, isLater', isInside'⟩ :=
    parseExt_of_number isInside isValue (by omega)
      (show cursor.optLen + 1 + (pos - (cursor.pos + 1)) + _ < _ by omega)
  have isRest' : (data.drop pos').length = data.length - pos' := List.length_drop
  rw [isBehind, List.length_append] at isRest'
  have notMarker : (data.getD cursor.pos 0).toNat ≠ marker.toNat := by
    intro isMarker
    rw [isMarker] at isDelta
    cases isDelta
  refine ⟨⟨pos' + value.length, cursor.optDelta + delta',
    cursor.optLen + 1 + (pos - (cursor.pos + 1)) + (pos' - pos) + value.length⟩, ?_, rfl, ?_, ?_,
    ⟨?_, ?_, isSmall⟩⟩
  · unfold parseOption readU8
    rw [if_neg (by omega)]
    dsimp only
    rw [if_neg notMarker, if_neg fun both => rfcNumber_more isDelta both.2 both.1,
      Nat.mod_eq_of_lt (by omega), isDelta']
    dsimp only
    rw [if_neg fun all => rfcNumber_more isValue all.2.2 all.2.1, isValue']
    dsimp only
    rw [if_neg (by omega), if_neg (by omega), parseValue, if_pos rfl, if_neg (by omega),
      if_neg (by dsimp only; omega), isBehind, List.take_left]
  · dsimp only
    rw [← List.drop_drop, isBehind, List.drop_left]
  · dsimp only
    omega
  · dsimp only
    omega
  · dsimp only
    omega

theorem parseOption_of_marker {cursor : Cursor} {payload : List UInt8} {store : Bool}
    (isMarker : data.drop cursor.pos = marker :: payload) (isPayload : payload ≠ [])
    : parseOption valueSize data cursor data.length store
        = .ok { left := 0, cursor := { cursor with pos := cursor.pos + 1 } } := by
  have isLength : (data.drop cursor.pos).length = data.length - cursor.pos := List.length_drop
  rw [isMarker, List.length_cons] at isLength
  have isLong := List.length_pos_iff.mpr isPayload
  have isFirst : data.drop cursor.pos = _ := drop_eq_cons (by omega)
  rw [isMarker, List.cons.injEq] at isFirst
  unfold parseOption readU8
  rw [if_neg (by omega)]
  dsimp only
  rw [← isFirst.1, if_pos rfl, if_pos (by omega)]

-----------------------------------------------------------------------------------------
-- The loop
-----------------------------------------------------------------------------------------

/-- Options come in the order of their codes. -/
theorem RfcOptions.previous_le {previous : Nat} {bytes : List UInt8} {options : List Opt}
    (are : RfcOptions previous bytes options)
    : ∀ option ∈ options, previous ≤ option.code := by
  induction are with
  | nil previous => exact fun option isOption => absurd isOption List.not_mem_nil
  | cons header others fromOthers =>
      intro option isOption
      rcases List.mem_cons.mp isOption with rfl | isOther
      · exact Nat.le_add_right _ _
      · exact (Nat.le_add_right _ _).trans (fromOthers option isOther)

theorem withCode_eq_nil {code previous : Nat} {bytes : List UInt8} {options : List Opt}
    (are : RfcOptions previous bytes options) (isPast : code < previous)
    : withCode code options = [] := by
  refine List.filter_eq_nil_iff.mpr fun option isOption => ?_
  have := are.previous_le option isOption
  simp only [decide_eq_true_eq]
  omega

theorem RfcOptions.eq_nil {previous : Nat} {options : List Opt}
    (are : RfcOptions previous [] options)
    : options = [] := by
  cases are with
  | nil => rfl
  | cons header others => cases header

theorem withCode_cons (code : Nat) (option : Opt) (options : List Opt)
    : withCode code (option :: options)
        = if code = option.code then option :: withCode code options
          else withCode code options := by
  by_cases isCode : code = option.code
  · rw [if_pos isCode, withCode, List.filter_cons_of_pos (by simpa using isCode.symm)]
    rfl
  · rw [if_neg isCode, withCode, List.filter_cons_of_neg (by simpa using Ne.symm isCode)]
    rfl

/-- The loop from an option on, behind the entries that were found before. Without a payload,
or with no entry of this code in the rest of the array, only options of the packet are found.
-/
theorem findLoop_finds {cpkt : Packet} {code fuel : Nat} {cursor : Cursor}
    (found : List Opt) {free options : List Opt} {bytes tail payload : List UInt8}
    (isWhole : cpkt.maxLen = cpkt.data.length) (isShort : cpkt.data.length < 2 ^ 16)
    (are : RfcOptions cursor.optDelta bytes options) (isTail : IsTail tail payload)
    (split : cpkt.data.drop cursor.pos = bytes ++ tail) (hasMore : bytes ++ tail ≠ [])
    (within : cursor.Within cpkt.data) (enough : cpkt.data.length ≤ fuel + cursor.pos)
    (isSmall : ∀ option ∈ options, option.code < 2 ^ 16)
    (fit : ∀ option ∈ options, option.value.length ≤ valueSize)
    (fresh : payload = [] ∨ ∀ entry ∈ free, entry.code ≠ code)
    (few : (found ++ (withCode code options).take free.length).length < 2 ^ 8)
    : ∃ array, findLoop valueSize cpkt code fuel cursor found.length (found ++ free)
          = .ok ((found ++ (withCode code options).take free.length).length, array)
        ∧ array.take (found ++ (withCode code options).take free.length).length
          = found ++ (withCode code options).take free.length := by
  have isByte : cursor.pos < cpkt.data.length := by
    by_contra isEnd
    exact hasMore (split ▸ List.drop_eq_nil_of_le (not_lt.mp isEnd))
  generalize isDelta : cursor.optDelta = previous at are
  induction are generalizing cursor found free fuel with
  | nil previous =>
      obtain ⟨fuel, rfl⟩ : ∃ more, fuel = more + 1 := ⟨fuel - 1, by omega⟩
      have isNone : (withCode code []).take free.length = [] := by simp [withCode]
      rw [isNone, List.append_nil, findLoop]
      split_ifs with goesOn
      · cases isTail with
        | none => exact absurd rfl hasMore
        | marked isPayload =>
            rw [isWhole, parseOption_of_marker split isPayload]
            dsimp only
            rw [if_pos rfl, if_neg ?_]
            · exact ⟨_, rfl, List.take_left⟩
            · cases free with
              | nil => simp at goesOn
              | cons entry free =>
                  have isOther := (fresh.resolve_left isPayload) entry List.mem_cons_self
                  simpa using Ne.symm isOther
      · exact ⟨_, rfl, List.take_left⟩
  | @cons previous delta bytes value rest options header others fromOthers =>
      obtain ⟨fuel, rfl⟩ : ∃ more, fuel = more + 1 := ⟨fuel - 1, by omega⟩
      rw [findLoop]
      by_cases goesOn : cursor.optDelta ≤ code ∧ found.length < (found ++ free).length
      · obtain ⟨entry, free, rfl⟩ : ∃ entry others, free = entry :: others := by
          cases free with
          | nil => simp at goesOn
          | cons entry others => exact ⟨entry, others, rfl⟩
        obtain ⟨head, isHead, always⟩ := rfcHeader_takes header
        subst isDelta
        have header' : rfcHeader (cpkt.data.drop cursor.pos)
            = some (delta, value.length, value ++ (rest ++ tail)) := by
          rw [split, isHead, List.append_assoc, always, List.append_assoc]
        obtain ⟨next, isParsed, isDelta', isRest, isLater, within'⟩ :=
          parseOption_of_header isShort within header' (isSmall _ List.mem_cons_self)
            (fit _ List.mem_cons_self)
        have isSmall' := fun option isOption => isSmall option (List.mem_cons_of_mem _ isOption)
        have fit' := fun option isOption => fit option (List.mem_cons_of_mem _ isOption)
        generalize isOption : (⟨cursor.optDelta + delta, value⟩ : Opt) = option at *
        have isSet : (found ++ entry :: free).set found.length option
            = found ++ option :: free := by
          simp
        have isEntry : (found ++ option :: free).getD found.length {} = option := by simp
        -- The rest of the packet, with the array as it is behind this option
        have onward : ∀ found' free', (payload = [] ∨ ∀ entry ∈ free', entry.code ≠ code)
            → (found' ++ (withCode code options).take free'.length).length < 2 ^ 8
            → ∃ array,
                (if cpkt.data.length - next.pos = 0 then .ok (found'.length, found' ++ free')
                  else findLoop valueSize cpkt code fuel next found'.length (found' ++ free'))
                  = .ok ((found' ++ (withCode code options).take free'.length).length, array)
                ∧ array.take (found' ++ (withCode code options).take free'.length).length
                  = found' ++ (withCode code options).take free'.length := by
          intro found' free' fresh few
          by_cases isEnd : cpkt.data.length - next.pos = 0
          · rw [List.drop_eq_nil_of_le (by omega)] at isRest
            obtain ⟨rfl, rfl⟩ := List.append_eq_nil_iff.mp isRest.symm
            rw [if_pos isEnd, others.eq_nil]
            simp [withCode]
          · have hasMore' : rest ++ tail ≠ [] := by
              rw [← isRest, Ne, List.drop_eq_nil_iff]
              omega
            rw [if_neg isEnd]
            exact fromOthers found' isRest hasMore' within' (by omega) isSmall' fit' fresh few
              (by omega) isDelta'
        rw [if_pos goesOn, isWhole, isParsed]
        simp only [isSet, isEntry]
        rw [withCode_cons] at few ⊢
        by_cases isCode : code = option.code
        · simp only [if_pos isCode] at few ⊢
          rw [List.length_cons, List.take_succ_cons] at few ⊢
          have isNum : (found.length + 1) % 2 ^ 8 = (found ++ [option]).length := by
            simp only [List.length_append, List.length_cons, List.length_nil] at few ⊢
            omega
          rw [isNum]
          have others := onward (found ++ [option]) free
            (fresh.imp_right fun others entry isEntry =>
              others entry (List.mem_cons_of_mem _ isEntry))
          simp only [List.append_assoc, List.cons_append, List.nil_append] at others
          exact others few
        · simp only [if_neg isCode] at few ⊢
          refine onward _ (option :: free) (fresh.imp_right fun others entry isEntry => ?_) few
          rcases List.mem_cons.mp isEntry with rfl | isOther
          · exact Ne.symm isCode
          · exact others entry (List.mem_cons_of_mem _ isOther)
      · have isNone : (withCode code (⟨previous + delta, value⟩ :: options)).take free.length
            = [] := by
          rcases not_and_or.mp goesOn with isPast | isFull
          · rw [withCode_eq_nil (.cons header others) (isDelta ▸ not_le.mp isPast), List.take_nil]
          · have isEmpty : free.length = 0 := by
              rw [List.length_append] at isFull
              omega
            rw [isEmpty, List.take_zero]
        rw [isNone, List.append_nil, if_neg goesOn]
        exact ⟨_, rfl, List.take_left⟩

/-- A request with a path of two parts and a payload -/
def pathRequest : Packet :=
  { data := [0x40, 1, 0, 1, 0xB1, 0x61, 0x01, 0x62, 0xFF, 0x63], maxLen := 10, hdrLen := 4 }

theorem pathRequest_holds : pathRequest.Holds [⟨11, [0x61]⟩, ⟨11, [0x62]⟩] [0x63] := by
  refine ⟨rfl, by decide, by decide, ?_, by decide⟩
  have are : RfcOptions 0 [0xB1, 0x61, 0x01, 0x62] [⟨11, [0x61]⟩, ⟨11, [0x62]⟩] :=
    @RfcOptions.cons 0 11 _ [0x61] _ _ rfl (@RfcOptions.cons 11 0 _ [0x62] _ _ rfl (.nil 11))
  exact ⟨_, [0xFF, 0x63], rfl, .marked (by decide), are⟩

/-- A message with a payload and no options -/
def payloadOnly : Packet :=
  { data := [0x40, 1, 0, 1, 0xFF, 0x63], maxLen := 6, hdrLen := 4 }

end Zephyr.Coap
