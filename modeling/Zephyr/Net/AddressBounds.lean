import Zephyr.Net.AddressText

/-! Which texts `net_addr_pton` and `net_ipaddr_parse` read without an access outside.

`net_addr_pton` steps over the character behind each byte of an IPv4 address, even if it is the
terminator. `net_ipaddr_parse` copies a port of any length into the array for the address, and for
IPv4 one character too many.
-/

namespace Zephyr.Net.Address

-----------------------------------------------------------------------------------------
-- Outcomes without a fault
-----------------------------------------------------------------------------------------

/-- There is no fault, and a value has a property. -/
def Outcome.Sat {α : Type} (good : α → Prop) : Outcome α → Prop
  | .fault => False
  | .fails => True
  | .done value => good value

section

variable {α β : Type} {outcome : Outcome α} {good : α → Prop} {next : α → Outcome β}
variable {goodNext : β → Prop}

theorem Outcome.Sat.bind (sat : outcome.Sat good)
    (sats : ∀ value, good value → (next value).Sat goodNext)
    : (outcome >>= next).Sat goodNext := by
  cases outcome with
  | fault => exact sat
  | fails => trivial
  | done value => exact sats value sat

theorem Outcome.Sat.ne_fault (sat : outcome.Sat good) : outcome ≠ .fault := by
  rintro rfl
  exact sat

end

variable {p text rest str : List UInt8} {c : UInt8} {addr dst : Nat → UInt8}

-----------------------------------------------------------------------------------------
-- Functions of the C library on terminated texts
-----------------------------------------------------------------------------------------

theorem mem_of_cons (notEnd : c ≠ 0) (terminated : 0 ∈ c :: rest) : 0 ∈ rest :=
  (List.mem_cons.mp terminated).resolve_left (Ne.symm notEnd)

theorem strlen_sat (terminated : 0 ∈ p) : (strlen p).Sat fun _ => True := by
  induction p with
  | nil => cases terminated
  | cons first p fromRest =>
      unfold strlen
      split_ifs with isEnd
      · trivial
      · exact (fromRest (mem_of_cons isEnd terminated)).bind fun _ _ => trivial

theorem strchr_sat (notEnd : c ≠ 0) (terminated : 0 ∈ p)
    : (strchr c p).Sat fun found =>
        ∀ next, found = some next → 0 ∈ next.tail ∧ next.tail.length < p.length := by
  induction p with
  | nil => cases terminated
  | cons first p fromRest =>
      unfold strchr
      split_ifs with isFound isEnd
      · intro next isNext
        cases isNext
        exact ⟨mem_of_cons (isFound ▸ notEnd) terminated, Nat.lt_succ_self _⟩
      · intro next isNext
        cases isNext
      · have later := fromRest (mem_of_cons isEnd terminated)
        generalize strchr c p = outcome at later
        cases outcome with
        | fault => exact later
        | fails => trivial
        | done found =>
            intro next isNext
            obtain ⟨terminated, shorter⟩ := later next isNext
            exact ⟨terminated, Nat.lt_succ_of_lt shorter⟩

theorem strrchrLoop_sat {place : Nat} {last : Option Nat} (isSome : last ≠ none)
    (terminated : 0 ∈ p)
    : (strrchrLoop c place last p).Sat fun found => found ≠ none := by
  induction p generalizing place last with
  | nil => cases terminated
  | cons first p fromRest =>
      have isSome' : (if first = c then some place else last) ≠ none := by
        split_ifs
        · exact Option.some_ne_none place
        · exact isSome
      unfold strrchrLoop
      by_cases isEnd : first = 0
      · rw [if_pos isEnd]
        exact isSome'
      · rw [if_neg isEnd]
        exact fromRest isSome' (mem_of_cons isEnd terminated)

theorem strrchr_sat (notEnd : c ≠ 0) (terminated : 0 ∈ rest)
    : (strrchr c (c :: rest)).Sat fun found => found ≠ none := by
  unfold strrchr strrchrLoop
  rw [if_neg notEnd, if_pos rfl]
  exact strrchrLoop_sat (Option.some_ne_none 0) terminated

theorem digits_sat {base acc : Nat} (terminated : 0 ∈ p)
    : (digits base acc p).Sat fun number => 0 ∈ number.2 := by
  induction p generalizing acc with
  | nil => cases terminated
  | cons first p fromRest =>
      unfold digits
      cases isDigit : digitOf first with
      | none => exact terminated
      | some digit =>
          have notEnd : first ≠ 0 := by
            rintro rfl
            cases isDigit
          dsimp only
          split_ifs
          · exact fromRest (mem_of_cons notEnd terminated)
          · exact terminated

theorem skipSpaces_sat (terminated : 0 ∈ p) : (skipSpaces p).Sat fun s => 0 ∈ s := by
  induction p with
  | nil => cases terminated
  | cons first p fromRest =>
      unfold skipSpaces
      split_ifs with isSpace
      · refine fromRest (mem_of_cons ?_ terminated)
        rintro rfl
        cases isSpace
      · exact terminated

theorem skipSign_terminated (terminated : 0 ∈ p) : 0 ∈ (skipSign p).2 := by
  cases p with
  | nil => cases terminated
  | cons first p =>
      unfold skipSign
      dsimp only
      split_ifs with isMinus isPlus
      · exact mem_of_cons (isMinus ▸ by decide) terminated
      · exact mem_of_cons (isPlus ▸ by decide) terminated
      · exact terminated

theorem skip0x_sat (base : Nat) (terminated : 0 ∈ p) : (skip0x base p).Sat fun s => 0 ∈ s := by
  cases p with
  | nil => cases terminated
  | cons first p =>
      unfold skip0x
      dsimp only
      split_ifs with isZero
      · have later := mem_of_cons (isZero.2 ▸ by decide) terminated
        cases p with
        | nil => cases later
        | cons x after =>
            dsimp only
            split_ifs with isX
            · refine mem_of_cons ?_ later
              rcases isX with rfl | rfl <;> decide
            · exact terminated
      · exact terminated

theorem readNumber_sat (base : Nat) (terminated : 0 ∈ p)
    : (readNumber base p).Sat fun number => 0 ∈ number.2.2 := by
  refine (skipSpaces_sat terminated).bind fun s isEnded => ?_
  refine (skip0x_sat base (skipSign_terminated isEnded)).bind fun s' isEnded' => ?_
  refine (digits_sat isEnded').bind fun number isEnded'' => ?_
  change 0 ∈ (if number.2.length < s'.length then number.2 else p)
  split_ifs
  · exact isEnded''
  · exact terminated

theorem strtol_sat (base : Nat) (terminated : 0 ∈ p)
    : (strtol base p).Sat fun number => 0 ∈ number.2 :=
  (readNumber_sat base terminated).bind fun _ isEnded => isEnded

theorem convertPort_sat (terminated : 0 ∈ p) : (convertPort p).Sat fun _ => True := by
  have number : (strtoul 10 p).Sat fun number => 0 ∈ number.2 :=
    (readNumber_sat 10 terminated).bind fun _ isEnded => isEnded
  refine number.bind fun number isEnded => ?_
  obtain ⟨tmp, endptr⟩ := number
  cases p with
  | nil => cases terminated
  | cons first p =>
      cases endptr with
      | nil => cases isEnded
      | cons last endptr =>
          dsimp only [List.head?_cons]
          split_ifs <;> trivial

-----------------------------------------------------------------------------------------
-- IPv6 addresses
-----------------------------------------------------------------------------------------

/-- A pointer that is `NULL`, or to a terminated text that is shorter than the turns left. -/
def Ready (fuel : Nat) : Option (List UInt8) → Prop
  | none => 0 < fuel
  | some p => 0 ∈ p ∧ p.length < fuel

theorem groupsLoop_sat {expected fuel i : Nat} {src : Option (List UInt8)} (isSmall : expected ≤ 8)
    (ready : Ready fuel src)
    : (groupsLoop expected fuel i src addr).Sat fun result =>
        ∀ next, result.1 = some next → 0 ∈ next := by
  induction fuel generalizing i src addr with
  | zero =>
      cases src with
      | none => exact absurd ready (Nat.lt_irrefl 0)
      | some p => exact absurd ready.2 (Nat.not_lt_zero _)
  | succ fuel fromNext =>
      unfold groupsLoop
      by_cases isEnd : expected ≤ i
      · rw [if_pos isEnd]
        rintro next rfl
        exact ready.1
      rw [if_neg isEnd]
      rcases src with _ | _ | ⟨c, rest⟩
      · trivial
      · exact absurd ready.1 List.not_mem_nil
      · obtain ⟨terminated, shorter⟩ := ready
        rw [List.length_cons] at shorter
        dsimp only
        by_cases isEmpty : c = 0
        · rw [if_pos isEmpty]
          trivial
        rw [if_neg isEmpty]
        by_cases isColon : c = colon
        · have later := mem_of_cons isEmpty terminated
          rw [if_neg (not_not.mpr isColon), putZeros_eq (by omega), Outcome.done_bind, isColon]
          refine (strrchr_sat (by decide) later).bind fun found isFound => ?_
          cases found with
          | none => exact absurd rfl isFound
          | some tmp =>
              dsimp only
              split
              · rintro next isNext
                exact Option.some.inj isNext ▸ later
              · split
                · trivial
                · exact fromNext ⟨later, by omega⟩
        · rw [if_pos isColon]
          refine (strtol_sat 16 terminated).bind fun number _ => ?_
          rw [put16_eq (by omega), Outcome.done_bind]
          refine (strchr_sat (by decide) terminated).bind fun found isFound => ?_
          cases found with
          | none =>
              dsimp only
              split
              · trivial
              · refine fromNext ?_
                change 0 < fuel
                omega
          | some next =>
              obtain ⟨isEnded, isShort⟩ := isFound next rfl
              rw [List.length_cons] at isShort
              exact fromNext ⟨isEnded, by omega⟩

theorem quadsLoop_sat {left i : Nat} {src : Option (List UInt8)} (fits : i + left ≤ 4)
    (terminated : ∀ next, src = some next → 0 ∈ next)
    : (quadsLoop left i src addr).Sat fun _ => True := by
  induction left generalizing i src addr with
  | zero => trivial
  | succ left fromLeft =>
      unfold quadsLoop
      rcases src with _ | _ | ⟨c, rest⟩
      · trivial
      · exact absurd (terminated [] rfl) List.not_mem_nil
      · have isEnded := terminated _ rfl
        dsimp only
        split
        · trivial
        · refine (strtol_sat 10 isEnded).bind fun number _ => ?_
          rw [put, if_pos (by omega), Outcome.done_bind]
          refine (strchr_sat (by decide) isEnded).bind fun found isFound => ?_
          cases found with
          | none =>
              dsimp only
              split_ifs
              · trivial
              · exact fromLeft (by omega) fun next isNext => by cases isNext
          | some next =>
              refine fromLeft (by omega) fun later isLater => ?_
              cases isLater
              exact (isFound next rfl).1

/-- The text of an IPv6 address is not read behind its terminator. -/
theorem netAddrPton6_sat (terminated : 0 ∈ p) : (netAddrPton6 p dst).Sat fun _ => True := by
  unfold netAddrPton6
  refine (strchr_sat (by decide) terminated).bind fun found _ => ?_
  have isEnded : 0 ∈ skipColon p := by
    cases p with
    | nil => cases terminated
    | cons first p =>
        unfold skipColon
        dsimp only
        split_ifs with isColon
        · exact mem_of_cons (isColon ▸ by decide) terminated
        · exact terminated
  dsimp only
  refine (strlen_sat isEnded).bind fun len _ => ?_
  generalize isExpected : (if found.isSome = true then 6 else 8) = expected
  have isSmall : expected ≤ 8 := by
    rw [← isExpected]
    split_ifs <;> decide
  split
  · have ready : Ready ((skipColon p).length + 9) (some (skipColon p)) := ⟨isEnded, by omega⟩
    refine (groupsLoop_sat isSmall ready).bind fun result isEnded' => ?_
    split
    · exact quadsLoop_sat (by decide) isEnded'
    · trivial
  · trivial

-----------------------------------------------------------------------------------------
-- IPv4 addresses
-----------------------------------------------------------------------------------------

theorem digitOf_of_isDigit (isNumber : isDigit c = true) : digitOf c = some (c.toNat - 48) := by
  unfold isDigit at isNumber
  rw [Bool.and_eq_true, decide_eq_true_eq, decide_eq_true_eq] at isNumber
  exact if_pos isNumber

theorem isDigit_of_digitOf {digit : Nat} (isValue : digitOf c = some digit) (isSmall : digit < 10)
    : isDigit c = true := by
  have ranges := digitOf_ranges isValue
  simp only [isDigit, Bool.and_eq_true, decide_eq_true_eq, UInt8.le_iff_toNat_le]
  have : (48 : UInt8).toNat = 48 := rfl
  have : (57 : UInt8).toNat = 57 := rfl
  omega

theorem digits_text_ten (acc : Nat) (text rest : List UInt8)
    : ∃ value, digits 10 acc (text ++ 0 :: rest)
        = .done (value, text.dropWhile isDigit ++ 0 :: rest) := by
  induction text generalizing acc with
  | nil => exact ⟨acc, rfl⟩
  | cons first text fromText =>
      by_cases isNumber : isDigit first = true
      · have isSmall : first.toNat - 48 < 10 := by
          simp only [isDigit, Bool.and_eq_true, decide_eq_true_eq, UInt8.le_iff_toNat_le]
            at isNumber
          have : (57 : UInt8).toNat = 57 := rfl
          omega
        obtain ⟨value, isValue⟩ := fromText (acc * 10 + (first.toNat - 48))
        refine ⟨value, ?_⟩
        rw [List.cons_append, digits, digitOf_of_isDigit isNumber, List.dropWhile_cons,
          if_pos isNumber]
        dsimp only
        rw [if_pos isSmall, isValue]
      · refine ⟨acc, ?_⟩
        rw [List.cons_append, digits, List.dropWhile_cons, if_neg isNumber]
        cases isValue : digitOf first with
        | none => rfl
        | some digit => exact if_neg fun isSmall => isNumber (isDigit_of_digitOf isValue isSmall)

/-- Neither a space nor a sign is in the text of an IPv4 address. -/
theorem allowed_first (allowed : c = 0 ∨ isAllowed4 c = true) (rest : List UInt8)
    : skipSpaces (c :: rest) = .done (c :: rest) ∧ skipSign (c :: rest) = (false, c :: rest) := by
  have facts : isspace c = false ∧ c ≠ 45 ∧ c ≠ 43 := by
    rcases allowed with rfl | allowed
    · decide
    · rcases (Bool.or_eq_true _ _).mp allowed with isNumber | isDot
      · have isValue := digitOf_of_isDigit isNumber
        refine ⟨not_isspace isValue, ?_, ?_⟩
        · rintro rfl
          cases isNumber
        · rintro rfl
          cases isNumber
      · rw [of_decide_eq_true isDot]
        decide
  obtain ⟨notSpace, notMinus, notPlus⟩ := facts
  refine ⟨?_, ?_⟩
  · rw [skipSpaces, notSpace]
    rfl
  · rw [skipSign, if_neg notMinus, if_neg notPlus]

theorem strtol_allowed (allowed : text.all isAllowed4 = true) (rest : List UInt8)
    : ∃ value, strtol 10 (text ++ 0 :: rest)
        = .done (value, text.dropWhile isDigit ++ 0 :: rest) := by
  have begins : ∃ c after, text ++ 0 :: rest = c :: after ∧ (c = 0 ∨ isAllowed4 c = true) := by
    cases text with
    | nil => exact ⟨0, rest, rfl, .inl rfl⟩
    | cons first text =>
        exact ⟨first, text ++ 0 :: rest, rfl, .inr (List.all_eq_true.mp allowed _ (.head _))⟩
  obtain ⟨c, after, isText, isFirst⟩ := begins
  obtain ⟨skipped, noSign⟩ := allowed_first isFirst after
  obtain ⟨value, read⟩ := digits_text_ten 0 text rest
  have noHex : skip0x 10 (c :: after) = .done (c :: after) := by
    unfold skip0x
    exact if_neg (by omega)
  -- Without a digit the text goes on where it was, as it does after no digits.
  have endptr : (if (text.dropWhile isDigit ++ 0 :: rest).length < (text ++ 0 :: rest).length
      then text.dropWhile isDigit ++ 0 :: rest else text ++ 0 :: rest)
        = text.dropWhile isDigit ++ 0 :: rest := by
    have isSuffix := List.dropWhile_suffix (l := text) isDigit
    split_ifs with shorter
    · rfl
    · rw [List.length_append, List.length_append, Nat.add_lt_add_iff_right, Nat.not_lt] at shorter
      rw [isSuffix.eq_of_length_le shorter]
  rw [isText] at read endptr
  refine ⟨min value (2 ^ 31 - 1), ?_⟩
  rw [isText]
  simp only [strtol, readNumber, skipped, Outcome.done_bind, noSign, noHex, read, Outcome.pure_eq,
    endptr, Bool.false_eq_true, if_false]

theorem strtol_nil (base : Nat) : strtol base [] = .fault :=
  rfl

/-- The character behind the digits is a dot, and all other dots are behind it. -/
theorem dropWhile_digits (allowed : text.all isAllowed4 = true)
    : text.dropWhile isDigit = [] ∧ text.count dot = 0
      ∨ ∃ later, text.dropWhile isDigit = dot :: later ∧ text.count dot = later.count dot + 1
        ∧ later.all isAllowed4 = true := by
  induction text with
  | nil => exact .inl ⟨rfl, rfl⟩
  | cons first text fromText =>
      rw [List.all_cons, Bool.and_eq_true] at allowed
      rw [List.dropWhile_cons]
      rcases (Bool.or_eq_true _ _).mp allowed.1 with isNumber | isDot
      · have notDot : first ≠ dot := by
          rintro rfl
          cases isNumber
        rw [if_pos isNumber, List.count_cons_of_ne notDot]
        exact fromText allowed.2
      · rw [of_decide_eq_true isDot, if_neg (by decide), List.count_cons_self]
        exact .inr ⟨text, rfl, rfl, allowed.2⟩

/-- The loop reads behind the terminator exactly if there are fewer dots than it steps over. -/
theorem octetsLoop_fault {left i : Nat} (fits : i + left ≤ 4) (allowed : text.all isAllowed4 = true)
    : octetsLoop left i (text ++ [0]) addr = .fault ↔ text.count dot + 1 < left := by
  induction left generalizing i text addr with
  | zero => simp [octetsLoop]
  | succ left fromLeft =>
      obtain ⟨value, read⟩ := strtol_allowed allowed []
      unfold octetsLoop
      rw [read, Outcome.done_bind]
      dsimp only
      rw [put, if_pos (by omega), Outcome.done_bind]
      rcases dropWhile_digits allowed with ⟨isNil, noDot⟩ | ⟨later, isLater, dots, allowed'⟩
      · rw [isNil, noDot, List.nil_append, List.tail_cons]
        cases left with
        | zero => simp [octetsLoop]
        | succ left =>
            rw [octetsLoop, strtol_nil]
            exact iff_of_true rfl (by omega)
      · rw [isLater, dots, List.cons_append, List.tail_cons, fromLeft (by omega) allowed']
        omega

theorem netAddrPton4_eq (noEnd : 0 ∉ text)
    : netAddrPton4 (text ++ [0]) dst
        = if text.all isAllowed4
          then octetsLoop 4 0 (text ++ [0]) (fun k => if k < 4 then 0 else dst k) else .fails := by
  unfold netAddrPton4
  rw [strlen_text noEnd, Outcome.done_bind, List.take_left]

/-- The text of an IPv4 address is read behind its terminator exactly if it has no character of
another kind and fewer than three dots.
-/
theorem netAddrPton4_fault (noEnd : 0 ∉ text) (dst : Nat → UInt8)
    : netAddrPton4 (text ++ [0]) dst = .fault
      ↔ text.all isAllowed4 = true ∧ text.count dot < 3 := by
  rw [netAddrPton4_eq noEnd]
  by_cases allowed : text.all isAllowed4 = true
  · rw [if_pos allowed, octetsLoop_fault (by decide) allowed]
    exact ⟨fun few => ⟨allowed, by omega⟩, fun few => by omega⟩
  · rw [if_neg allowed]
    exact iff_of_false (by simp) fun few => allowed few.1

-----------------------------------------------------------------------------------------
-- Texts with a length
-----------------------------------------------------------------------------------------

/-- The characters up to a terminator, but only so many. -/
def textUpTo (size : Nat) (str : List UInt8) : List UInt8 :=
  (str.take size).takeWhile (· ≠ 0)

theorem textUpTo_isPrefix (size : Nat) (str : List UInt8) : textUpTo size str <+: str :=
  (List.takeWhile_prefix _).trans (List.take_prefix _ _)

theorem length_textUpTo_le (size : Nat) (str : List UInt8) : (textUpTo size str).length ≤ size :=
  (List.takeWhile_prefix _).length_le.trans (List.length_take_le _ _)

theorem not_mem_textUpTo (size : Nat) (str : List UInt8) : 0 ∉ textUpTo size str := by
  intro member
  have := List.mem_takeWhile_imp member
  simp at this

theorem scan_eq {size : Nat} (inside : size ≤ str.length)
    : scan size str = .done (textUpTo size str).length := by
  induction size generalizing str with
  | zero => rfl
  | succ size fromSize =>
      cases str with
      | nil => exact absurd inside (by simp)
      | cons first str =>
          unfold scan textUpTo
          rw [List.take_succ_cons, List.takeWhile_cons]
          by_cases isEnd : first = 0
          · simp [isEnd]
          · rw [if_neg isEnd, fromSize (Nat.le_of_succ_le_succ inside)]
            simp [Outcome.bind, textUpTo, isEnd]

theorem textUpTo_min (size : Nat) (str : List UInt8)
    : textUpTo (min size str.length) str = textUpTo size str := by
  unfold textUpTo
  rw [← List.take_eq_take_min]

theorem memchr_eq {len : Nat} (inside : len ≤ str.length)
    : memchr c len str = .done (if c ∈ str.take len then some (str.idxOf c) else none) := by
  induction len generalizing str with
  | zero => simp [memchr]
  | succ len fromLen =>
      cases str with
      | nil => exact absurd inside (by simp)
      | cons first str =>
          unfold memchr
          rw [List.take_succ_cons]
          by_cases isFound : first = c
          · simp [isFound]
          · rw [if_neg isFound, fromLen (Nat.le_of_succ_le_succ inside)]
            have notFirst : c ≠ first := Ne.symm isFound
            by_cases later : c ∈ str.take len
            · simp [Outcome.bind, later, List.idxOf_cons_ne _ isFound]
            · simp [Outcome.bind, later, notFirst]

theorem copyText_eq {size off len : Nat} (inside : off + len ≤ str.length) (fits : len < size)
    : copyText size str off len = .done ((str.drop off).take len ++ [0]) :=
  if_pos ⟨inside, fits⟩

/-- The address is copied with a terminator behind it. -/
theorem copyText_textUpTo {size : Nat}
    : copyText (size + 1) str 0 (textUpTo size str).length = .done (textUpTo size str ++ [0]) := by
  have isPrefix := textUpTo_isPrefix size str
  rw [copyText_eq (by simpa using isPrefix.length_le)
    (Nat.lt_succ_of_le (length_textUpTo_le size str)), List.drop_zero,
    ← List.prefix_iff_eq_take.mp isPrefix]

theorem parseIpv6_sat : (parseIpv6 str dst).Sat fun _ => True := by
  unfold parseIpv6
  rw [scan_eq (min_le_right _ _), textUpTo_min, Outcome.done_bind, copyText_textUpTo,
    Outcome.done_bind]
  exact (netAddrPton6_sat (by simp)).bind fun _ _ => trivial

theorem parseIpv4_fault
    : parseIpv4 str dst = .fault
      ↔ (textUpTo netIpv4AddrLen str).all isAllowed4 = true
        ∧ (textUpTo netIpv4AddrLen str).count dot < 3 := by
  unfold parseIpv4
  rw [scan_eq (min_le_right _ _), textUpTo_min, Outcome.done_bind, copyText_textUpTo,
    Outcome.done_bind, ← netAddrPton4_fault (not_mem_textUpTo _ _) dst]
  cases netAddrPton4 (textUpTo netIpv4AddrLen str ++ [0]) dst with
  | fault => exact iff_of_true rfl rfl
  | fails => exact iff_of_false (by simp) (by simp)
  | done addr4 => exact iff_of_false (by simp) (by simp)

-----------------------------------------------------------------------------------------
-- Texts with a port
-----------------------------------------------------------------------------------------

/-- What is behind the bracket and the colon, up to a terminator. -/
def portText (str : List UInt8) : List UInt8 :=
  (str.drop (str.idxOf 93 + 2)).takeWhile (· ≠ 0)

/-- The arrays for texts are large enough, and no text of an IPv4 address is read that has too few
dots or a port.
-/
def ReadsInside (str : List UInt8) : Prop :=
  if str.head? = some 91 then (portText str).length ≤ inet6Addrstrlen
  else if (str.takeWhile (· ≠ 0)).count colon = 1 then
    ¬(colon ∈ textUpTo netIpv4AddrLen str ∧ (str.take (str.idxOf colon)).all isAllowed4 = true)
  else
    ¬((textUpTo netIpv4AddrLen str).all isAllowed4 = true
      ∧ (textUpTo netIpv4AddrLen str).count dot < 3)

theorem take_textUpTo (size : Nat) (str : List UInt8)
    : str.take (textUpTo size str).length = textUpTo size str :=
  (List.prefix_iff_eq_take.mp (textUpTo_isPrefix size str)).symm

theorem idxOf_lt_textUpTo {size : Nat} (member : c ∈ textUpTo size str)
    : str.idxOf c < (textUpTo size str).length := by
  obtain ⟨later, isText⟩ := textUpTo_isPrefix size str
  have same : str.idxOf c = (textUpTo size str).idxOf c := by
    conv_lhs => rw [← isText]
    exact List.idxOf_append_of_mem member
  rw [same]
  exact List.idxOf_lt_length_of_mem member

/-- What is scanned up to a character is inside the text. -/
theorem memchr_textUpTo {size : Nat}
    : memchr c (textUpTo size str).length str
        = .done (if c ∈ textUpTo size str then some (str.idxOf c) else none) := by
  rw [memchr_eq (textUpTo_isPrefix size str).length_le, take_textUpTo]

theorem not_mem_take_idxOf {size : Nat} (member : c ∈ textUpTo size str)
    : 0 ∉ str.take (str.idxOf c) := by
  intro isEnd
  have shorter : str.take (str.idxOf c) <+: str.take (textUpTo size str).length :=
    List.take_prefix_take_left (idxOf_lt_textUpTo member).le
  rw [take_textUpTo] at shorter
  exact not_mem_textUpTo size str (shorter.subset isEnd)

theorem parseIpv4Port_sat
    (inside : ¬(colon ∈ textUpTo netIpv4AddrLen str
      ∧ (str.take (str.idxOf colon)).all isAllowed4 = true))
    : (parseIpv4Port str dst).Sat fun _ => True := by
  unfold parseIpv4Port
  rw [scan_eq (min_le_right _ _), textUpTo_min, Outcome.done_bind, memchr_textUpTo,
    Outcome.done_bind]
  by_cases member : colon ∈ textUpTo netIpv4AddrLen str
  · rw [if_pos member]
    have isShort := idxOf_lt_textUpTo member
    have isSmall := length_textUpTo_le netIpv4AddrLen str
    have fits := (textUpTo_isPrefix netIpv4AddrLen str).length_le
    have notAllowed : ¬(str.take (str.idxOf colon)).all isAllowed4 = true :=
      fun allowed => inside ⟨member, allowed⟩
    dsimp only
    rw [min_eq_right isShort.le, copyText_eq (by omega) (by omega), Outcome.done_bind,
      List.drop_zero, netAddrPton4_eq (not_mem_take_idxOf member), if_neg notAllowed]
    trivial
  · rw [if_neg member]
    trivial

theorem textUpTo_length (str : List UInt8) : textUpTo str.length str = str.takeWhile (· ≠ 0) := by
  rw [textUpTo, List.take_length]

theorem parseIpv6Port_sat (isBracket : str.head? = some 91)
    (isSmall : (portText str).length ≤ inet6Addrstrlen)
    : (parseIpv6Port str dst).Sat fun _ => True := by
  unfold parseIpv6Port
  rw [scan_eq (min_le_right _ _), textUpTo_min, Outcome.done_bind, memchr_textUpTo,
    Outcome.done_bind]
  by_cases member : 93 ∈ textUpTo inet6Addrstrlen str
  · rw [if_pos member]
    have isShort := idxOf_lt_textUpTo member
    have isHost := length_textUpTo_le inet6Addrstrlen str
    have fits := (textUpTo_isPrefix inet6Addrstrlen str).length_le
    -- The text begins with the other bracket.
    have notFirst : 0 < str.idxOf 93 := by
      cases str with
      | nil => cases isBracket
      | cons first str =>
          cases isBracket
          rw [List.idxOf_cons_ne _ (by decide)]
          exact Nat.succ_pos _
    generalize isPtr : str.idxOf 93 = ptr at isShort notFirst
    dsimp only
    rw [min_eq_right (by omega), copyText_eq (by omega) (by omega), Outcome.done_bind]
    refine (netAddrPton6_sat (by simp)).bind fun addr6 _ => ?_
    by_cases isPort : str[ptr + 1]? = some colon
    · obtain ⟨isInside, _⟩ := List.getElem?_eq_some_iff.mp isPort
      have length : str.length - (ptr - 1) - 1 - 2 = (str.drop (ptr + 2)).length := by
        rw [List.length_drop]
        omega
      have isPortText : textUpTo (str.drop (ptr + 2)).length (str.drop (ptr + 2))
          = portText str := by
        rw [textUpTo_length, ← isPtr]
        rfl
      have isPrefix := textUpTo_isPrefix (str.drop (ptr + 2)).length (str.drop (ptr + 2))
      rw [isPortText] at isPrefix
      rw [if_pos isPort, length, scan_eq le_rfl, Outcome.done_bind, isPortText,
        copyText_eq (by simpa using isPrefix.length_le) (by omega), Outcome.done_bind]
      exact (convertPort_sat (by simp)).bind fun _ _ => trivial
    · rw [if_neg isPort]
      trivial
  · rw [if_neg member]
    trivial

theorem netIpaddrParse_inside (inside : ReadsInside str) : netIpaddrParse str dst ≠ .fault := by
  unfold ReadsInside at inside
  cases str with
  | nil =>
      rintro isFault
      cases isFault
  | cons first str =>
      unfold netIpaddrParse
      dsimp only
      by_cases isEnd : first = 0
      · rw [if_pos isEnd]
        rintro isFault
        cases isFault
      rw [if_neg isEnd]
      by_cases isBracket : first = 91
      · rw [if_pos isBracket]
        have isFirst : (first :: str).head? = some 91 := congrArg some isBracket
        rw [if_pos isFirst] at inside
        exact (parseIpv6Port_sat isFirst inside).ne_fault
      rw [if_neg isBracket]
      have notFirst : ¬(first :: str).head? = some 91 := fun isFirst =>
        isBracket (Option.some.inj isFirst)
      rw [if_neg notFirst] at inside
      by_cases isPort : ((first :: str).takeWhile (· ≠ 0)).count colon = 1
      · rw [if_pos isPort] at inside ⊢
        exact (parseIpv4Port_sat inside).ne_fault
      · rw [if_neg isPort] at inside ⊢
        have noFault : parseIpv4 (first :: str) dst ≠ .fault := fun isFault =>
          inside (parseIpv4_fault.mp isFault)
        cases isRead : parseIpv4 (first :: str) dst with
        | fault => exact absurd isRead noFault
        | fails => exact parseIpv6_sat.ne_fault
        | done result =>
            rintro isFault
            cases isFault

end Zephyr.Net.Address
