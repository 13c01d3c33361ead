import Mathlib
import Zephyr.Net.Address

/-! How `net_addr_pton` reads the parts of a text: numbers, bytes, groups and two colons. -/

namespace Zephyr.Net.Address

-----------------------------------------------------------------------------------------
-- Texts and their terminator
-----------------------------------------------------------------------------------------

section

variable {α β : Type}

@[simp]
theorem Outcome.done_bind (value : α) (next : α → Outcome β)
    : (Outcome.done value >>= next) = next value :=
  rfl

@[simp]
theorem Outcome.fault_bind (next : α → Outcome β) : (Outcome.fault >>= next) = .fault :=
  rfl

@[simp]
theorem Outcome.fails_bind (next : α → Outcome β) : (Outcome.fails >>= next) = .fails :=
  rfl

@[simp]
theorem Outcome.pure_eq (value : α) : (pure value : Outcome α) = .done value :=
  rfl

end

variable {text rest : List UInt8} {c stop : UInt8}

theorem strlen_text (noEnd : 0 ∉ text) : strlen (text ++ 0 :: rest) = .done text.length := by
  induction text with
  | nil => rfl
  | cons first text fromText =>
      rw [List.mem_cons, not_or] at noEnd
      rw [List.cons_append, strlen, if_neg (Ne.symm noEnd.1), fromText noEnd.2]
      rfl

theorem strchr_found (noEnd : 0 ∉ text) (isFirst : c ∉ text)
    : strchr c (text ++ c :: rest) = .done (some (c :: rest)) := by
  induction text with
  | nil => simp [strchr]
  | cons first text fromText =>
      rw [List.mem_cons, not_or] at noEnd isFirst
      rw [List.cons_append, strchr, if_neg (Ne.symm isFirst.1), if_neg (Ne.symm noEnd.1),
        fromText noEnd.2 isFirst.2]

theorem strchr_missing (notEnd : c ≠ 0) (noEnd : 0 ∉ text) (missing : c ∉ text)
    : strchr c (text ++ 0 :: rest) = .done none := by
  induction text with
  | nil => simp [strchr, Ne.symm notEnd]
  | cons first text fromText =>
      rw [List.mem_cons, not_or] at noEnd missing
      rw [List.cons_append, strchr, if_neg (Ne.symm missing.1), if_neg (Ne.symm noEnd.1),
        fromText noEnd.2 missing.2]

theorem strrchrLoop_missing {place : Nat} {last : Option Nat} (notEnd : c ≠ 0) (noEnd : 0 ∉ text)
    (missing : c ∉ text)
    : strrchrLoop c place last (text ++ 0 :: rest) = .done last := by
  induction text generalizing place with
  | nil => simp [strrchrLoop, Ne.symm notEnd]
  | cons first text fromText =>
      rw [List.mem_cons, not_or] at noEnd missing
      simp only [List.cons_append, strrchrLoop, if_neg (Ne.symm missing.1),
        if_neg (Ne.symm noEnd.1)]
      exact fromText noEnd.2 missing.2

theorem strrchrLoop_found {before : List UInt8} {place : Nat} {last : Option Nat} (notEnd : c ≠ 0)
    (noEnd : 0 ∉ before) (noEnd' : 0 ∉ text) (isLast : c ∉ text)
    : strrchrLoop c place last (before ++ c :: (text ++ 0 :: rest))
        = .done (some (place + before.length)) := by
  induction before generalizing place last with
  | nil =>
      simp only [List.nil_append, strrchrLoop, if_pos, if_neg notEnd]
      exact strrchrLoop_missing notEnd noEnd' isLast
  | cons first before fromBefore =>
      rw [List.mem_cons, not_or] at noEnd
      simp only [List.cons_append, strrchrLoop, if_neg (Ne.symm noEnd.1)]
      rw [fromBefore noEnd.2, List.length_cons, Nat.add_right_comm, Nat.add_assoc]

/-- Counting down succeeds if there are not more colons than groups. -/
theorem skipGroups_eq {i : Nat} (enough : text.count colon ≤ i)
    : skipGroups i text = some (i - text.count colon) := by
  induction text generalizing i with
  | nil => rfl
  | cons first text fromText =>
      unfold skipGroups
      by_cases isColon : first = colon
      · rw [isColon, List.count_cons_self] at enough ⊢
        rw [if_pos rfl]
        cases i with
        | zero => cases enough
        | succ i =>
            dsimp only
            rw [fromText (Nat.le_of_succ_le_succ enough), Nat.succ_sub_succ]
      · rw [List.count_cons_of_ne isColon] at enough ⊢
        rw [if_neg isColon, fromText enough]

-----------------------------------------------------------------------------------------
-- Numbers
-----------------------------------------------------------------------------------------

/-- The value of a text of digits. -/
def valueOf (base : Nat) : Nat → List UInt8 → Option Nat
  | acc, [] => some acc
  | acc, c :: rest =>
      match digitOf c with
      | some digit => if digit < base then valueOf base (acc * base + digit) rest else none
      | none => none

theorem valueOf_cons {base acc value : Nat} (isValue : valueOf base acc (c :: text) = some value)
    : ∃ digit, digitOf c = some digit ∧ digit < base
        ∧ valueOf base (acc * base + digit) text = some value := by
  simp only [valueOf] at isValue
  cases isDigit : digitOf c with
  | none => simp [isDigit] at isValue
  | some digit =>
      simp only [isDigit] at isValue
      split_ifs at isValue with isSmall
      exact ⟨digit, rfl, isSmall, isValue⟩

theorem digits_text {base acc value : Nat} (isValue : valueOf base acc text = some value)
    (isStop : digitOf stop = none)
    : digits base acc (text ++ stop :: rest) = .done (value, stop :: rest) := by
  induction text generalizing acc with
  | nil =>
      cases isValue
      simp [digits, isStop]
  | cons first text fromText =>
      obtain ⟨digit, isDigit, isSmall, isRest⟩ := valueOf_cons isValue
      rw [List.cons_append, digits, isDigit]
      dsimp only
      rw [if_pos isSmall, fromText isRest]

theorem digit_of_valueOf {base acc value : Nat} (isValue : valueOf base acc text = some value)
    (member : c ∈ text)
    : ∃ digit, digitOf c = some digit ∧ digit < base := by
  induction text generalizing acc with
  | nil => cases member
  | cons first text fromText =>
      obtain ⟨digit, isDigit, isSmall, isRest⟩ := valueOf_cons isValue
      rcases List.mem_cons.mp member with rfl | isLater
      · exact ⟨digit, isDigit, isSmall⟩
      · exact fromText isRest isLater

/-- Neither a terminator nor a delimiter is in a number. -/
theorem not_mem_of_valueOf {base acc value : Nat} (isValue : valueOf base acc text = some value)
    (isStop : digitOf stop = none)
    : stop ∉ text := by
  intro member
  obtain ⟨digit, isDigit, _⟩ := digit_of_valueOf isValue member
  rw [isStop] at isDigit
  cases isDigit

theorem digitOf_ranges {digit : Nat} (isDigit : digitOf c = some digit)
    : 48 ≤ c.toNat ∧ c.toNat ≤ 57 ∧ digit = c.toNat - 48
      ∨ 65 ≤ c.toNat ∧ c.toNat ≤ 90 ∧ digit = c.toNat - 55
      ∨ 97 ≤ c.toNat ∧ c.toNat ≤ 122 ∧ digit = c.toNat - 87 := by
  unfold digitOf at isDigit
  simp only [UInt8.le_iff_toNat_le] at isDigit
  split_ifs at isDigit with isNumber isUpper isLower
  all_goals
    cases isDigit
  · exact .inl ⟨isNumber.1, isNumber.2, rfl⟩
  · exact .inr (.inl ⟨isUpper.1, isUpper.2, rfl⟩)
  · exact .inr (.inr ⟨isLower.1, isLower.2, rfl⟩)

theorem not_isspace {digit : Nat} (isDigit : digitOf c = some digit) : isspace c = false := by
  have ranges := digitOf_ranges isDigit
  simp only [isspace, Bool.or_eq_false_iff, decide_eq_false_iff_not, Bool.and_eq_false_iff,
    UInt8.le_iff_toNat_le, ← UInt8.toNat_inj]
  have : (32 : UInt8).toNat = 32 := rfl
  have : (9 : UInt8).toNat = 9 := rfl
  have : (13 : UInt8).toNat = 13 := rfl
  omega

theorem skipSign_digit {digit : Nat} (isDigit : digitOf c = some digit)
    : skipSign (c :: rest) = (false, c :: rest) := by
  have ranges := digitOf_ranges isDigit
  have notMinus : c ≠ 45 := by
    rintro rfl
    cases isDigit
  have notPlus : c ≠ 43 := by
    rintro rfl
    cases isDigit
  rw [skipSign, if_neg notMinus, if_neg notPlus]

/-- No number with base 16 that ends with a delimiter or a terminator begins with `0x`. -/
theorem skip0x_text {base value : Nat} (isBase : base ≤ 16)
    (isValue : valueOf base 0 (c :: text) = some value) (isStop : digitOf stop = none)
    : skip0x base (c :: (text ++ stop :: rest)) = .done (c :: (text ++ stop :: rest)) := by
  unfold skip0x
  dsimp only
  split_ifs with isZero
  · have notX : ∀ x : UInt8, x = 120 ∨ x = 88 → digitOf x = some 33 := by
      rintro x (rfl | rfl) <;> rfl
    cases text with
    | nil =>
        have : ¬(stop = 120 ∨ stop = 88) := by
          intro isX
          rw [notX stop isX] at isStop
          cases isStop
        simp only [List.nil_append, if_neg this]
    | cons x text =>
        have : ¬(x = 120 ∨ x = 88) := by
          intro isX
          obtain ⟨digit, isDigit, isSmall⟩ :=
            digit_of_valueOf isValue (List.mem_cons_of_mem _ List.mem_cons_self)
          rw [notX x isX] at isDigit
          cases isDigit
          omega
        simp only [List.cons_append, if_neg this]
  · rfl

/-- `strtol` reads a number up to a character that is no digit. -/
theorem strtol_text {base value : Nat} (isBase : base ≤ 16)
    (isValue : valueOf base 0 text = some value) (isText : text ≠ []) (isSmall : value < 2 ^ 31)
    (isStop : digitOf stop = none)
    : strtol base (text ++ stop :: rest) = .done ((value : Int), stop :: rest) := by
  cases text with
  | nil => exact absurd rfl isText
  | cons first text =>
      obtain ⟨digit, isDigit, _⟩ := digit_of_valueOf isValue List.mem_cons_self
      have skipped : skipSpaces (first :: (text ++ stop :: rest))
          = .done (first :: (text ++ stop :: rest)) := by
        rw [skipSpaces, not_isspace isDigit]
        rfl
      have read : digits base 0 (first :: (text ++ stop :: rest)) = _ := digits_text isValue isStop
      have shorter : (stop :: rest).length < (first :: (text ++ stop :: rest)).length := by simp
      have fits : min (value : Int) (2 ^ 31 - 1) = value := by omega
      rw [List.cons_append]
      simp only [strtol, readNumber, skipped, Outcome.done_bind, skipSign_digit isDigit,
        skip0x_text isBase isValue isStop, read, Outcome.pure_eq, if_pos shorter,
        Bool.false_eq_true, if_false, fits]

-----------------------------------------------------------------------------------------
-- Bytes and groups
-----------------------------------------------------------------------------------------

/-- A byte of an IPv4 address without the delimiter. -/
def octetDigits (value : UInt8) : List UInt8 :=
  (octetText value).dropLast

theorem octetDigits_facts (value : Fin 256)
    : octetText (.ofNat value) = octetDigits (.ofNat value) ++ [dot]
        ∧ valueOf 10 0 (octetDigits (.ofNat value)) = some value.val
        ∧ octetDigits (.ofNat value) ≠ [] := by
  revert value
  decide +kernel

theorem octetText_eq (value : UInt8) : octetText value = octetDigits value ++ [dot] := by
  have facts := octetDigits_facts ⟨value.toNat, value.toNat_lt⟩
  rw [UInt8.ofNat_toNat] at facts
  exact facts.1

theorem valueOf_octet (value : UInt8)
    : valueOf 10 0 (octetDigits value) = some value.toNat ∧ octetDigits value ≠ [] := by
  have facts := octetDigits_facts ⟨value.toNat, value.toNat_lt⟩
  rw [UInt8.ofNat_toNat] at facts
  exact facts.2

theorem digitOf_hexChar {digit : Nat} (isSmall : digit < 16)
    : digitOf (hexChar 97 digit) = some digit := by
  have all : ∀ digit : Fin 16, digitOf (hexChar 97 digit) = some digit.val := by decide +kernel
  exact all ⟨digit, isSmall⟩

theorem valueOf_hexChar {acc digit : Nat} (isSmall : digit < 16)
    : valueOf 16 acc (hexChar 97 digit :: text) = valueOf 16 (acc * 16 + digit) text := by
  simp [valueOf, digitOf_hexChar isSmall, isSmall]

theorem netByteToHex_two {byte : Nat} {pad : Bool} (isLong : pad = true ∨ 0x0f < byte)
    : netByteToHex byte 97 pad = [hexChar 97 (byte / 16), hexChar 97 (byte % 16)] := by
  have isFirst : (!pad && decide (byte / 16 = 0)) = false := by
    rcases isLong with rfl | isLong
    · rfl
    · rw [Bool.and_eq_false_iff, decide_eq_false_iff_not]
      exact .inr (by omega)
  rw [netByteToHex, isFirst]
  rfl

/-- A group is written with its value. -/
theorem valueOf_group {value : Nat} (isSmall : value < 2 ^ 16)
    : valueOf 16 0 (groupText value) = some value ∧ groupText value ≠ [] := by
  have low : value % 2 ^ 8 % 16 < 16 := Nat.mod_lt _ (by decide)
  have isByte : value % 2 ^ 8 / 16 < 16 := by omega
  have high : value / 2 ^ 8 % 16 < 16 := Nat.mod_lt _ (by decide)
  have isHigh : value / 2 ^ 8 / 16 < 16 := by omega
  unfold groupText
  dsimp only
  by_cases isLong : value / 2 ^ 8 ≠ 0
  · rw [if_pos isLong, netByteToHex_two (.inl rfl)]
    by_cases isWide : 0x0f < value / 2 ^ 8
    · rw [if_pos isWide, netByteToHex_two (.inr isWide)]
      refine ⟨?_, by simp⟩
      simp only [List.cons_append, List.nil_append]
      rw [valueOf_hexChar isHigh, valueOf_hexChar high, valueOf_hexChar isByte,
        valueOf_hexChar low, valueOf, Option.some.injEq]
      omega
    · rw [if_neg isWide]
      refine ⟨?_, by simp⟩
      have isDigit : value / 2 ^ 8 < 16 := by omega
      simp only [List.cons_append, List.nil_append]
      rw [valueOf_hexChar isDigit, valueOf_hexChar isByte, valueOf_hexChar low, valueOf,
        Option.some.injEq]
      omega
  · rw [if_neg isLong]
    by_cases isWide : 0x0f < value % 2 ^ 8
    · rw [if_pos isWide, netByteToHex_two (.inr isWide)]
      refine ⟨?_, by simp⟩
      rw [valueOf_hexChar isByte, valueOf_hexChar low, valueOf, Option.some.injEq]
      omega
    · rw [if_neg isWide]
      refine ⟨?_, by simp⟩
      have isDigit : value % 2 ^ 8 < 16 := by omega
      rw [valueOf_hexChar isDigit, valueOf, Option.some.injEq]
      omega

/-- The characters of a group or a byte are allowed in an IPv6 address. -/
theorem isAllowed6_digit {digit : Nat} (isDigit : digitOf c = some digit) (isSmall : digit < 16)
    : isAllowed6 c = true := by
  have ranges := digitOf_ranges isDigit
  simp only [isAllowed6, Address.isDigit, Bool.or_eq_true, Bool.and_eq_true, decide_eq_true_eq,
    UInt8.le_iff_toNat_le]
  have : (48 : UInt8).toNat = 48 := rfl
  have : (57 : UInt8).toNat = 57 := rfl
  have : (65 : UInt8).toNat = 65 := rfl
  have : (70 : UInt8).toNat = 70 := rfl
  have : (97 : UInt8).toNat = 97 := rfl
  have : (102 : UInt8).toNat = 102 := rfl
  omega

theorem isAllowed4_digit {digit : Nat} (isDigit : digitOf c = some digit) (isSmall : digit < 10)
    : isAllowed4 c = true := by
  have ranges := digitOf_ranges isDigit
  simp only [isAllowed4, Address.isDigit, Bool.or_eq_true, Bool.and_eq_true, decide_eq_true_eq,
    UInt8.le_iff_toNat_le]
  have : (48 : UInt8).toNat = 48 := rfl
  have : (57 : UInt8).toNat = 57 := rfl
  omega

-----------------------------------------------------------------------------------------
-- IPv4 addresses
-----------------------------------------------------------------------------------------

theorem byteOf_toNat (value : UInt8) : byteOf (value.toNat : Int) = value := by
  have : ((value.toNat : Int) % 2 ^ 8).toNat = value.toNat := by
    have := value.toNat_lt
    omega
  rw [byteOf, this, UInt8.ofNat_toNat]

theorem strtol_octet (value : UInt8) (isStop : digitOf stop = none)
    : strtol 10 (octetDigits value ++ stop :: rest)
        = .done ((value.toNat : Int), stop :: rest) := by
  obtain ⟨isValue, isText⟩ := valueOf_octet value
  have := value.toNat_lt
  exact strtol_text (by decide) isValue isText (by omega) isStop

/-- The bytes of an IPv4 address, with a delimiter between them. -/
theorem octetsText_eq (addr : Nat → UInt8)
    : (octetsText addr).dropLast
        = octetDigits (addr 0) ++ dot :: (octetDigits (addr 1) ++ dot :: (octetDigits (addr 2)
          ++ dot :: octetDigits (addr 3))) := by
  simp only [octetsText, octetText_eq, ← List.append_assoc, List.dropLast_concat]
  simp

theorem not_mem_octet (value : UInt8) (isStop : digitOf stop = none) : stop ∉ octetDigits value :=
  not_mem_of_valueOf (valueOf_octet value).1 isStop

theorem not_mem_octets (addr : Nat → UInt8) (isStop : digitOf stop = none) (notDot : stop ≠ dot)
    : stop ∉ (octetsText addr).dropLast := by
  simp only [octetsText_eq, List.mem_append, List.mem_cons, not_or]
  exact ⟨not_mem_octet _ isStop, notDot, not_mem_octet _ isStop, notDot, not_mem_octet _ isStop,
    notDot, not_mem_octet _ isStop⟩

theorem octetsLoop_step {left i : Nat} {dst : Nat → UInt8} (value : UInt8)
    (isInside : i < 4) (isStop : digitOf stop = none)
    : octetsLoop (left + 1) i (octetDigits value ++ stop :: rest) dst
        = octetsLoop left (i + 1) rest (fun k => if k = i then value else dst k) := by
  simp only [octetsLoop, strtol_octet value isStop, Outcome.done_bind, put, if_pos isInside,
    byteOf_toNat, List.tail_cons]

theorem take_append_length (text rest : List UInt8) : (text ++ rest).take text.length = text :=
  List.take_left

theorem octets_allowed4 (addr : Nat → UInt8)
    : ((octetsText addr).dropLast).all isAllowed4 = true := by
  have octet (value : UInt8) : ∀ c ∈ octetDigits value, isAllowed4 c = true := by
    intro c member
    obtain ⟨digit, isDigit, isSmall⟩ := digit_of_valueOf (valueOf_octet value).1 member
    exact isAllowed4_digit isDigit isSmall
  simp only [octetsText_eq, List.all_append, List.all_cons, Bool.and_eq_true, List.all_eq_true]
  exact ⟨octet _, rfl, octet _, rfl, octet _, rfl, octet _⟩

/-- An IPv4 address is read back. -/
theorem pton4_ntop4 (addr dst : Nat → UInt8)
    : ∃ result, netAddrPton4 (netAddrNtop4 addr ++ [0]) dst = .done result
        ∧ ∀ k < 4, result k = addr k := by
  unfold netAddrPton4 netAddrNtop4
  rw [strlen_text (not_mem_octets addr rfl (by decide))]
  dsimp only [Outcome.done_bind]
  rw [take_append_length, if_pos (octets_allowed4 addr), octetsText_eq]
  simp only [List.append_assoc, List.cons_append]
  rw [octetsLoop_step _ (by decide) rfl, octetsLoop_step _ (by decide) rfl,
    octetsLoop_step _ (by decide) rfl, octetsLoop_step _ (by decide) rfl, octetsLoop]
  refine ⟨_, rfl, fun k isByte => ?_⟩
  have cases : k = 0 ∨ k = 1 ∨ k = 2 ∨ k = 3 := by omega
  rcases cases with rfl | rfl | rfl | rfl <;> rfl

-----------------------------------------------------------------------------------------
-- Groups of an IPv6 address
-----------------------------------------------------------------------------------------

/-- The first groups of two addresses are the same. -/
def Agrees (groups : Nat) (first second : Nat → UInt8) : Prop :=
  ∀ k < 2 * groups, first k = second k

theorem word_lt (addr : Nat → UInt8) (i : Nat) : word addr i < 2 ^ 16 := by
  have := (addr (2 * i)).toNat_lt
  have := (addr (2 * i + 1)).toNat_lt
  unfold word
  omega

/-- A group of an address is written. -/
def setWord (addr : Nat → UInt8) (i : Nat) (value : Int) : Nat → UInt8 :=
  fun k => if k = 2 * i + 1 then byteOf value
    else if k = 2 * i then byteOf (value / 2 ^ 8) else addr k

theorem put16_eq {i : Nat} (isInside : i < 8) (addr : Nat → UInt8) (value : Int)
    : put16 addr i value = .done (setWord addr i value) := by
  unfold put16 put
  rw [if_pos (by omega), Outcome.done_bind, if_pos (by omega)]
  rfl

theorem agrees_setWord {i : Nat} {addr target : Nat → UInt8} (agrees : Agrees i addr target)
    : Agrees (i + 1) (setWord addr i (word target i)) target := by
  intro k isLess
  have high := byteOf_toNat (target (2 * i))
  have low := byteOf_toNat (target (2 * i + 1))
  have := (target (2 * i)).toNat_lt
  have := (target (2 * i + 1)).toNat_lt
  have isHigh : (word target i : Int) / 2 ^ 8 = (target (2 * i)).toNat := by
    unfold word
    omega
  have isLow : byteOf (word target i) = byteOf (target (2 * i + 1)).toNat := by
    unfold byteOf word
    congr 2
    omega
  unfold setWord
  split_ifs with isSecond isFirst
  · rw [isSecond, isLow, low]
  · rw [isFirst, isHigh, high]
  · exact agrees k (by omega)

theorem strtol_group {value : Nat} (isSmall : value < 2 ^ 16) (isStop : digitOf stop = none)
    : strtol 16 (groupText value ++ stop :: rest) = .done ((value : Int), stop :: rest) := by
  obtain ⟨isValue, isText⟩ := valueOf_group isSmall
  exact strtol_text (by decide) isValue isText (by omega) isStop

theorem not_mem_group {value : Nat} (isSmall : value < 2 ^ 16) (isStop : digitOf stop = none)
    : stop ∉ groupText value :=
  not_mem_of_valueOf (valueOf_group isSmall).1 isStop

/-- The beginning of a group is neither a colon nor a terminator. -/
theorem group_cons {value : Nat} (isSmall : value < 2 ^ 16)
    : ∃ first more, groupText value = first :: more ∧ first ≠ 0 ∧ first ≠ colon := by
  have noEnd : 0 ∉ groupText value := not_mem_group isSmall rfl
  have noColon : colon ∉ groupText value := not_mem_group isSmall rfl
  cases isGroup : groupText value with
  | nil => exact absurd isGroup (valueOf_group isSmall).2
  | cons first more =>
      rw [isGroup, List.mem_cons, not_or] at noEnd noColon
      exact ⟨first, more, rfl, Ne.symm noEnd.1, Ne.symm noColon.1⟩

variable {expected fuel i : Nat} {addr target : Nat → UInt8}

/-- A group with a colon behind it is read. -/
theorem groupsLoop_colon (isSmall : expected ≤ 8) (goesOn : i < expected)
    : groupsLoop expected (fuel + 1) i (some (groupText (word target i) ++ colon :: rest)) addr
        = groupsLoop expected fuel (i + 1) (some rest) (setWord addr i (word target i)) := by
  have isWord := word_lt target i
  have found : strchr colon (groupText (word target i) ++ colon :: rest) = _ :=
    strchr_found (not_mem_group isWord rfl) (not_mem_group isWord rfl)
  have read : strtol 16 (groupText (word target i) ++ colon :: rest) = _ := strtol_group isWord rfl
  obtain ⟨first, more, isGroup, notEnd, notColon⟩ := group_cons isWord
  rw [isGroup, List.cons_append] at found read ⊢
  rw [groupsLoop, if_neg (by omega)]
  dsimp only
  rw [if_neg notEnd, if_pos notColon, read]
  simp only [Outcome.done_bind, put16_eq (Nat.lt_of_lt_of_le goesOn isSmall), found, List.tail_cons]

/-- The last group is read. -/
theorem groupsLoop_last (isSmall : expected ≤ 8) (isLast : i + 1 = expected)
    : groupsLoop expected (fuel + 1) i (some (groupText (word target i) ++ 0 :: rest)) addr
        = groupsLoop expected fuel (i + 1) none (setWord addr i (word target i)) := by
  have isWord := word_lt target i
  have missing : strchr colon (groupText (word target i) ++ 0 :: rest) = _ :=
    strchr_missing (by decide) (not_mem_group isWord rfl) (not_mem_group isWord rfl)
  have read : strtol 16 (groupText (word target i) ++ 0 :: rest) = _ := strtol_group isWord rfl
  obtain ⟨first, more, isGroup, notEnd, notColon⟩ := group_cons isWord
  rw [isGroup, List.cons_append] at missing read ⊢
  rw [groupsLoop, if_neg (by omega)]
  dsimp only
  rw [if_neg notEnd, if_pos notColon, read]
  have isInside : i < 8 := by omega
  simp only [Outcome.done_bind, put16_eq isInside, missing]
  exact if_neg (by omega)

theorem groupsLoop_done (expected fuel : Nat) (src : Option (List UInt8)) (addr : Nat → UInt8)
    : groupsLoop expected (fuel + 1) expected src addr = .done (src, addr) := by
  unfold groupsLoop
  exact if_pos (le_refl expected)

/-- Groups with a colon behind each of them. -/
def colonText (addr : Nat → UInt8) : Nat → Nat → List UInt8
  | _, 0 => []
  | i, n + 1 => groupText (word addr i) ++ colon :: colonText addr (i + 1) n

theorem groupsLoop_colons (fuel : Nat) (rest : List UInt8) (isSmall : expected ≤ 8) (n : Nat)
    (fits : i + n ≤ expected) (agrees : Agrees i addr target)
    : ∃ next,
        groupsLoop expected (fuel + n) i (some (colonText target i n ++ rest)) addr
            = groupsLoop expected fuel (i + n) (some rest) next
          ∧ Agrees (i + n) next target := by
  induction n generalizing i addr with
  | zero => exact ⟨addr, rfl, agrees⟩
  | succ n fromNext =>
      obtain ⟨next, isNext, agrees⟩ := fromNext (by omega) (agrees_setWord agrees)
      refine ⟨next, ?_, ?_⟩
      · rw [colonText, List.append_assoc, List.cons_append, ← Nat.add_assoc,
          groupsLoop_colon isSmall (by omega), isNext]
        congr 1
        omega
      · rw [show i + (n + 1) = i + 1 + n by omega]
        exact agrees

-----------------------------------------------------------------------------------------
-- Two colons
-----------------------------------------------------------------------------------------

/-- Some groups of an address are written with zeros. -/
def fillZeros (addr : Nat → UInt8) (left i : Nat) : Nat → UInt8 :=
  fun k => if 2 * i ≤ k ∧ k < 2 * (i + left) then 0 else addr k

theorem putZeros_eq {left : Nat} (fits : i + left ≤ 8)
    : putZeros addr left i = .done (fillZeros addr left i) := by
  induction left generalizing i addr with
  | zero =>
      have same : fillZeros addr 0 i = addr := by
        funext k
        exact if_neg (by omega)
      rw [same, putZeros]
  | succ left fromLeft =>
      rw [putZeros, put16_eq (by omega), Outcome.done_bind, fromLeft (by omega)]
      congr 1
      funext k
      unfold fillZeros setWord
      split_ifs <;> first | rfl | omega

/-- Where the address is zero, zeros agree with it. -/
theorem agrees_fillZeros {left upto : Nat} (agrees : Agrees i addr target)
    (zero : ∀ j, i ≤ j → j < upto → word target j = 0) (fits : upto ≤ i + left)
    : Agrees upto (fillZeros addr left i) target := by
  intro k isLess
  unfold fillZeros
  split_ifs with isFilled
  · obtain ⟨j, isByte⟩ : ∃ j, k = 2 * j ∨ k = 2 * j + 1 := ⟨k / 2, by omega⟩
    have isZero := zero j (by omega) (by omega)
    unfold word at isZero
    refine (UInt8.toNat_inj.mp ?_).symm
    rcases isByte with rfl | rfl
    · change (target (2 * j)).toNat = 0
      omega
    · change (target (2 * j + 1)).toNat = 0
      omega
  · exact agrees k (by omega)

/-- A text of groups with a colon in front ends with a colon, and has one more colon than groups. -/
theorem colonText_ends (addr : Nat → UInt8) (i n : Nat)
    : ∃ before, colon :: colonText addr i n = before ++ [colon]
        ∧ 0 ∉ before ∧ before.count colon = n := by
  induction n generalizing i with
  | zero => exact ⟨[], rfl, List.not_mem_nil, rfl⟩
  | succ n fromNext =>
      obtain ⟨before, isBefore, noEnd, isCount⟩ := fromNext (i + 1)
      have isWord := word_lt addr i
      have noColon : colon ∉ groupText (word addr i) := not_mem_group isWord rfl
      refine ⟨colon :: (groupText (word addr i) ++ before), ?_, ?_, ?_⟩
      · rw [colonText, isBefore, List.cons_append, List.append_assoc]
      · simp only [List.mem_cons, List.mem_append, not_or]
        exact ⟨by decide, not_mem_group isWord rfl, noEnd⟩
      · rw [List.count_cons_self, List.count_append, List.count_eq_zero_of_not_mem noColon, isCount]
        omega

/-- Two colons at the end of the text. -/
theorem groupsLoop_end (goesOn : i < 8)
    : groupsLoop 8 (fuel + 1) i (some (colon :: 0 :: rest)) addr
        = .done (some (0 :: rest), fillZeros addr (8 - i) i) := by
  have found : strrchr colon (colon :: 0 :: rest) = .done (some 0) := rfl
  rw [groupsLoop, if_neg (by omega)]
  dsimp only
  rw [if_neg (by decide), if_neg (by simp), putZeros_eq (by omega)]
  simp only [Outcome.done_bind, found, List.head?_cons, or_true, and_self, if_true]

section

variable {before tail : List UInt8}

theorem strrchr_last (isText : colon :: tail = before ++ colon :: (text ++ 0 :: rest))
    (noEnd : 0 ∉ before) (noEnd' : 0 ∉ text) (isLast : colon ∉ text)
    : strrchr colon (colon :: tail) = .done (some before.length) := by
  rw [isText, strrchr, strrchrLoop_found (by decide) noEnd noEnd' isLast, Nat.zero_add]

/-- Two colons with groups behind them, in an address of eight groups. -/
theorem groupsLoop_skip8 (isText : colon :: tail = before ++ colon :: (text ++ 0 :: rest))
    (noEnd : 0 ∉ before) (noEnd' : 0 ∉ text) (isLast : colon ∉ text)
    (isMore : tail.head? ≠ some 0) (few : before.count colon ≤ 6) (goesOn : i < 8)
    : groupsLoop 8 (fuel + 1) i (some (colon :: tail)) addr
        = groupsLoop 8 fuel (7 - before.count colon) (some tail) (fillZeros addr (8 - i) i) := by
  have isTake : (colon :: tail).take (before.length + 1) = before ++ [colon] := by
    rw [isText, List.append_cons]
    exact List.take_left' (by simp)
  have isCount : (before ++ [colon]).reverse.count colon = before.count colon + 1 := by
    rw [List.count_reverse, List.count_append, List.count_singleton_self]
  rw [groupsLoop, if_neg (by omega)]
  dsimp only
  rw [if_neg (by decide), if_neg (by simp), putZeros_eq (by omega)]
  simp only [Outcome.done_bind, strrchr_last isText noEnd noEnd' isLast]
  rw [if_neg (by simp [isMore]), if_neg (by decide), isTake, skipGroups_eq (by omega), isCount]
  dsimp only
  congr 1
  omega

/-- Two colons with groups and an IPv4 address behind them. -/
theorem groupsLoop_skip6 (isText : colon :: tail = before ++ colon :: (text ++ 0 :: rest))
    (noEnd : 0 ∉ before) (noEnd' : 0 ∉ text) (isLast : colon ∉ text)
    (isMore : before ≠ []) (few : before.count colon ≤ 5) (goesOn : i < 6)
    : groupsLoop 6 (fuel + 1) i (some (colon :: tail)) addr
        = groupsLoop 6 fuel (6 - before.count colon) (some tail) (fillZeros addr (6 - i) i) := by
  have isPos := List.length_pos_iff.mpr isMore
  have isTake : (colon :: tail).take (before.length - 1 + 1) = before := by
    rw [isText, Nat.sub_add_cancel isPos, List.take_left]
  rw [groupsLoop, if_neg (by omega)]
  dsimp only
  rw [if_neg (by decide), if_neg (by simp), putZeros_eq (by omega)]
  simp only [Outcome.done_bind, strrchr_last isText noEnd noEnd' isLast]
  rw [if_neg (by omega), if_true, isTake,
    skipGroups_eq (by rw [List.count_reverse]; omega), List.count_reverse]
  dsimp only
  congr 1
  omega

end

end Zephyr.Net.Address
