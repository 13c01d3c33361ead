import Zephyr.Net.AddressText

/-! The text of an IPv6 address, and that it is read back as the same address.

The longest run of zeros is left out. On both sides of it there are groups with colons, and an IPv4
address may stand at the end.
-/

namespace Zephyr.Net.Address

variable {text rest : List UInt8} {c : UInt8} {fuel i : Nat} {addr : Nat → UInt8}

-----------------------------------------------------------------------------------------
-- The text that is written
-----------------------------------------------------------------------------------------

/-- The groups from one on, with colons between them. -/
def tailText (addr : Nat → UInt8) (i : Nat) : List UInt8 :=
  if i < 8 then colonText addr i (7 - i) ++ groupText (word addr 7) else []

variable {longest : Nat} {pos : Option Nat} {needcolon : Bool}

theorem printLoop_tail (passed : ∀ j, i ≤ j → pos ≠ some j) (isGroup : i ≤ 8)
    (enough : 8 - i < fuel)
    : printLoop addr longest pos false fuel i needcolon
        = (if i < 8 then (if needcolon then [colon] else []) ++ tailText addr i else [],
            false) := by
  induction fuel generalizing i needcolon with
  | zero => omega
  | succ fuel fromNext =>
      unfold printLoop
      by_cases isEnd : 8 ≤ i
      · rw [if_pos isEnd, if_neg (by omega)]
      · have later : printLoop addr longest pos false fuel (i + 1) true = _ :=
          fromNext (fun j isLater => passed j (by omega)) (by omega) (by omega)
        rw [if_neg isEnd, if_neg (by simp), if_neg (passed i (le_refl i)),
          if_pos (not_le.mp isEnd), later]
        dsimp only
        by_cases isLast : i = 7
        · simp [isLast, tailText, colonText]
        · have isNext : 7 - i = (7 - (i + 1)) + 1 := by omega
          have goesOn : i + 1 < 8 := by omega
          have isInside : i < 8 := by omega
          simp only [tailText, if_pos goesOn, if_pos isInside, isNext, colonText, if_true]
          simp only [List.append_assoc, List.cons_append, List.nil_append]

theorem printLoop_mapped (passed : ∀ j, i ≤ j → pos ≠ some j) (isGroup : i ≤ 6)
    (enough : 8 - i < fuel) (starts : needcolon = true ∨ i < 6)
    : printLoop addr longest pos true fuel i needcolon
        = ((if needcolon then [colon] else []) ++ colonText addr i (6 - i), true) := by
  induction fuel generalizing i needcolon with
  | zero => omega
  | succ fuel fromNext =>
      unfold printLoop
      rw [if_neg (by omega)]
      by_cases isEnd : i = 6
      · rcases starts with rfl | isLess
        · rw [if_pos (by simp [isEnd]), isEnd]
          rfl
        · omega
      · have later : printLoop addr longest pos true fuel (i + 1) true = _ :=
          fromNext (fun j isLater => passed j (by omega)) (by omega) (by omega) (.inl rfl)
        have notEnd : ¬(true && decide (5 < i)) = true := by
          simp
          omega
        rw [if_neg notEnd, if_neg (passed i (le_refl i)), later]
        have isNext : 6 - i = (6 - (i + 1)) + 1 := by omega
        simp only [isNext, colonText, if_true, List.append_assoc, List.cons_append, List.nil_append]

/-- The groups in front of the zeros that are left out. -/
theorem printLoop_head {p : Nat} {mapped goesOn : Bool} {tail : List UInt8} (isBefore : i ≤ p)
    (isGroup : p < 8) (isMapped : mapped = true → p ≤ 5) (enough : 8 - i < fuel)
    (printed
      : ∀ fuel, 8 - (p + longest) < fuel
        → printLoop addr longest (some p) mapped fuel (p + longest) false = (tail, goesOn))
    (isLong : 1 ≤ longest)
    : printLoop addr longest (some p) mapped fuel i true
        = (colon :: (colonText addr i (p - i) ++ colon :: tail), goesOn) := by
  induction fuel generalizing i with
  | zero => omega
  | succ fuel fromNext =>
      have notMapped : ¬(mapped && decide (5 < i)) = true := by
        simp only [Bool.and_eq_true, decide_eq_true_eq, not_and]
        intro mapped
        have := isMapped mapped
        omega
      unfold printLoop
      rw [if_neg (by omega), if_neg notMapped]
      by_cases isHere : p = i
      · subst isHere
        rw [if_pos rfl, printed fuel (by omega)]
        simp [colonText]
      · have later : printLoop addr longest (some p) mapped fuel (i + 1) true = _ :=
          fromNext (by omega) (by omega)
        have isNext : p - i = (p - (i + 1)) + 1 := by omega
        rw [if_neg (by simp [isHere]), later]
        simp only [isNext, colonText, if_true, List.append_assoc, List.cons_append,
          List.nil_append]

-----------------------------------------------------------------------------------------
-- The longest run of zeros
-----------------------------------------------------------------------------------------

theorem zeros_zero (addr : Nat → UInt8) {p : Nat} (isGroup : p ≤ 8)
    : p + zeros addr p ≤ 8 ∧ ∀ j, p ≤ j → j < p + zeros addr p → word addr j = 0 := by
  unfold zeros
  have isPrefix := List.takeWhile_prefix (fun j => decide (word addr j = 0))
    (l := (List.range 8).drop p)
  have isShort := isPrefix.length_le
  rw [List.length_drop, List.length_range] at isShort
  refine ⟨by omega, fun j isLess isInside => ?_⟩
  have isIndex : j - p
      < (((List.range 8).drop p).takeWhile (fun j => decide (word addr j = 0))).length := by
    omega
  have isElement := isPrefix.getElem isIndex
  have member := List.mem_takeWhile_imp (List.getElem_mem isIndex)
  rw [isElement, List.getElem_drop, List.getElem_range, decide_eq_true_eq] at member
  rwa [Nat.add_sub_cancel' isLess] at member

/-- What is known of the longest run among the groups that were looked at. -/
structure Longest (addr : Nat → UInt8) (seen : List Nat) (found : Nat × Option Nat) : Prop where
  isLongest : ∀ i ∈ seen, zeros addr i ≤ found.1
  isRun
    : found.2 = none ∧ found.1 = 1
      ∨ ∃ p < 8, found.2 = some p ∧ found.1 = zeros addr p ∧ 2 ≤ found.1

theorem longestLoop_longest {seen rest : List Nat} {found : Nat × Option Nat}
    (longest : Longest addr seen found) (small : ∀ i ∈ rest, i < 8)
    : Longest addr (seen ++ rest) (longestLoop addr rest found) := by
  induction rest generalizing seen found with
  | nil =>
      rw [List.append_nil]
      exact longest
  | cons i rest fromRest =>
      rw [List.append_cons]
      refine fromRest ?_ fun j isLater => small j (List.mem_cons_of_mem _ isLater)
      have isGroup := small i List.mem_cons_self
      have isPos : 1 ≤ found.1 := by
        rcases longest.isRun with ⟨_, isOne⟩ | ⟨_, _, _, _, isLong⟩ <;> omega
      split_ifs with isLonger
      · refine ⟨?_, .inr ⟨i, isGroup, rfl, rfl, ?_⟩⟩
        · intro j isSeen
          rw [List.mem_append, List.mem_singleton] at isSeen
          rcases isSeen with isSeen | rfl
          · exact (longest.isLongest j isSeen).trans isLonger.le
          · exact le_refl _
        · exact Nat.lt_of_le_of_lt isPos isLonger
      · refine ⟨?_, longest.isRun⟩
        intro j isSeen
        rw [List.mem_append, List.mem_singleton] at isSeen
        rcases isSeen with isSeen | rfl
        · exact longest.isLongest j isSeen
        · exact not_lt.mp isLonger

theorem longest_found (addr : Nat → UInt8)
    : Longest addr (List.range 8) (longestLoop addr (List.range 8) (1, none)) := by
  have start : Longest addr [] (1, none) :=
    ⟨fun _ member => absurd member List.not_mem_nil, .inl ⟨rfl, rfl⟩⟩
  exact longestLoop_longest start fun _ member => List.mem_range.mp member

/-- In an address with an IPv4 address in it, the longest run is long and ends before `ffff`. -/
theorem mapped_run {found : Nat × Option Nat} (isMapped : isV4Mapped addr = true)
    (longest : Longest addr (List.range 8) found)
    : ∃ p, found.2 = some p ∧ found.1 = zeros addr p ∧ p + zeros addr p ≤ 5 ∧ 2 ≤ found.1 := by
  simp only [isV4Mapped, Bool.and_eq_true, decide_eq_true_eq] at isMapped
  obtain ⟨⟨⟨⟨isZero0, isZero1⟩, isZero2⟩, isZero3⟩, isLast⟩ := isMapped
  have isFour : 4 ≤ zeros addr 0 := by
    have isRange : (List.range 8).drop 0 = [0, 1, 2, 3, 4, 5, 6, 7] := rfl
    simp [zeros, isRange, List.takeWhile_cons, isZero0, isZero1, isZero2, isZero3]
  have isLonger := longest.isLongest 0 (by decide)
  rcases longest.isRun with ⟨_, isOne⟩ | ⟨p, isGroup, isPos, isRun, isLong⟩
  · omega
  · obtain ⟨isInside, zero⟩ := zeros_zero addr isGroup.le
    refine ⟨p, isPos, isRun, ?_, isLong⟩
    by_contra isBehind
    have := zero 5 (by omega) (by omega)
    omega

-----------------------------------------------------------------------------------------
-- The whole text
-----------------------------------------------------------------------------------------

/-- The characters of groups. -/
theorem colonText_chars {n : Nat} (member : c ∈ colonText addr i n)
    : c = colon ∨ ∃ digit, digitOf c = some digit ∧ digit < 16 := by
  induction n generalizing i with
  | zero => cases member
  | succ n fromNext =>
      rw [colonText, List.mem_append, List.mem_cons] at member
      rcases member with isGroup | rfl | isLater
      · exact .inr (digit_of_valueOf (valueOf_group (word_lt addr i)).1 isGroup)
      · exact .inl rfl
      · exact fromNext isLater

theorem tailText_chars (member : c ∈ tailText addr i)
    : c = colon ∨ ∃ digit, digitOf c = some digit ∧ digit < 16 := by
  unfold tailText at member
  split_ifs at member with isInside
  · rcases List.mem_append.mp member with isColons | isGroup
    · exact colonText_chars isColons
    · exact .inr (digit_of_valueOf (valueOf_group (word_lt addr 7)).1 isGroup)
  · cases member

/-- The groups do not begin with a terminator. -/
theorem tailText_head (isInside : i < 8) : (tailText addr i ++ rest).head? ≠ some 0 := by
  have noEnd : 0 ∉ tailText addr i := by
    intro member
    rcases tailText_chars member with isColon | ⟨digit, isDigit, _⟩
    · exact absurd isColon (by decide)
    · cases isDigit
  cases isTail : tailText addr i with
  | nil =>
      rw [tailText, if_pos isInside, List.append_eq_nil_iff] at isTail
      exact absurd isTail.2 (valueOf_group (word_lt addr 7)).2
  | cons first more =>
      rw [isTail, List.mem_cons, not_or] at noEnd
      rw [List.cons_append, List.head?_cons, ne_eq, Option.some.injEq]
      exact Ne.symm noEnd.1

theorem allowed_of_chars (chars : c = colon ∨ ∃ digit, digitOf c = some digit ∧ digit < 16)
    : isAllowed6 c = true ∧ c ≠ dot := by
  rcases chars with rfl | ⟨digit, isDigit, isSmall⟩
  · decide
  · refine ⟨isAllowed6_digit isDigit isSmall, ?_⟩
    rintro rfl
    cases isDigit

theorem no_end_of_allowed (allowed : ∀ c ∈ text, isAllowed6 c = true) : 0 ∉ text :=
  fun member => absurd (allowed 0 member) (by decide)

/-- The text from the first group on, where some zeros are left out. -/
theorem printLoop_start {p : Nat} {mapped goesOn : Bool} {tail : List UInt8} (isGroup : p < 8)
    (isMapped : mapped = true → p ≤ 5)
    (printed
      : ∀ fuel, 8 - (p + longest) < fuel
        → printLoop addr longest (some p) mapped fuel (p + longest) false = (tail, goesOn))
    (isLong : 1 ≤ longest)
    : printLoop addr longest (some p) mapped 9 0 false
        = ((if p = 0 then [colon] else []) ++ (colonText addr 0 p ++ colon :: tail), goesOn) := by
  unfold printLoop
  rw [if_neg (by decide), if_neg (by simp)]
  cases p with
  | zero =>
      rw [if_pos rfl, printed 8 (by omega)]
      rfl
  | succ p =>
      have later : printLoop addr longest (some (p + 1)) mapped 8 (0 + 1) true = _ :=
        printLoop_head (by omega) isGroup isMapped (by omega) printed isLong
      rw [if_neg (by simp), later]
      simp [colonText]

theorem skipColon_text (addr : Nat → UInt8) (p : Nat) (tail : List UInt8)
    : skipColon ((if p = 0 then [colon] else []) ++ (colonText addr 0 p ++ colon :: tail) ++ [0])
        = colonText addr 0 p ++ colon :: tail ++ [0] := by
  cases p with
  | zero => rfl
  | succ p =>
      obtain ⟨first, more, isGroup, _, notColon⟩ := group_cons (word_lt addr 0)
      simp [colonText, isGroup, skipColon, notColon]

theorem strchr_isSome (noEnd : 0 ∉ text) (member : c ∈ text)
    : ∃ found, strchr c (text ++ rest) = .done (some found) := by
  induction text with
  | nil => cases member
  | cons first text fromText =>
      rw [List.mem_cons, not_or] at noEnd
      rw [List.cons_append, strchr]
      by_cases isFirst : first = c
      · exact ⟨_, if_pos isFirst⟩
      · rw [if_neg isFirst, if_neg (Ne.symm noEnd.1)]
        exact fromText noEnd.2 ((List.mem_cons.mp member).resolve_left (Ne.symm isFirst))

/-- A text without dots, with the leading colon ignored, is read as eight groups. -/
theorem pton6_groups {body : List UInt8} {dst result : Nat → UInt8}
    {src : Option (List UInt8)} (allowed : ∀ c ∈ text, isAllowed6 c = true ∧ c ≠ dot)
    (isBody : skipColon (text ++ [0]) = body ++ [0])
    (allowed' : ∀ c ∈ body, isAllowed6 c = true)
    (parsed
      : groupsLoop 8 ((body ++ [0]).length + 9) 0 (some (body ++ [0])) dst = .done (src, result))
    : netAddrPton6 (text ++ [0]) dst = .done result := by
  have noEnd := no_end_of_allowed fun c member => (allowed c member).1
  have noDot : dot ∉ text := fun member => (allowed dot member).2 rfl
  unfold netAddrPton6
  rw [strchr_missing (by decide) noEnd noDot]
  simp only [Outcome.done_bind, isBody, strlen_text (no_end_of_allowed allowed'),
    take_append_length, Option.isSome_none, Bool.false_eq_true, if_false]
  rw [if_pos (List.all_eq_true.mpr allowed'), parsed]
  rfl

/-- A text with dots is read as six groups and an IPv4 address. -/
theorem pton6_mapped {body : List UInt8} {dst middle result : Nat → UInt8}
    {src : Option (List UInt8)} (allowed : ∀ c ∈ text, isAllowed6 c = true) (isDot : dot ∈ text)
    (isBody : skipColon (text ++ [0]) = body ++ [0])
    (allowed' : ∀ c ∈ body, isAllowed6 c = true)
    (parsed
      : groupsLoop 6 ((body ++ [0]).length + 9) 0 (some (body ++ [0])) dst = .done (src, middle))
    (quads : quadsLoop 4 0 src middle = .done result)
    : netAddrPton6 (text ++ [0]) dst = .done result := by
  obtain ⟨found, isFound⟩ := strchr_isSome (no_end_of_allowed allowed) isDot
  unfold netAddrPton6
  rw [isFound]
  simp only [Outcome.done_bind, isBody, strlen_text (no_end_of_allowed allowed'),
    take_append_length, Option.isSome_some, if_true]
  rw [if_pos (List.all_eq_true.mpr allowed'), parsed]
  exact quads

/-- The groups up to the last one, with a terminator behind it. -/
theorem groupsLoop_tail {target : Nat → UInt8} (fuel : Nat) (isInside : i < 8)
    (agrees : Agrees i addr target) (enough : 9 - i ≤ fuel)
    : ∃ result,
        groupsLoop 8 fuel i (some (tailText target i ++ [0])) addr = .done (none, result)
          ∧ Agrees 8 result target := by
  obtain ⟨next, isNext, agrees⟩ :=
    groupsLoop_colons (fuel - (7 - i)) (groupText (word target 7) ++ [0]) (le_refl 8) (7 - i)
      (by omega) agrees
  have isLast : i + (7 - i) = 7 := by omega
  have isFuel : fuel - (7 - i) + (7 - i) = fuel := by omega
  have isFuel' : fuel - (7 - i) = fuel - (9 - i) + 1 + 1 := by omega
  rw [isLast] at isNext agrees
  rw [isFuel, isFuel'] at isNext
  refine ⟨setWord next 7 (word target 7), ?_, agrees_setWord agrees⟩
  rw [tailText, if_pos isInside, List.append_assoc, isNext, groupsLoop_last (le_refl 8) rfl,
    groupsLoop_done]

theorem agrees_zero (first second : Nat → UInt8) : Agrees 0 first second :=
  fun k isLess => absurd isLess (Nat.not_lt_zero k)

/-- The groups with a run that is left out. -/
theorem groupsLoop_run {target : Nat → UInt8} {p l : Nat} (dst : Nat → UInt8)
    (isInside : p + l ≤ 8) (isLong : 2 ≤ l)
    (zero : ∀ j, p ≤ j → j < p + l → word target j = 0) (enough : 9 ≤ fuel)
    : ∃ src result,
        groupsLoop 8 fuel 0
            (some (colonText target 0 p ++ colon :: tailText target (p + l) ++ [0])) dst
          = .done (src, result)
          ∧ Agrees 8 result target := by
  obtain ⟨next, isNext, agrees⟩ :=
    groupsLoop_colons (fuel - p) (colon :: tailText target (p + l) ++ [0]) (le_refl 8) p (by omega)
      (agrees_zero dst target)
  have isFuel : fuel - p + p = fuel := by omega
  have isFuel' : fuel - p = fuel - (p + 1) + 1 := by omega
  have filled : Agrees (p + l) (fillZeros next (8 - p) p) target := by
    rw [Nat.zero_add] at agrees
    exact agrees_fillZeros agrees zero (by omega)
  rw [isFuel, Nat.zero_add, isFuel'] at isNext
  rw [List.append_assoc, isNext, List.cons_append]
  by_cases isEnd : p + l = 8
  · refine ⟨some [0], fillZeros next (8 - p) p, ?_, isEnd ▸ filled⟩
    rw [tailText, if_neg (by omega)]
    exact groupsLoop_end (by omega)
  · obtain ⟨before, isBefore, noEnd, isCount⟩ := colonText_ends target (p + l) (7 - (p + l))
    have isWord := word_lt target 7
    have isText : colon :: (tailText target (p + l) ++ [0])
        = before ++ colon :: (groupText (word target 7) ++ 0 :: []) := by
      rw [tailText, if_pos (by omega), List.append_assoc, ← List.cons_append, isBefore,
        List.append_assoc]
      rfl
    have isMore : (tailText target (p + l) ++ [0]).head? ≠ some 0 :=
      tailText_head (by omega)
    have isPlace : 7 - before.count colon = p + l := by omega
    obtain ⟨result, isResult, whole⟩ :=
      groupsLoop_tail (fuel - (p + 1)) (by omega) filled (by omega)
    refine ⟨none, result, ?_, whole⟩
    rw [groupsLoop_skip8 isText noEnd (not_mem_group isWord rfl) (not_mem_group isWord rfl) isMore
      (by omega) (by omega), isPlace]
    exact isResult

theorem octet_cons (value : UInt8)
    : ∃ first more, octetDigits value = first :: more ∧ first ≠ 0 := by
  have noEnd : 0 ∉ octetDigits value := not_mem_octet value rfl
  cases isOctet : octetDigits value with
  | nil => exact absurd isOctet (valueOf_octet value).2
  | cons first more =>
      rw [isOctet, List.mem_cons, not_or] at noEnd
      exact ⟨first, more, rfl, Ne.symm noEnd.1⟩

theorem quadsLoop_dot {left : Nat} (value : UInt8) (isInside : i < 4)
    : quadsLoop (left + 1) i (some (octetDigits value ++ dot :: rest)) addr
        = quadsLoop left (i + 1) (some rest) (fun k => if k = 12 + i then value else addr k) := by
  have read : strtol 10 (octetDigits value ++ dot :: rest) = _ := strtol_octet value rfl
  have found : strchr dot (octetDigits value ++ dot :: rest) = _ :=
    strchr_found (not_mem_octet value rfl) (not_mem_octet value rfl)
  obtain ⟨first, more, isOctet, notEnd⟩ := octet_cons value
  rw [isOctet, List.cons_append] at read found ⊢
  have isByte : 12 + i < 16 := by omega
  simp only [quadsLoop, if_neg notEnd, read, Outcome.done_bind, put, if_pos isByte, byteOf_toNat,
    found, List.tail_cons]

theorem quadsLoop_last (value : UInt8)
    : quadsLoop 1 3 (some (octetDigits value ++ [0])) addr
        = .done (fun k => if k = 12 + 3 then value else addr k) := by
  have read : strtol 10 (octetDigits value ++ [0]) = _ := strtol_octet value rfl
  have missing : strchr dot (octetDigits value ++ [0]) = _ :=
    strchr_missing (by decide) (not_mem_octet value rfl) (not_mem_octet value rfl)
  obtain ⟨first, more, isOctet, notEnd⟩ := octet_cons value
  rw [isOctet, List.cons_append] at read missing ⊢
  have isByte : 12 + 3 < 16 := by decide
  simp only [quadsLoop, if_neg notEnd, read, Outcome.done_bind, put, if_pos isByte, byteOf_toNat,
    missing]
  rfl

/-- An IPv4 address at the end is read. -/
theorem quadsLoop_octets (target : Nat → UInt8) (agrees : Agrees 6 addr target)
    : ∃ result,
        quadsLoop 4 0 (some ((octetsText fun k => target (12 + k)).dropLast ++ [0])) addr
          = .done result
          ∧ Agrees 8 result target := by
  rw [octetsText_eq]
  simp only [List.append_assoc, List.cons_append]
  rw [quadsLoop_dot _ (by decide), quadsLoop_dot _ (by decide), quadsLoop_dot _ (by decide),
    quadsLoop_last]
  refine ⟨_, rfl, fun k isByte => ?_⟩
  by_cases isQuad : k < 12
  · have isEarlier := agrees k (by omega)
    rw [if_neg (by omega), if_neg (by omega), if_neg (by omega), if_neg (by omega), isEarlier]
  · have cases : k = 12 ∨ k = 13 ∨ k = 14 ∨ k = 15 := by omega
    rcases cases with rfl | rfl | rfl | rfl <;> rfl

/-- The groups of an address with an IPv4 address in it. -/
theorem groupsLoop_mapped {target : Nat → UInt8} {p l : Nat} {quads : List UInt8}
    (dst : Nat → UInt8) (isInside : p + l ≤ 5) (isLong : 2 ≤ l)
    (zero : ∀ j, p ≤ j → j < p + l → word target j = 0) (enough : 9 ≤ fuel)
    (noEnd : 0 ∉ quads) (noColon : colon ∉ quads)
    : ∃ result,
        groupsLoop 6 fuel 0
            (some (colonText target 0 p
              ++ colon :: (colonText target (p + l) (6 - (p + l)) ++ quads) ++ [0])) dst
          = .done (some (quads ++ [0]), result)
          ∧ Agrees 6 result target := by
  obtain ⟨next, isNext, agrees⟩ :=
    groupsLoop_colons (fuel - p) (colon :: (colonText target (p + l) (6 - (p + l)) ++ quads) ++ [0])
      (by decide : 6 ≤ 8) p (by omega) (agrees_zero dst target)
  have isFuel : fuel - p + p = fuel := by omega
  have isFuel' : fuel - p = fuel - (p + 1) + 1 := by omega
  rw [Nat.zero_add] at agrees
  rw [isFuel, Nat.zero_add, isFuel'] at isNext
  have filled : Agrees (p + l) (fillZeros next (6 - p) p) target :=
    agrees_fillZeros agrees zero (by omega)
  obtain ⟨before, isBefore, noEnd', isCount⟩ := colonText_ends target (p + l) (6 - (p + l))
  have isText : colon :: (colonText target (p + l) (6 - (p + l)) ++ quads ++ [0])
      = before ++ colon :: (quads ++ 0 :: []) := by
    rw [List.append_assoc, ← List.cons_append, isBefore, List.append_assoc]
    rfl
  have isMore : before ≠ [] := by
    rintro rfl
    rw [List.count_nil] at isCount
    omega
  obtain ⟨result, isResult, whole⟩ :=
    groupsLoop_colons (fuel - (p + 1) - (6 - (p + l))) (quads ++ [0]) (by decide : 6 ≤ 8)
      (6 - (p + l)) (by omega) filled
  have isPlace : 6 - before.count colon = p + l := by omega
  have isEnd : p + l + (6 - (p + l)) = 6 := by omega
  have isFuel'' : fuel - (p + 1) - (6 - (p + l)) + (6 - (p + l)) = fuel - (p + 1) := by omega
  obtain ⟨left, isLeft⟩ : ∃ left, fuel - (p + 1) - (6 - (p + l)) = left + 1 :=
    ⟨fuel - (p + 1) - (6 - (p + l)) - 1, by omega⟩
  rw [isFuel'', isEnd, isLeft, groupsLoop_done] at isResult
  refine ⟨result, ?_, isEnd ▸ whole⟩
  rw [List.append_assoc, isNext, List.cons_append,
    groupsLoop_skip6 isText noEnd' noEnd noColon isMore (by omega) (by omega), isPlace,
    List.append_assoc]
  exact isResult

/-- The text in front of which a colon may be ignored has the same characters. -/
theorem allowed_of_body {p : Nat} {body : List UInt8} {good : UInt8 → Prop} (isColon : good colon)
    (allowed : ∀ c ∈ body, good c)
    : ∀ c ∈ (if p = 0 then [colon] else []) ++ body, good c := by
  intro c member
  rcases List.mem_append.mp member with isFirst | isBody
  · split_ifs at isFirst
    · rw [List.mem_singleton.mp isFirst]
      exact isColon
    · cases isFirst
  · exact allowed c isBody

theorem octets_allowed6 (addr : Nat → UInt8)
    : ∀ c ∈ (octetsText addr).dropLast, isAllowed6 c = true := by
  have octet (value : UInt8) : ∀ c ∈ octetDigits value, isAllowed6 c = true := by
    intro c member
    obtain ⟨digit, isDigit, isSmall⟩ := digit_of_valueOf (valueOf_octet value).1 member
    exact isAllowed6_digit isDigit (by omega)
  rw [octetsText_eq]
  simp only [List.forall_mem_append, List.forall_mem_cons]
  exact ⟨octet _, rfl, octet _, rfl, octet _, rfl, octet _⟩

/-- An address with an IPv4 address in it is read back. -/
theorem pton6_ntop6_mapped (dst : Nat → UInt8) (isMapped : isV4Mapped addr = true)
    : ∃ result, netAddrPton6 (netAddrNtop6 addr ++ [0]) dst = .done result
        ∧ Agrees 8 result addr := by
  have longest := longest_found addr
  unfold netAddrNtop6
  generalize longestLoop addr (List.range 8) (1, none) = found at longest
  obtain ⟨l, pos⟩ := found
  obtain ⟨p, isPos, isRun, isInside, isLong⟩ := mapped_run isMapped longest
  dsimp only at isPos isRun isLong ⊢
  subst isPos
  rw [← isRun] at isInside
  have zero := (zeros_zero addr (p := p) (by omega)).2
  rw [← isRun] at zero
  have printed (fuel : Nat) (enough : 8 - (p + l) < fuel)
      : printLoop addr l (some p) true fuel (p + l) false
        = (colonText addr (p + l) (6 - (p + l)), true) := by
    refine printLoop_mapped (fun j isLater => ?_) (by omega) enough (.inr (by omega))
    rw [ne_eq, Option.some.injEq]
    omega
  let quads := (octetsText fun k => addr (12 + k)).dropLast
  have noEnd : 0 ∉ quads := not_mem_octets _ rfl (by decide)
  have noColon : colon ∉ quads := not_mem_octets _ rfl (by decide)
  have isDot : dot ∈ quads := by
    simp only [quads, octetsText_eq]
    exact List.mem_append_right _ List.mem_cons_self
  have nonempty : octetsText (fun k => addr (12 + k)) ≠ [] := by
    intro isEmpty
    simp only [quads, isEmpty] at isDot
    cases isDot
  rw [isMapped, printLoop_start (by omega) (fun _ => by omega) printed (by omega)]
  have isText : ((if p = 0 then [colon] else [])
        ++ (colonText addr 0 p ++ colon :: colonText addr (p + l) (6 - (p + l)))
        ++ octetsText fun k => addr (12 + k)).dropLast
      = (if p = 0 then [colon] else [])
        ++ (colonText addr 0 p ++ colon :: (colonText addr (p + l) (6 - (p + l)) ++ quads)) := by
    rw [List.dropLast_append_of_ne_nil nonempty]
    simp [quads]
  dsimp only
  rw [if_pos rfl, isText]
  have allowed : ∀ c ∈ colonText addr 0 p
      ++ colon :: (colonText addr (p + l) (6 - (p + l)) ++ quads), isAllowed6 c = true := by
    simp only [List.forall_mem_append, List.forall_mem_cons]
    exact ⟨fun c member => (allowed_of_chars (colonText_chars member)).1, rfl,
      fun c member => (allowed_of_chars (colonText_chars member)).1, octets_allowed6 _⟩
  obtain ⟨middle, isMiddle, agrees⟩ := groupsLoop_mapped dst isInside isLong zero
    (Nat.le_add_left 9 _) noEnd noColon
  obtain ⟨result, isResult, whole⟩ := quadsLoop_octets addr agrees
  refine ⟨result, ?_, whole⟩
  exact pton6_mapped (allowed_of_body rfl allowed)
    (List.mem_append_right _ (List.mem_append_right _ (List.mem_cons_of_mem _
      (List.mem_append_right _ isDot))))
    (skipColon_text addr p _) allowed isMiddle isResult

/-- Any other address is read back. -/
theorem pton6_ntop6_groups (dst : Nat → UInt8) (notMapped : isV4Mapped addr = false)
    : ∃ result, netAddrPton6 (netAddrNtop6 addr ++ [0]) dst = .done result
        ∧ Agrees 8 result addr := by
  have longest := longest_found addr
  unfold netAddrNtop6
  generalize longestLoop addr (List.range 8) (1, none) = found at longest
  obtain ⟨l, pos⟩ := found
  dsimp only
  rw [notMapped]
  rcases longest.isRun with ⟨isPos, isOne⟩ | ⟨p, isGroup, isPos, isRun, isLong⟩
  · dsimp only at isPos
    subst isPos
    rw [printLoop_tail (by simp) (by decide) (by decide)]
    have allowed : ∀ c ∈ tailText addr 0, isAllowed6 c = true ∧ c ≠ dot :=
      fun c member => allowed_of_chars (tailText_chars member)
    obtain ⟨result, isResult, whole⟩ := groupsLoop_tail ((tailText addr 0 ++ [0]).length + 9)
      (by decide) (agrees_zero dst addr) (Nat.le_add_left 9 _)
    refine ⟨result, ?_, whole⟩
    have isBody : skipColon (tailText addr 0 ++ [0]) = tailText addr 0 ++ [0] := by
      obtain ⟨first, more, isFirst, _, notColon⟩ := group_cons (word_lt addr 0)
      simp [tailText, colonText, isFirst, skipColon, notColon]
    exact pton6_groups allowed isBody (fun c member => (allowed c member).1) isResult
  · dsimp only at isPos isRun isLong
    subst isPos
    obtain ⟨isInside, zero⟩ := zeros_zero addr isGroup.le
    rw [← isRun] at isInside zero
    have printed (fuel : Nat) (enough : 8 - (p + l) < fuel)
        : printLoop addr l (some p) false fuel (p + l) false = (tailText addr (p + l), false) := by
      rw [printLoop_tail (fun j isLater => by rw [ne_eq, Option.some.injEq]; omega) isInside enough]
      simp only [Bool.false_eq_true, if_false, List.nil_append, tailText]
      split_ifs <;> rfl
    rw [printLoop_start isGroup (fun isTrue => by cases isTrue) printed (by omega)]
    have chars : ∀ c ∈ tailText addr (p + l), isAllowed6 c = true ∧ c ≠ dot :=
      fun c member => allowed_of_chars (tailText_chars member)
    have allowed : ∀ c ∈ colonText addr 0 p ++ colon :: tailText addr (p + l),
        isAllowed6 c = true ∧ c ≠ dot := by
      simp only [List.forall_mem_append, List.forall_mem_cons]
      exact ⟨fun c member => allowed_of_chars (colonText_chars member), by decide, chars⟩
    obtain ⟨src, result, isResult, whole⟩ := groupsLoop_run dst isInside isLong zero
      (Nat.le_add_left 9 (colonText addr 0 p ++ colon :: tailText addr (p + l) ++ [0]).length)
    refine ⟨result, ?_, whole⟩
    exact pton6_groups (allowed_of_body (by decide) allowed) (skipColon_text addr p _)
      (fun c member => (allowed c member).1) isResult

/-- **Addresses are read back from their texts.** The text that `net_addr_ntop` writes for an
address is parsed by `net_addr_pton` to the same address, whatever was stored there before.
-/
theorem text_read_back (addr dst : Nat → UInt8)
    : (∃ result, netAddrPton4 (netAddrNtop4 addr ++ [0]) dst = .done result
          ∧ ∀ k < 4, result k = addr k)
        ∧ ∃ result, netAddrPton6 (netAddrNtop6 addr ++ [0]) dst = .done result
          ∧ ∀ k < 16, result k = addr k := by
  refine ⟨pton4_ntop4 addr dst, ?_⟩
  cases isMapped : isV4Mapped addr with
  | false => exact pton6_ntop6_groups dst isMapped
  | true => exact pton6_ntop6_mapped dst isMapped

end Zephyr.Net.Address
