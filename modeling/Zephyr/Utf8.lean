import Mathlib

/-! Copying and cutting strings of UTF-8 characters, of `lib/utils/utf8.c`. -/

namespace Zephyr.Utf8

/-! ### The functions -/

def asciiChar : UInt8 := 0x7F
def sequenceFirstMask : UInt8 := 0xC0
def sequenceLen2Byte : UInt8 := 0xC0
def sequenceLen3Byte : UInt8 := 0xE0
def sequenceLen4Byte : UInt8 := 0xF0

/-- The bytes around a destination, by their offset from it, and the offsets of those that were
read or written.
-/
structure Memory where
  bytes : Int → UInt8
  touched : List Int := []

def Memory.touch (memory : Memory) (offsets : List Int) : Memory :=
  { memory with touched := memory.touched ++ offsets }

def Memory.store (memory : Memory) (offset : Int) (byte : UInt8) : Memory :=
  { bytes := Function.update memory.bytes offset byte, touched := memory.touched ++ [offset] }

/-- `strlen`, looking at no more than `limit` bytes. -/
def strlen (bytes : Int → UInt8) : (limit start : Nat) → Nat
  | 0, start => start
  | limit + 1, start => if bytes start = 0 then start else strlen bytes limit (start + 1)

/-- The loop of `utf8_trunc` from `last_byte_p` down, with `bytes_truncated`. -/
def scanBack (bytes : Int → UInt8) : Nat → UInt8 → Nat × UInt8
  | 0, truncated => (0, truncated)
  | last + 1, truncated =>
      if bytes (last + 1 : Nat) &&& sequenceFirstMask ≠ sequenceFirstMask then
        scanBack bytes last (truncated + 1)
      else (last + 1, truncated)

/-- Whether the sequence has as many bytes as its first one asks for. -/
def isComplete (seqStartByte truncated : UInt8) : Bool :=
  if seqStartByte &&& sequenceLen4Byte = sequenceLen4Byte then truncated = 4
  else if seqStartByte &&& sequenceLen3Byte = sequenceLen3Byte then truncated = 3
  else if seqStartByte &&& sequenceLen2Byte = sequenceLen2Byte then truncated = 2
  else false

def offsetsFrom (start : Int) (count : Nat) : List Int :=
  (List.range count).map (fun i : Nat => start + i)

/-- `utf8_trunc` of the string at the destination. -/
def utf8Trunc (memory : Memory) (limit : Nat) : Memory :=
  let len := strlen memory.bytes limit 0
  let lastByte : Int := len - 1
  let memory := memory.touch (offsetsFrom 0 (len + 1) ++ [lastByte])
  if memory.bytes lastByte &&& asciiChar = memory.bytes lastByte then memory
  else
    -- the byte in front of an empty string is not above its beginning, so the loop ends at once
    let found : Int × UInt8 :=
      match len with
      | 0 => (lastByte, 0)
      | last + 1 => ((scanBack memory.bytes last 0).1, (scanBack memory.bytes last 0).2)
    let memory := memory.touch (offsetsFrom found.1 (lastByte - found.1 + 1).toNat)
    if isComplete (memory.bytes found.1) (found.2 + 1) then memory
    else memory.store found.1 0

/-- `strncpy` of a string without its terminator; the second component lists the bytes of the
source that it reads.
-/
def strncpy (memory : Memory) (source : List UInt8) (n : Nat) : Memory × List Nat :=
  ({ bytes := fun offset =>
        if 0 ≤ offset ∧ offset < n then source.getD offset.toNat 0 else memory.bytes offset
     touched := memory.touched ++ offsetsFrom 0 n },
    List.range (min n (source.length + 1)))

def utf8Lcpy (memory : Memory) (source : List UInt8) (n : Nat) : Memory × List Nat :=
  if 0 < n then
    let copied := strncpy memory source (n - 1)
    let memory := copied.1.store (n - 1 : Nat) 0
    (if n ≠ 1 then utf8Trunc memory n else memory, copied.2)
  else (memory, [])

/-! ### Sequences -/

/-- The first byte of a sequence that has `count` more. -/
def Leads (count : Nat) (first : UInt8) : Prop :=
  first &&& asciiChar ≠ first
  ∧ first &&& sequenceFirstMask = sequenceFirstMask
  ∧ ∀ seen < count + 1, isComplete first (UInt8.ofNat seen + 1) = decide (seen = count)

instance Leads.decidable (count : Nat) (first : UInt8) : Decidable (Leads count first) :=
  inferInstanceAs (Decidable (_ ∧ _ ∧ _))

/-- The bytes of a character other than the terminator. -/
inductive IsSequence : List UInt8 → Prop where
  | ascii {byte : UInt8} (nonzero : byte ≠ 0) (small : byte &&& asciiChar = byte)
    : IsSequence [byte]
  | long {first : UInt8} {rest : List UInt8} (leads : Leads rest.length first)
      (continues : ∀ byte ∈ rest, byte &&& sequenceFirstMask = 0x80)
    : IsSequence (first :: rest)

theorem continues_ofNat (value : Nat)
    : UInt8.ofNat (value % 64 + 128) &&& sequenceFirstMask = 0x80 := by
  have all : ∀ low < 64, UInt8.ofNat (low + 128) &&& sequenceFirstMask = 0x80 := by decide
  exact all _ (Nat.mod_lt _ (by decide))

theorem not_ascii_of_continues {byte : UInt8} (continues : byte &&& sequenceFirstMask = 0x80)
    : byte &&& asciiChar ≠ byte := by
  have all : ∀ value < 256, UInt8.ofNat value &&& sequenceFirstMask = 0x80
      → UInt8.ofNat value &&& asciiChar ≠ UInt8.ofNat value := by
    decide +kernel
  have here := all byte.toNat byte.toNat_lt
  rw [UInt8.ofNat_toNat] at here
  exact here continues

theorem IsSequence.long_of {first : UInt8} {rest : List UInt8}
    (isSequence : IsSequence (first :: rest)) (some : rest ≠ [])
    : Leads rest.length first ∧ ∀ byte ∈ rest, byte &&& sequenceFirstMask = 0x80 := by
  cases isSequence with
  | ascii => exact absurd rfl some
  | long leads continues => exact ⟨leads, continues⟩

theorem isSequence_utf8EncodeChar {char : Char} (real : char ≠ '\x00')
    : IsSequence (String.utf8EncodeChar char) := by
  simp only [String.utf8EncodeChar]
  generalize isValue : char.val.toNat = value
  split
  · have nonzero : value ≠ 0 := by
      rintro rfl
      exact real (Char.ext (UInt32.toNat_inj.mp isValue))
    have byte : ∀ value < 128, value ≠ 0
        → UInt8.ofNat value ≠ 0 ∧ UInt8.ofNat value &&& asciiChar = UInt8.ofNat value := by
      decide
    obtain ⟨isByte, isAscii⟩ := byte value (by omega) nonzero
    exact .ascii isByte isAscii
  split
  · have leads : ∀ high < 32, Leads 1 (UInt8.ofNat (high + 192)) := by decide
    refine .long (leads _ (Nat.mod_lt _ (by decide))) ?_
    simp only [List.forall_mem_cons, continues_ofNat, List.not_mem_nil, true_and, false_imp_iff,
      implies_true]
  split
  · have leads : ∀ high < 16, Leads 2 (UInt8.ofNat (high + 224)) := by decide
    refine .long (leads _ (Nat.mod_lt _ (by decide))) ?_
    simp only [List.forall_mem_cons, continues_ofNat, List.not_mem_nil, true_and, false_imp_iff,
      implies_true]
  · have leads : ∀ high < 8, Leads 3 (UInt8.ofNat (high + 240)) := by decide
    refine .long (leads _ (Nat.mod_lt _ (by decide))) ?_
    simp only [List.forall_mem_cons, continues_ofNat, List.not_mem_nil, true_and, false_imp_iff,
      implies_true]

/-! ### The end of a string -/

variable {bytes : Int → UInt8} {front string : List UInt8}

/-- A terminated string at the destination. -/
structure Holds (bytes : Int → UInt8) (string : List UInt8) : Prop where
  at_lt : ∀ i < string.length, bytes i = string.getD i 0
  nonzero : ∀ byte ∈ string, byte ≠ 0
  ended : bytes string.length = 0

theorem Holds.strlen_eq (holds : Holds bytes string) (limit : Nat)
    (enough : string.length < limit)
    : strlen bytes limit 0 = string.length := by
  suffices walks : ∀ limit start, start ≤ string.length → string.length < start + limit
      → strlen bytes limit start = string.length from walks limit 0 (Nat.zero_le _) (by omega)
  intro limit
  induction limit with
  | zero => intro start _ _; omega
  | succ limit ih =>
      intro start within reach
      rw [strlen]
      by_cases atEnd : start = string.length
      · rw [atEnd, if_pos holds.ended]
      · have less : start < string.length := by omega
        have some : bytes start ≠ 0 := by
          rw [holds.at_lt start less, List.getD_eq_getElem _ _ less]
          exact holds.nonzero _ (List.getElem_mem less)
        rw [if_neg some, ih (start + 1) less (by omega)]

theorem scanBack_eq {first : UInt8} {seen : List UInt8}
    (at_lt : ∀ i < (front ++ first :: seen).length, bytes i = (front ++ first :: seen).getD i 0)
    (isFirst : first &&& sequenceFirstMask = sequenceFirstMask)
    (continues : ∀ byte ∈ seen, byte &&& sequenceFirstMask = 0x80)
    : scanBack bytes (front.length + seen.length) 0 = (front.length, UInt8.ofNat seen.length) := by
  have atFirst : bytes front.length = first := by
    rw [at_lt _ (by simp)]
    simp
  have behind (i : Nat) (less : i < seen.length)
      : bytes (front.length + i + 1 : Nat) &&& sequenceFirstMask = 0x80 := by
    rw [at_lt _ (by simp; omega)]
    have there : (front ++ first :: seen).getD (front.length + i + 1) 0 = seen[i] := by
      simp [Nat.add_assoc, less]
    rw [there]
    exact continues _ (List.getElem_mem less)
  suffices walks : ∀ count ≤ seen.length, ∀ truncated,
      scanBack bytes (front.length + count) truncated
        = (front.length, truncated + UInt8.ofNat count) by
    simpa using walks seen.length (Nat.le_refl _) 0
  intro count
  induction count with
  | zero =>
      intro _ truncated
      cases isStart : front.length with
      | zero => simp [scanBack]
      | succ last =>
          rw [isStart] at atFirst
          rw [Nat.add_zero, scanBack, atFirst, if_neg (not_not.mpr isFirst)]
          simp
  | succ count ih =>
      intro within truncated
      have differs : bytes (front.length + count + 1 : Nat) &&& sequenceFirstMask
          ≠ sequenceFirstMask := by
        rw [behind count within]
        decide
      rw [← Nat.add_assoc, scanBack, if_pos differs, ih (by omega)]
      rw [UInt8.ofNat_add, UInt8.add_assoc, UInt8.add_comm 1]
      rfl

theorem mem_offsetsFrom {start offset : Int} {count : Nat}
    : offset ∈ offsetsFrom start count ↔ start ≤ offset ∧ offset < start + count := by
  simp only [offsetsFrom, List.mem_map, List.mem_range]
  constructor
  · rintro ⟨i, less, rfl⟩
    omega
  · rintro ⟨low, high⟩
    exact ⟨(offset - start).toNat, by omega, by omega⟩

/-- The offsets that `utf8_trunc` adds to those touched before. -/
def Memory.Reaches (memory after : Memory) (n : Nat) : Prop :=
  ∀ offset ∈ after.touched, offset ∈ memory.touched ∨ 0 ≤ offset ∧ offset < n

theorem utf8Trunc_ascii {memory : Memory} {byte : UInt8}
    (holds : Holds memory.bytes (front ++ [byte])) (small : byte &&& asciiChar = byte)
    (limit : Nat) (enough : front.length + 1 < limit)
    : (utf8Trunc memory limit).bytes = memory.bytes
      ∧ memory.Reaches (utf8Trunc memory limit) limit := by
  have len : strlen memory.bytes limit 0 = front.length + 1 := by
    rw [holds.strlen_eq _ (by simpa using enough), List.length_append, List.length_singleton]
  have last : memory.bytes ((front.length + 1 : Nat) - 1 : Int) = byte := by
    have there := holds.at_lt front.length (by simp)
    simpa using there
  simp only [utf8Trunc, len, Memory.touch, last, small, if_true]
  refine ⟨trivial, ?_⟩
  intro offset member
  simp only [List.mem_append, mem_offsetsFrom, List.mem_singleton] at member
  rcases member with before | within | rfl
  · exact .inl before
  · exact .inr (by omega)
  · exact .inr (by omega)

/-- A string whose last character is a long sequence loses what there is of it, unless that is
complete.
-/
theorem utf8Trunc_long {memory : Memory} {first : UInt8} {seen : List UInt8} {count : Nat}
    (holds : Holds memory.bytes (front ++ first :: seen)) (leads : Leads count first)
    (continues : ∀ byte ∈ seen, byte &&& sequenceFirstMask = 0x80) (some : seen.length ≤ count)
    (limit : Nat) (enough : front.length + seen.length + 1 < limit)
    : (utf8Trunc memory limit).bytes
        = (if seen.length = count then memory.bytes
          else Function.update memory.bytes front.length 0)
      ∧ memory.Reaches (utf8Trunc memory limit) limit := by
  obtain ⟨isLong, isFirst, complete⟩ := leads
  have len : strlen memory.bytes limit 0 = front.length + seen.length + 1 := by
    rw [holds.strlen_eq _ (by simp; omega), List.length_append, List.length_cons, Nat.add_assoc]
  have atFirst : memory.bytes front.length = first := by
    simpa using holds.at_lt front.length (by simp)
  have notAscii : memory.bytes ((front.length + seen.length + 1 : Nat) - 1 : Int) &&& asciiChar
      ≠ memory.bytes ((front.length + seen.length + 1 : Nat) - 1 : Int) := by
    have last : ((front.length + seen.length + 1 : Nat) - 1 : Int)
        = (front.length + seen.length : Nat) := by omega
    rw [last, holds.at_lt _ (by simp)]
    rcases List.eq_nil_or_concat' seen with rfl | ⟨before, byte, rfl⟩
    · simpa using isLong
    · have isByte : (front ++ first :: (before ++ [byte])).getD
          (front.length + (before ++ [byte]).length) 0 = byte := by
        simp
      rw [isByte]
      exact not_ascii_of_continues (continues byte (by simp))
  have scanned := scanBack_eq holds.at_lt isFirst continues
  have done := complete seen.length (by omega)
  simp only [utf8Trunc, len, Memory.touch, if_neg notAscii, scanned, atFirst, done,
    decide_eq_true_eq]
  have reached (offset : Int)
      (member : offset ∈ memory.touched
        ++ (offsetsFrom 0 (front.length + seen.length + 1 + 1)
          ++ [((front.length + seen.length + 1 : Nat) - 1 : Int)])
        ++ offsetsFrom front.length
          (((front.length + seen.length + 1 : Nat) - 1 : Int) - front.length + 1).toNat)
      : offset ∈ memory.touched ∨ 0 ≤ offset ∧ offset < limit := by
    simp only [List.mem_append, mem_offsetsFrom, List.mem_singleton] at member
    rcases member with (before | within | rfl) | within
    · exact .inl before
    · exact .inr (by omega)
    · exact .inr (by omega)
    · exact .inr (by omega)
  split
  · rename_i isComplete
    exact ⟨rfl, reached⟩
  · rename_i partly
    refine ⟨rfl, fun offset member => ?_⟩
    rcases List.mem_append.mp member with before | here
    · exact reached offset before
    · rw [List.mem_singleton.mp here]
      exact .inr (by omega)

theorem utf8Trunc_empty {memory : Memory} {limit : Nat}
    (empty : strlen memory.bytes limit 0 = 0)
    : -1 ∈ (utf8Trunc memory limit).touched := by
  simp only [utf8Trunc, empty, Memory.touch, Memory.store]
  by_cases ascii : memory.bytes ((0 : Nat) - 1 : Int) &&& asciiChar
      = memory.bytes ((0 : Nat) - 1 : Int)
  · rw [if_pos ascii]
    simp
  · rw [if_neg ascii]
    split
    · simp
    · simp

/-! ### Copying -/

/-- The bytes of a string of characters. -/
def encode (chars : List Char) : List UInt8 :=
  chars.flatMap String.utf8EncodeChar

theorem encode_append (first second : List Char)
    : encode (first ++ second) = encode first ++ encode second :=
  List.flatMap_append

theorem IsSequence.nonzero {sequence : List UInt8} (isSequence : IsSequence sequence)
    : ∀ byte ∈ sequence, byte ≠ 0 := by
  cases isSequence with
  | ascii nonzero small => simpa using nonzero
  | long leads continues =>
      intro byte member
      rcases List.mem_cons.mp member with rfl | behind
      · rintro rfl
        exact leads.1 (by decide)
      · rintro rfl
        exact absurd (continues 0 behind) (by decide)

/-- The whole characters of the first `room` bytes, and what there is of the next one. -/
structure Cut (chars : List Char) (room : Nat) (kept : List Char) (part : List UInt8) : Prop where
  isPart : kept <+: chars
  take_eq : (encode chars).take room = encode kept ++ part
  partly
    : part ≠ []
      → ∃ char ∈ chars,
          part <+: String.utf8EncodeChar char ∧ part.length < (String.utf8EncodeChar char).length
  longest
    : ∀ longer, longer <+: chars → (encode longer).length ≤ room → longer.length ≤ kept.length

theorem exists_cut (chars : List Char) (room : Nat) : ∃ kept part, Cut chars room kept part := by
  induction chars generalizing room with
  | nil =>
      refine ⟨[], [], List.prefix_rfl, by simp [encode], fun some => absurd rfl some, ?_⟩
      intro longer isPart _
      rw [List.prefix_nil.mp isPart]
  | cons char rest ih =>
      have whole : encode (char :: rest) = String.utf8EncodeChar char ++ encode rest :=
        List.flatMap_cons
      by_cases fits : (String.utf8EncodeChar char).length ≤ room
      · obtain ⟨kept, part, cut⟩ := ih (room - (String.utf8EncodeChar char).length)
        refine ⟨char :: kept, part, (List.prefix_cons_inj char).mpr cut.isPart, ?_, ?_, ?_⟩
        · rw [whole, List.take_append, List.take_of_length_le fits, cut.take_eq,
            ← List.append_assoc]
          rfl
        · intro some
          obtain ⟨next, member, found⟩ := cut.partly some
          exact ⟨next, List.mem_cons_of_mem _ member, found⟩
        · intro longer isPart small
          cases longer with
          | nil => exact Nat.zero_le _
          | cons first longer =>
              obtain ⟨rfl, isRest⟩ := List.cons_prefix_cons.mp isPart
              have split : encode (first :: longer)
                  = String.utf8EncodeChar first ++ encode longer := List.flatMap_cons
              rw [split, List.length_append] at small
              exact Nat.succ_le_succ (cut.longest longer isRest (by omega))
      · refine ⟨[], (String.utf8EncodeChar char).take room, List.nil_prefix, ?_, ?_, ?_⟩
        · rw [whole, List.take_append_of_le_length (by omega)]
          rfl
        · intro _
          refine ⟨char, List.mem_cons_self, List.take_prefix .., ?_⟩
          rw [List.length_take]
          omega
        · intro longer isPart small
          cases longer with
          | nil => exact Nat.le_refl _
          | cons first longer =>
              obtain ⟨rfl, -⟩ := List.cons_prefix_cons.mp isPart
              have split : encode (first :: longer)
                  = String.utf8EncodeChar first ++ encode longer := List.flatMap_cons
              rw [split, List.length_append] at small
              omega

/-- The destination has the longest string of whole characters that fits in `n - 1` bytes. -/
def Copied (chars : List Char) (n : Nat) (bytes : Int → UInt8) : Prop :=
  ∃ kept,
    kept <+: chars
    ∧ (encode kept).length ≤ n - 1
    ∧ (∀ longer, longer <+: chars → (encode longer).length ≤ n - 1 → longer.length ≤ kept.length)
    ∧ (∀ i < (encode kept).length, bytes i = (encode kept).getD i 0)
    ∧ bytes (encode kept).length = 0

/-- Only bytes of the destination and of the terminated source are read or written. -/
def Confined (chars : List Char) (n : Nat) (result : Memory × List Nat) : Prop :=
  (∀ offset ∈ result.1.touched, 0 ≤ offset ∧ offset < n)
  ∧ ∀ place ∈ result.2, place ≤ (encode chars).length

/-- What `strncpy` and the terminator leave at the destination. -/
theorem holds_copied {chars : List Char} (real : ∀ char ∈ chars, char ≠ '\x00') (memory : Memory)
    {n : Nat} (positive : 0 < n)
    : Holds ((strncpy memory (encode chars) (n - 1)).1.store (n - 1 : Nat) 0).bytes
        ((encode chars).take (n - 1)) := by
  have nonzero : ∀ byte ∈ encode chars, byte ≠ 0 := by
    intro byte member
    obtain ⟨char, isChar, inChar⟩ := List.mem_flatMap.mp member
    exact (isSequence_utf8EncodeChar (real char isChar)).nonzero byte inChar
  have length : ((encode chars).take (n - 1)).length = min (n - 1) (encode chars).length :=
    List.length_take
  refine ⟨?_, fun byte member => nonzero byte (List.mem_of_mem_take member), ?_⟩
  · intro i less
    have apart : (i : Int) ≠ (n - 1 : Nat) := by omega
    simp only [Memory.store, strncpy, Function.update_of_ne apart]
    rw [if_pos (by omega), Int.toNat_natCast, List.getD_eq_getElem _ _ (by omega),
      List.getD_eq_getElem _ _ less, List.getElem_take]
  · by_cases cut : n - 1 ≤ (encode chars).length
    · rw [length, Nat.min_eq_left cut]
      exact Function.update_self ..
    · rw [length, Nat.min_eq_right (by omega)]
      have apart : ((encode chars).length : Int) ≠ (n - 1 : Nat) := by omega
      simp only [Memory.store, strncpy, Function.update_of_ne apart]
      rw [if_pos (by omega), Int.toNat_natCast, List.getD_eq_default _ _ (Nat.le_refl _)]

theorem utf8Trunc_cut {chars kept : List Char} {part : List UInt8} {memory : Memory} {n : Nat}
    (real : ∀ char ∈ chars, char ≠ '\x00') (cut : Cut chars (n - 1) kept part)
    (some : encode kept ++ part ≠ []) (holds : Holds memory.bytes (encode kept ++ part))
    (positive : 0 < n)
    : (∀ i < (encode kept).length, (utf8Trunc memory n).bytes i = (encode kept).getD i 0)
      ∧ (utf8Trunc memory n).bytes (encode kept).length = 0
      ∧ memory.Reaches (utf8Trunc memory n) n := by
  have within : (encode kept ++ part).length ≤ n - 1 := by
    rw [← cut.take_eq, List.length_take]
    exact Nat.min_le_left ..
  have front (i : Nat) (less : i < (encode kept).length)
      : memory.bytes i = (encode kept).getD i 0 := by
    rw [holds.at_lt i (by simp; omega), List.getD_append _ _ _ _ less]
  cases part with
  | cons first seen =>
      obtain ⟨char, isChar, ⟨more, isMore⟩, less⟩ := cut.partly (by simp)
      have sequence := isSequence_utf8EncodeChar (real char isChar)
      rw [← isMore, List.cons_append] at sequence less
      have partly : seen.length < (seen ++ more).length := Nat.lt_of_succ_lt_succ less
      obtain ⟨leads, continues⟩ := sequence.long_of (List.ne_nil_of_length_pos (by omega))
      obtain ⟨bytes, reaches⟩ := utf8Trunc_long holds leads
        (fun byte member => continues byte (List.mem_append_left _ member)) partly.le n
        (by simp at within; omega)
      rw [bytes, if_neg partly.ne]
      refine ⟨fun i less => ?_, Function.update_self .., reaches⟩
      rw [Function.update_of_ne (by omega), front i less]
  | nil =>
      rw [List.append_nil] at some holds within
      rcases List.eq_nil_or_concat' kept with rfl | ⟨before, char, rfl⟩
      · exact absurd rfl some
      · have isChar : char ∈ chars := cut.isPart.subset (by simp)
        have sequence := isSequence_utf8EncodeChar (real char isChar)
        have split : encode (before ++ [char]) = encode before ++ String.utf8EncodeChar char := by
          rw [encode_append]
          simp [encode]
        have ended := holds.ended
        suffices same : (utf8Trunc memory n).bytes = memory.bytes
            ∧ memory.Reaches (utf8Trunc memory n) n by
          rw [same.1]
          exact ⟨front, ended, same.2⟩
        rw [split] at holds within
        generalize String.utf8EncodeChar char = bytes at sequence holds within
        cases sequence with
        | ascii nonzero small => exact utf8Trunc_ascii holds small n (by simp at within; omega)
        | long leads continues =>
            obtain ⟨same, reaches⟩ := utf8Trunc_long holds leads continues (Nat.le_refl _) n
              (by simp at within; omega)
            exact ⟨same.trans (if_pos rfl), reaches⟩

/-- A copy of a real string is the longest that fits, and stays inside both buffers, unless the
string is empty and the destination has room for more than its terminator.
-/
theorem utf8Lcpy_copies_iff {chars : List Char} (real : ∀ char ∈ chars, char ≠ '\x00')
    {n : Nat} (positive : 1 ≤ n) (bytes : Int → UInt8)
    : Copied chars n (utf8Lcpy { bytes := bytes } (encode chars) n).1.bytes
        ∧ Confined chars n (utf8Lcpy { bytes := bytes } (encode chars) n)
      ↔ chars ≠ [] ∨ n = 1 := by
  have holds := holds_copied real { bytes := bytes } positive
  obtain ⟨kept, part, cut⟩ := exists_cut chars (n - 1)
  have fits : (encode kept).length ≤ n - 1 := by
    have cutLe := congrArg List.length cut.take_eq
    rw [List.length_take, List.length_append] at cutLe
    omega
  have copiedTouched (offset : Int)
      (member : offset ∈ ((strncpy { bytes := bytes } (encode chars) (n - 1)).1.store
        (n - 1 : Nat) 0).touched)
      : 0 ≤ offset ∧ offset < n := by
    simp only [Memory.store, strncpy, List.nil_append, List.mem_append, mem_offsetsFrom,
      List.mem_singleton] at member
    omega
  have fetched : ∀ place ∈ (strncpy { bytes := bytes } (encode chars) (n - 1)).2,
      place ≤ (encode chars).length := by
    intro place member
    have less := List.mem_range.mp member
    omega
  rw [utf8Lcpy, if_pos (Nat.pos_of_ne_zero (by omega))]
  dsimp only
  constructor
  · rintro ⟨-, touched, -⟩
    by_contra excluded
    rw [not_or, not_not] at excluded
    obtain ⟨rfl, more⟩ := excluded
    rw [if_pos more] at touched
    have empty := holds.strlen_eq n (by simp [encode]; omega)
    have before := (touched _ (utf8Trunc_empty (empty.trans (by simp [encode])))).1
    omega
  · intro condition
    by_cases single : n = 1
    · subst single
      rw [if_neg (not_not.mpr rfl)]
      have nothing : encode kept = [] := List.eq_nil_of_length_eq_zero (by omega)
      refine ⟨⟨kept, cut.isPart, fits, cut.longest, ?_, ?_⟩, copiedTouched, fetched⟩
      · simp [nothing]
      · rw [nothing]
        exact holds.ended
    · rw [if_pos single]
      have some : encode kept ++ part ≠ [] := by
        rw [← cut.take_eq]
        obtain ⟨char, rest, rfl⟩ := List.exists_cons_of_ne_nil (condition.resolve_right single)
        have whole : encode (char :: rest) = String.utf8EncodeChar char ++ encode rest :=
          List.flatMap_cons
        have sized := List.length_pos_iff.mpr (String.utf8EncodeChar_ne_nil (c := char))
        refine List.ne_nil_of_length_pos ?_
        rw [List.length_take, whole, List.length_append]
        omega
      rw [cut.take_eq] at holds
      obtain ⟨front, ended, reaches⟩ := utf8Trunc_cut real cut some holds positive
      refine ⟨⟨kept, cut.isPart, fits, cut.longest, front, ended⟩, ?_, fetched⟩
      intro offset member
      rcases reaches offset member with before | inside
      · exact copiedTouched offset before
      · exact inside

/-- A destination right behind the first byte of some other character. -/
def besideChar : Memory :=
  { bytes := fun offset => if offset = -1 then 0xC3 else 0x41 }

/-- Copying an empty string to it clears that byte. -/
theorem empty_copy_clears_byte_before
    : (utf8Lcpy besideChar (encode []) 2).1.bytes (-1) ≠ besideChar.bytes (-1)
      ∧ ¬Confined [] 2 (utf8Lcpy besideChar (encode []) 2) := by
  refine ⟨by decide, fun confined => ?_⟩
  exact absurd (confined.1 (-1) (by decide)) (by decide)

/-- Two characters of two bytes each, of which three bytes are room for one. -/
theorem short_copy_keeps_first
    : Copied ['é', 'ü'] 4 (utf8Lcpy { bytes := fun _ => 0x41 } (encode ['é', 'ü']) 4).1.bytes
      ∧ Confined ['é', 'ü'] 4 (utf8Lcpy { bytes := fun _ => 0x41 } (encode ['é', 'ü']) 4) :=
  (utf8Lcpy_copies_iff (by simp) (by decide) _).mpr (.inl (by simp))

end Zephyr.Utf8
