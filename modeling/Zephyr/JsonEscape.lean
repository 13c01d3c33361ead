import Mathlib

/-! `json_escape`: the characters of a string are escaped in place, from its end to its beginning.

The memory is a function of the offset from the string; an offset may be negative or behind the
buffer. Sizes are `size_t` with 32 bits.
-/

namespace Zephyr.JsonEscape

/-- `escape_as` -/
def escapeAs (chr : UInt8) : UInt8 :=
  if chr = 34 then 34
  else if chr = 92 then 92
  else if chr = 8 then 98
  else if chr = 12 then 102
  else if chr = 10 then 110
  else if chr = 13 then 114
  else if chr = 9 then 116
  else 0

/-- The loop of `json_calc_escaped_len` -/
def calcLoop (str : Int → UInt8) : Nat → Nat → Nat → Nat
  | 0, _, escapedLen => escapedLen
  | left + 1, pos, escapedLen =>
      calcLoop str left (pos + 1)
        (if escapeAs (str pos) ≠ 0 then (escapedLen + 1) % 2 ^ 32 else escapedLen)

/-- `json_calc_escaped_len` -/
def jsonCalcEscapedLen (str : Int → UInt8) (len : Nat) : Nat :=
  calcLoop str len 0 len

/-- The loop of `json_escape`, with the distances of `next` and `dest` from the string -/
def escapeLoop (str : Int → UInt8) : Nat → Int → (Int → UInt8)
  | 0, _ => str
  | next + 1, dest =>
      let nextC := str next
      let escape := escapeAs nextC
      if escape ≠ 0 then
        escapeLoop (Function.update (Function.update str (dest - 1) escape) (dest - 2) 92) next
          (dest - 2)
      else escapeLoop (Function.update str (dest - 1) nextC) next (dest - 1)

inductive Result where
  | success
  | enomem
  deriving DecidableEq, Repr

/-- `json_escape`: what it returns, the memory and the length -/
def jsonEscape (str : Int → UInt8) (len bufSize : Nat) : Result × (Int → UInt8) × Nat :=
  let escapedLen := jsonCalcEscapedLen str len
  if escapedLen = len then (.success, str, len)
  else if bufSize ≤ escapedLen then (.enomem, str, len)
  else (.success, escapeLoop (Function.update str escapedLen 0) len escapedLen, escapedLen)

-----------------------------------------------------------------------------------------
-- The escaped text
-----------------------------------------------------------------------------------------

def escapeChar (chr : UInt8) : List UInt8 :=
  if escapeAs chr ≠ 0 then [92, escapeAs chr] else [chr]

/-- The first characters of a string. -/
def text (str : Int → UInt8) (len : Nat) : List UInt8 :=
  (List.range len).map fun pos : Nat => str pos

/-- The concatenation of the escapes of the first characters. -/
def escaped (str : Int → UInt8) (len : Nat) : List UInt8 :=
  (text str len).flatMap escapeChar

variable {str : Int → UInt8} {len : Nat}

theorem text_succ (str : Int → UInt8) (len : Nat)
    : text str (len + 1) = text str len ++ [str len] := by
  simp [text, List.range_succ]

theorem escaped_succ (str : Int → UInt8) (len : Nat)
    : escaped str (len + 1) = escaped str len ++ escapeChar (str len) := by
  simp [escaped, text_succ, List.flatMap_append]

theorem escaped_congr {str' : Int → UInt8} (same : ∀ pos : Nat, pos < len → str' pos = str pos)
    : escaped str' len = escaped str len := by
  have texts : text str' len = text str len :=
    List.map_congr_left fun pos member => same pos (List.mem_range.mp member)
  rw [escaped, texts, escaped]

theorem length_le_escaped (str : Int → UInt8) (len : Nat) : len ≤ (escaped str len).length := by
  induction len with
  | zero => exact Nat.zero_le _
  | succ len fromLen =>
      have : 1 ≤ (escapeChar (str len)).length := by
        unfold escapeChar
        split_ifs <;> simp
      rw [escaped_succ, List.length_append]
      omega

theorem escapeChar_eq_self {chr : UInt8} (isShort : (escapeChar chr).length ≤ 1)
    : escapeChar chr = [chr] := by
  unfold escapeChar at isShort ⊢
  split_ifs at isShort ⊢ with isEscaped
  · simp at isShort
  · rfl

/-- Nothing is escaped in a text that does not get longer. -/
theorem escaped_eq_text (isShort : (escaped str len).length = len)
    : escaped str len = text str len := by
  induction len with
  | zero => rfl
  | succ len fromLen =>
      have longer := length_le_escaped str len
      have : 1 ≤ (escapeChar (str len)).length := by
        unfold escapeChar
        split_ifs <;> simp
      rw [escaped_succ, List.length_append] at isShort
      rw [escaped_succ, text_succ, fromLen (by omega), escapeChar_eq_self (by omega)]

/-- The loop counts the characters that are escaped. -/
theorem calcLoop_eq {left pos escapedLen : Nat}
    (isSum : escapedLen = (escaped str pos).length + left)
    (fits : (escaped str (pos + left)).length < 2 ^ 32)
    : calcLoop str left pos escapedLen = (escaped str (pos + left)).length := by
  induction left generalizing pos escapedLen with
  | zero => exact isSum
  | succ left fromLeft =>
      have shorter : (escaped str (pos + 1)).length + left
          ≤ (escaped str (pos + (left + 1))).length := by
        clear fromLeft fits isSum
        induction left with
        | zero => exact le_rfl
        | succ left fromLeft =>
            have : 1 ≤ (escapeChar (str (pos + (left + 1) : Nat))).length := by
              unfold escapeChar
              split_ifs <;> simp
            rw [← Nat.add_assoc pos, escaped_succ str (pos + (left + 1)), List.length_append]
            omega
      have next : (if escapeAs (str pos) ≠ 0 then (escapedLen + 1) % 2 ^ 32 else escapedLen)
          = (escaped str (pos + 1)).length + left := by
        rw [escaped_succ, List.length_append] at shorter ⊢
        unfold escapeChar at shorter ⊢
        split_ifs at shorter ⊢ with isEscaped
        · rw [List.length_cons, List.length_singleton] at shorter ⊢
          rw [Nat.mod_eq_of_lt (by omega)]
          omega
        · rw [List.length_singleton] at shorter ⊢
          omega
      rw [calcLoop, next]
      have arranged : pos + 1 + left = pos + (left + 1) := by omega
      rw [fromLeft rfl (arranged ▸ fits), arranged]

theorem jsonCalcEscapedLen_eq (fits : (escaped str len).length < 2 ^ 32)
    : jsonCalcEscapedLen str len = (escaped str len).length := by
  have counted : calcLoop str len 0 len = (escaped str (0 + len)).length :=
    calcLoop_eq (by simp [escaped, text]) (by rwa [Nat.zero_add])
  rw [jsonCalcEscapedLen, counted, Nat.zero_add]

-----------------------------------------------------------------------------------------
-- The loop in place
-----------------------------------------------------------------------------------------

/-- A text at the beginning of the string, with the rest of the memory. -/
def overwrite (str : Int → UInt8) (bytes : List UInt8) (k : Int) : UInt8 :=
  if 0 ≤ k then bytes.getD k.toNat (str k) else str k

theorem overwrite_concat (str : Int → UInt8) (bytes : List UInt8) (byte : UInt8)
    : overwrite str (bytes ++ [byte])
        = overwrite (Function.update str bytes.length byte) bytes := by
  funext k
  unfold overwrite
  by_cases isInside : 0 ≤ k
  · rw [if_pos isInside, if_pos isInside]
    rcases Nat.lt_trichotomy k.toNat bytes.length with isFirst | isLast | isBehind
    · rw [List.getD_append _ _ _ _ isFirst, List.getD_eq_getElem _ _ isFirst,
        List.getD_eq_getElem _ _ isFirst]
    · have isLength : k = bytes.length := by omega
      rw [List.getD_append_right _ _ _ _ isLast.ge, isLast, Nat.sub_self, isLength,
        List.getD_eq_default bytes _ le_rfl, Function.update_self]
      rfl
    · have notLength : k ≠ bytes.length := by omega
      rw [List.getD_eq_default _ _ (by simpa using isBehind), List.getD_eq_default _ _ isBehind.le,
        Function.update_of_ne notLength]
  · have notLength : k ≠ bytes.length := by omega
    rw [if_neg isInside, if_neg isInside, Function.update_of_ne notLength]

/-- The text is unchanged by a write behind it. -/
theorem escaped_update {off : Int} (isBehind : (len : Int) ≤ off) (byte : UInt8)
    : escaped (Function.update str off byte) len = escaped str len :=
  escaped_congr fun pos isInside => Function.update_of_ne (by omega) _ _

/-- What is written lies behind what is still to be read. -/
theorem escapeLoop_eq {next : Nat} {dest : Int} (isDest : dest = (escaped str next).length)
    : escapeLoop str next dest = overwrite str (escaped str next) := by
  induction next generalizing str dest with
  | zero =>
      funext k
      simp [escapeLoop, escaped, text, overwrite]
  | succ next fromNext =>
      have behind := length_le_escaped str next
      unfold escapeLoop
      dsimp only
      rw [escaped_succ] at isDest ⊢
      unfold escapeChar at isDest ⊢
      split_ifs at isDest ⊢ with isEscaped
      · rw [List.length_append, List.length_cons, List.length_singleton] at isDest
        have texts : escaped (Function.update (Function.update str (dest - 1)
            (escapeAs (str next))) (dest - 2) 92) next = escaped str next := by
          rw [escaped_update (by omega), escaped_update (by omega)]
        have split : escaped str next ++ [92, escapeAs (str next)]
            = (escaped str next ++ [92]) ++ [escapeAs (str next)] := by simp
        have second : dest - 1 = (escaped str next ++ [92]).length := by
          rw [List.length_append, List.length_singleton]
          omega
        have first : dest - 2 = (escaped str next).length := by omega
        rw [fromNext (by rw [texts]; omega), texts, split, overwrite_concat, overwrite_concat,
          ← second, ← first]
      · rw [List.length_append, List.length_singleton] at isDest
        have texts : escaped (Function.update str (dest - 1) (str next)) next = escaped str next :=
          escaped_update (by omega) _
        have first : dest - 1 = (escaped str next).length := by omega
        rw [fromNext (by rw [texts]; omega), texts, overwrite_concat, ← first]

/-- The string becomes the concatenation of the escapes of its characters. The terminator is
written if a character is escaped; the function fails without effect if it then does not fit.
-/
theorem jsonEscape_escapes (str : Int → UInt8) (len bufSize : Nat)
    (fits : (escaped str len).length < 2 ^ 32)
    : jsonCalcEscapedLen str len = (escaped str len).length
      ∧ (escaped str len = text str len → jsonEscape str len bufSize = (.success, str, len))
      ∧ (escaped str len ≠ text str len → bufSize ≤ (escaped str len).length
        → jsonEscape str len bufSize = (.enomem, str, len))
      ∧ (escaped str len ≠ text str len → (escaped str len).length < bufSize
        → jsonEscape str len bufSize
          = (.success, overwrite str (escaped str len ++ [0]), (escaped str len).length))
      ∧ ∀ k : Int, k < 0 ∨ bufSize ≤ k → (jsonEscape str len bufSize).2.1 k = str k := by
  have isLength := jsonCalcEscapedLen_eq fits
  have same : escaped str len = text str len ↔ (escaped str len).length = len := by
    refine ⟨fun isText => ?_, escaped_eq_text⟩
    rw [isText, text, List.length_map, List.length_range]
  have unescaped : escaped str len = text str len
      → jsonEscape str len bufSize = (.success, str, len) := by
    intro isText
    unfold jsonEscape
    rw [isLength]
    exact if_pos (same.mp isText)
  have refused : escaped str len ≠ text str len → bufSize ≤ (escaped str len).length
      → jsonEscape str len bufSize = (.enomem, str, len) := by
    intro isEscaped tooLong
    unfold jsonEscape
    rw [isLength]
    dsimp only
    rw [if_neg (mt same.mpr isEscaped), if_pos tooLong]
  have rewritten : escaped str len ≠ text str len → (escaped str len).length < bufSize
      → jsonEscape str len bufSize
        = (.success, overwrite str (escaped str len ++ [0]), (escaped str len).length) := by
    intro isEscaped isSmall
    have texts : escaped (Function.update str (escaped str len).length 0) len = escaped str len :=
      escaped_update (by exact_mod_cast length_le_escaped str len) _
    unfold jsonEscape
    rw [isLength]
    dsimp only
    rw [if_neg (mt same.mpr isEscaped), if_neg (Nat.not_le.mpr isSmall),
      escapeLoop_eq (by rw [texts]), texts, overwrite_concat]
  refine ⟨isLength, unescaped, refused, rewritten, fun k isOutside => ?_⟩
  by_cases isText : escaped str len = text str len
  · rw [unescaped isText]
  · rcases Nat.lt_or_ge (escaped str len).length bufSize with isSmall | tooLong
    · rw [rewritten isText isSmall]
      dsimp only [overwrite]
      rcases isOutside with isBefore | isBehind
      · rw [if_neg (by omega)]
      · rw [if_pos (by omega), List.getD_eq_default]
        rw [List.length_append, List.length_singleton]
        omega
    · rw [refused isText tooLong]

/-- The string `a"a` fits into a buffer of five bytes. -/
theorem quote_escaped
    : jsonEscape (fun k => if k = 1 then 34 else 97) 3 5
        = (.success, overwrite (fun k => if k = 1 then 34 else 97) [97, 92, 34, 97, 0], 4) := by
  have isText : escaped (fun k => if k = 1 then 34 else 97) 3 = [97, 92, 34, 97] := by decide
  have fits : (escaped (fun k => if k = 1 then 34 else 97) 3).length < 2 ^ 32 := by
    rw [isText]
    decide
  have escapes := jsonEscape_escapes (fun k => if k = 1 then 34 else 97) 3 5 fits
  rw [escapes.2.2.2.1 (by decide) (by decide), isText]
  rfl

/-- A string without a terminator behind it that needs no escape gets none. -/
theorem unescaped_not_terminated
    : let (result, str, len) := jsonEscape (fun _ => 97) 1 2
      result = .success ∧ len = 1 ∧ str len ≠ 0 := by
  decide

end Zephyr.JsonEscape
