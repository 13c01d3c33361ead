import Mathlib
import Zephyr.Library.Ring

/-! The lock-free byte stream of `lib/utils/winstream.c`: what a reader gets while whole writes
happen between its copy and its check.
-/

namespace Zephyr.Winstream

open Zephyr.Library

/-! ### The stream -/

/-- The values of a `uint32_t`. -/
def wordLimit : Nat := 2 ^ 32

/-- `struct sys_winstream`; its size comes from an `int`, so that sums of two indices stay below
the limit.
-/
structure Winstream where
  len : Nat
  start : Nat := 0
  endIdx : Nat := 0
  seq : Nat := 0
  data : Nat → UInt8 := fun _ => 0

def idxMod (ws : Winstream) (idx : Nat) : Nat :=
  if idx ≥ ws.len then idx - ws.len else idx

def idxSub (ws : Winstream) (a b : Nat) : Nat :=
  idxMod ws (a + (ws.len - b))

/-- `sys_winstream_write` -/
def write (ws : Winstream) (bytes : List UInt8) : Winstream :=
  let len0 := bytes.length
  let start := if len0 > ws.len - 1 then ws.endIdx else ws.start
  let len := min (if len0 > ws.len - 1 then ws.len - 1 else len0) ws.len
  let avail := ws.len - 1 - idxSub ws ws.endIdx start
  let advanced :=
    if ws.seq ≠ 0 ∧ len > avail then idxMod ws (start + (len - avail)) else ws.start
  let kept := bytes.drop (len0 - len)
  let suffix := min len (ws.len - ws.endIdx)
  { ws with
    start := if len < len0 then ws.endIdx else advanced
    endIdx := idxMod ws (ws.endIdx + len)
    seq := (ws.seq + len0) % wordLimit
    data := copyIn (copyIn ws.data ws.endIdx (kept.take suffix)) 0 (kept.drop suffix) }

def writeAll (ws : Winstream) (writes : List (List UInt8)) : Winstream :=
  writes.foldl write ws

/-- What a read returns, its `*seq` and the bytes it has put into the buffer. -/
structure Reading where
  ret : Nat
  seq : Nat
  buf : List UInt8
  deriving DecidableEq, Repr

/-- The bytes that one pass of the reader copies from `behind` bytes before the end. -/
def copied (ws : Winstream) (behind len : Nat) : List UInt8 :=
  let copy := idxSub ws ws.endIdx behind
  let suffix := min len (ws.len - copy)
  copyOut ws.data copy suffix ++ copyOut ws.data 0 (len - suffix)

def behindBy (ws : Winstream) (seq : Nat) : Nat :=
  (ws.seq + (wordLimit - seq)) % wordLimit

/-- One pass of the reader, and whether it has copied bytes and so will check them. -/
def pass (ws : Winstream) (seq0 seq buflen : Nat) : Reading × Bool :=
  if seq = ws.seq ∨ ws.start = ws.endIdx then (⟨0, ws.seq, []⟩, false)
  else if behindBy ws seq > idxSub ws ws.endIdx ws.start then (⟨0, ws.seq, []⟩, false)
  else
    let len := min buflen (behindBy ws seq)
    (⟨len, (seq0 + len) % wordLimit, copied ws (behindBy ws seq) len⟩, true)

/-- The loop of `sys_winstream_read`. Each pass takes the writes that happen between its copy and
its check from the list; after the end of the list there are none.
-/
def readLoop (ws : Winstream) (seq0 seq buflen : Nat) : List (List (List UInt8)) → Reading
  | [] => (pass ws seq0 seq buflen).1
  | writes :: passes =>
      if (pass ws seq0 seq buflen).2
          ∧ (ws.start ≠ (writeAll ws writes).start ∨ ws.seq ≠ (writeAll ws writes).seq) then
        readLoop (writeAll ws writes) seq0 (pass ws seq0 seq buflen).1.seq buflen passes
      else (pass ws seq0 seq buflen).1

/-- `sys_winstream_read` -/
def read (ws : Winstream) (seq buflen : Nat) (passes : List (List (List UInt8))) : Reading :=
  readLoop ws seq seq buflen passes

/-! ### The bytes in the window -/

/-- The window holds the last bytes of the stream. -/
structure Holds (ws : Winstream) (stream : List UInt8) : Prop where
  start_lt : ws.start < ws.len
  end_lt : ws.endIdx < ws.len
  seq_eq : ws.seq = stream.length % wordLimit
  used_le : idxSub ws ws.endIdx ws.start ≤ stream.length
  byte
    : ∀ back, 0 < back → back ≤ idxSub ws ws.endIdx ws.start →
        stream[stream.length - back]? = some (ws.data (idxSub ws ws.endIdx back))

theorem init_holds {size : Nat} (positive : 0 < size) : Holds { len := size } [] where
  start_lt := positive
  end_lt := positive
  seq_eq := rfl
  used_le := by simp [idxSub, idxMod]
  byte back more less := by simp [idxSub, idxMod] at less; omega

theorem copyIn_apply {α : Type*} (slots : Nat → α) (start : Nat) (items : List α) (place : Nat)
    : copyIn slots start items place
      = if start ≤ place then items[place - start]?.getD (slots place) else slots place := by
  induction items generalizing slots start with
  | nil => simp [copyIn]
  | cons item rest ih =>
      rw [copyIn, ih]
      rcases Nat.lt_trichotomy place start with less | rfl | more
      · rw [if_neg (by omega), if_neg (by omega), Function.update_of_ne (by omega)]
      · simp
      · rw [if_pos (by omega), if_pos (by omega), Function.update_of_ne (by omega),
          show place - start = place - (start + 1) + 1 by omega, List.getElem?_cons_succ]

/-- As much of a write as the window can hold. -/
def kept (ws : Winstream) (bytes : List UInt8) : Nat :=
  min bytes.length (ws.len - 1)

theorem write_endIdx (ws : Winstream) (bytes : List UInt8)
    : (write ws bytes).endIdx = idxMod ws (ws.endIdx + kept ws bytes) := by
  have same : min (if bytes.length > ws.len - 1 then ws.len - 1 else bytes.length) ws.len
      = kept ws bytes := by
    unfold kept
    split <;> omega
  simp only [write, same]

theorem write_data (ws : Winstream) (bytes : List UInt8)
    : (write ws bytes).data
      = copyIn
          (copyIn ws.data ws.endIdx
            ((bytes.drop (bytes.length - kept ws bytes)).take
              (min (kept ws bytes) (ws.len - ws.endIdx))))
          0
          ((bytes.drop (bytes.length - kept ws bytes)).drop
            (min (kept ws bytes) (ws.len - ws.endIdx))) := by
  have same : min (if bytes.length > ws.len - 1 then ws.len - 1 else bytes.length) ws.len
      = kept ws bytes := by
    unfold kept
    split <;> omega
  simp only [write, same]

section

variable {ws : Winstream} {stream : List UInt8}

theorem write_data_apply (end_lt : ws.endIdx < ws.len) (bytes : List UInt8) {place : Nat}
    (inside : place < ws.len)
    : (write ws bytes).data place
      = if idxSub ws place ws.endIdx < kept ws bytes then
          bytes[bytes.length - kept ws bytes + idxSub ws place ws.endIdx]?.getD (ws.data place)
        else ws.data place := by
  have room : kept ws bytes ≤ ws.len - 1 := Nat.min_le_right _ _
  have bound : kept ws bytes ≤ bytes.length := Nat.min_le_left _ _
  have outside {index : Nat} (past : bytes.length ≤ index) : bytes[index]? = none :=
    List.getElem?_eq_none past
  rw [write_data, copyIn_apply, copyIn_apply, if_pos (Nat.zero_le _), Nat.sub_zero,
    List.getElem?_drop, List.getElem?_drop, List.getElem?_take, List.getElem?_drop]
  rcases Nat.lt_or_ge place ws.endIdx with before | behind
  · have offset : idxSub ws place ws.endIdx = ws.len - ws.endIdx + place := by
      rw [idxSub, idxMod, if_neg (by omega)]
      omega
    rw [offset, if_neg (by omega)]
    split
    · rw [Nat.min_eq_right (by omega)]
    · rw [outside (by omega)]
      rfl
  · have offset : idxSub ws place ws.endIdx = place - ws.endIdx := by
      rw [idxSub, idxMod, if_pos (by omega)]
      omega
    rw [offset, if_pos behind, outside (by omega)]
    by_cases inWrite : place - ws.endIdx < kept ws bytes
    · rw [if_pos inWrite, if_pos (by omega)]
      rfl
    · rw [if_neg inWrite, if_neg (by omega)]
      rfl

theorem write_new (end_lt : ws.endIdx < ws.len) (bytes : List UInt8) {back : Nat}
    (more : 0 < back) (less : back ≤ kept ws bytes)
    : bytes[bytes.length - back]?
      = some ((write ws bytes).data
          (idxSub (write ws bytes) (write ws bytes).endIdx back)) := by
  have bound : kept ws bytes ≤ bytes.length := Nat.min_le_left _ _
  have room : kept ws bytes ≤ ws.len - 1 := Nat.min_le_right _ _
  have offset : idxSub ws (idxSub ws (idxMod ws (ws.endIdx + kept ws bytes)) back) ws.endIdx
      = kept ws bytes - back := by
    simp only [idxSub, idxMod]
    split_ifs <;> omega
  have inside : idxSub ws (idxMod ws (ws.endIdx + kept ws bytes)) back < ws.len := by
    simp only [idxSub, idxMod]
    split_ifs <;> omega
  change _ = some ((write ws bytes).data (idxSub ws (write ws bytes).endIdx back))
  rw [write_endIdx, write_data_apply end_lt bytes inside, offset, if_pos (by omega),
    show bytes.length - kept ws bytes + (kept ws bytes - back) = bytes.length - back by omega,
    List.getElem?_eq_getElem (by omega), Option.getD_some]

theorem write_old (end_lt : ws.endIdx < ws.len) (bytes : List UInt8) {back : Nat}
    (more : kept ws bytes < back) (less : back < ws.len)
    : (write ws bytes).data (idxSub (write ws bytes) (write ws bytes).endIdx back)
      = ws.data (idxSub ws ws.endIdx (back - kept ws bytes)) := by
  have place : idxSub ws (idxMod ws (ws.endIdx + kept ws bytes)) back
      = idxSub ws ws.endIdx (back - kept ws bytes) := by
    simp only [idxSub, idxMod]
    split_ifs <;> omega
  have offset : kept ws bytes
      ≤ idxSub ws (idxSub ws ws.endIdx (back - kept ws bytes)) ws.endIdx := by
    simp only [idxSub, idxMod]
    split_ifs <;> omega
  have inside : idxSub ws ws.endIdx (back - kept ws bytes) < ws.len := by
    simp only [idxSub, idxMod]
    split_ifs <;> omega
  change (write ws bytes).data (idxSub ws (write ws bytes).endIdx back) = _
  rw [write_endIdx, place, write_data_apply end_lt bytes inside, if_neg (by omega)]

theorem write_start_of_truncated {bytes : List UInt8} (long : ws.len - 1 < bytes.length)
    : (write ws bytes).start = ws.endIdx := by
  simp only [write, if_pos long]
  rw [if_pos (by omega)]

theorem write_start_of_fits {bytes : List UInt8} (fits : bytes.length ≤ ws.len - 1)
    : (write ws bytes).start
      = if ws.seq ≠ 0 ∧ bytes.length > ws.len - 1 - idxSub ws ws.endIdx ws.start then
          idxMod ws
            (ws.start + (bytes.length - (ws.len - 1 - idxSub ws ws.endIdx ws.start)))
        else ws.start := by
  have most : min bytes.length ws.len = bytes.length := Nat.min_eq_left (by omega)
  simp only [write, if_neg (Nat.not_lt.mpr fits), most, if_neg (Nat.lt_irrefl _)]

theorem write_used (end_lt : ws.endIdx < ws.len) (start_lt : ws.start < ws.len)
    (bytes : List UInt8)
    : (write ws bytes).start < ws.len
      ∧ (idxSub ws (write ws bytes).endIdx (write ws bytes).start ≤ kept ws bytes
        ∨ kept ws bytes = bytes.length
          ∧ idxSub ws (write ws bytes).endIdx (write ws bytes).start
            ≤ idxSub ws ws.endIdx ws.start + bytes.length) := by
  rw [write_endIdx]
  rcases Nat.lt_or_ge (ws.len - 1) bytes.length with long | fits
  · have full : kept ws bytes = ws.len - 1 := Nat.min_eq_right long.le
    rw [write_start_of_truncated long, full]
    refine ⟨end_lt, .inl ?_⟩
    simp only [idxSub, idxMod]
    split_ifs <;> omega
  · have whole : kept ws bytes = bytes.length := Nat.min_eq_left fits
    rw [write_start_of_fits fits, whole]
    refine ⟨?_, .inr ⟨rfl, ?_⟩⟩
    · simp only [idxSub, idxMod]
      split_ifs <;> omega
    · simp only [idxSub, idxMod]
      split_ifs <;> omega

theorem Holds.write (holds : Holds ws stream) (bytes : List UInt8)
    : Holds (write ws bytes) (stream ++ bytes) := by
  obtain ⟨start_lt, used⟩ := write_used holds.end_lt holds.start_lt bytes
  have bound : kept ws bytes ≤ bytes.length := Nat.min_le_left _ _
  have before := holds.used_le
  have end_lt := holds.end_lt
  have newEnd : (Winstream.write ws bytes).endIdx < ws.len := by
    rw [write_endIdx, idxMod]
    have room : kept ws bytes ≤ ws.len - 1 := Nat.min_le_right _ _
    split <;> omega
  have most : idxSub ws (Winstream.write ws bytes).endIdx (Winstream.write ws bytes).start
      < ws.len := by
    simp only [idxSub, idxMod]
    split_ifs <;> omega
  refine ⟨start_lt, newEnd, ?_, ?_, ?_⟩
  · change (ws.seq + bytes.length) % wordLimit = _
    rw [holds.seq_eq, Nat.mod_add_mod, List.length_append]
  · change idxSub ws _ _ ≤ _
    rw [List.length_append]
    omega
  · intro back more less
    change back ≤ idxSub ws _ _ at less
    rw [List.length_append]
    rcases Nat.lt_or_ge (kept ws bytes) back with old | new
    · rw [write_old end_lt bytes old (less.trans_lt most),
        List.getElem?_append_left (by omega),
        ← holds.byte (back - kept ws bytes) (by omega) (by omega)]
      congr 1
      omega
    · rw [List.getElem?_append_right (by omega), ← write_new end_lt bytes more new]
      congr 1
      omega

theorem Holds.writeAll (holds : Holds ws stream) (writes : List (List UInt8))
    : Holds (writeAll ws writes) (stream ++ writes.flatten) := by
  induction writes generalizing ws stream with
  | nil => rwa [List.flatten_nil, List.append_nil]
  | cons bytes rest ih =>
      have later := ih (holds.write bytes)
      rwa [List.append_assoc] at later

/-! ### Readings -/

theorem copied_length (ws : Winstream) (behind len : Nat)
    : (copied ws behind len).length = len := by
  simp only [copied, List.length_append, copyOut_length]
  omega

theorem Holds.copied_eq (holds : Holds ws stream) {behind len : Nat} (more : 0 < behind)
    (inside : behind ≤ idxSub ws ws.endIdx ws.start) (part : len ≤ behind)
    : copied ws behind len = (stream.drop (stream.length - behind)).take len := by
  have end_lt := holds.end_lt
  have start_lt := holds.start_lt
  have before := holds.used_le
  have used : idxSub ws ws.endIdx ws.start < ws.len := by
    simp only [idxSub, idxMod]
    split_ifs <;> omega
  refine List.ext_getElem? fun index => ?_
  rcases Nat.lt_or_ge index len with less | past
  · have byte := holds.byte (behind - index) (by omega) (by omega)
    rw [List.getElem?_take, if_pos less, List.getElem?_drop,
      show stream.length - behind + index = stream.length - (behind - index) by omega, byte, copied]
    have place : idxSub ws ws.endIdx behind < ws.len := by
      simp only [idxSub, idxMod]
      split_ifs <;> omega
    have step : idxSub ws ws.endIdx (behind - index)
        = idxMod ws (idxSub ws ws.endIdx behind + index) := by
      simp only [idxSub, idxMod]
      split_ifs <;> omega
    rw [List.getElem?_append, copyOut_length, step, idxMod]
    split_ifs with first wrapped wrapped
    · omega
    · rw [copyOut, List.getElem?_map, List.getElem?_range first]
      rfl
    · rw [copyOut, List.getElem?_map, List.getElem?_range (by omega), Option.map_some]
      congr 2
      omega
    · omega
  · rw [List.getElem?_eq_none (by rw [copied_length]; exact past),
      List.getElem?_eq_none (by rw [List.length_take]; omega)]

theorem Holds.seq_lt (holds : Holds ws stream) : ws.seq < wordLimit := by
  rw [holds.seq_eq]
  exact Nat.mod_lt _ (by decide)

/-- The law of a reading that began when `stream` was written: it has the bytes from its position
on, or it has none and the position of the end at some moment of the reading.
-/
def Lawful (stream : List UInt8) (passes : List (List (List UInt8))) (seq : Nat)
    (reading : Reading) : Prop :=
  (0 < reading.ret
    ∧ reading.seq = (seq + reading.ret) % wordLimit
    ∧ ∃ position,
        position % wordLimit = seq
        ∧ position + reading.ret ≤ (stream ++ passes.flatten.flatten).length
        ∧ reading.buf = ((stream ++ passes.flatten.flatten).drop position).take reading.ret)
  ∨ (reading.ret = 0
    ∧ ∃ done ≤ passes.length,
        reading.seq = (stream ++ (passes.take done).flatten.flatten).length % wordLimit)

/-- No write that happens in the first pass of a read is seen by its check. -/
def Undisturbed (ws : Winstream) (passes : List (List (List UInt8))) : Prop :=
  ∀ writes ∈ passes.head?,
    (writeAll ws writes).start = ws.start ∧ (writeAll ws writes).seq = ws.seq

theorem readLoop_of_undisturbed {passes : List (List (List UInt8))}
    (undisturbed : Undisturbed ws passes) (seq0 seq buflen : Nat)
    : readLoop ws seq0 seq buflen passes = (pass ws seq0 seq buflen).1 := by
  cases passes with
  | nil => rfl
  | cons writes rest =>
      obtain ⟨start, seqSame⟩ := undisturbed writes rfl
      simp [readLoop, start, seqSame]

theorem Holds.pass_zero (holds : Holds ws stream) {seq0 seq buflen : Nat} (word : seq < wordLimit)
    (room : 0 < buflen) (nothing : (pass ws seq0 seq buflen).1.ret = 0)
    : (pass ws seq0 seq buflen).1.seq = ws.seq := by
  have limit := holds.seq_lt
  unfold pass at nothing ⊢
  split_ifs at nothing ⊢ with same
  · rfl
  · rfl
  · -- a reader at another position is behind by at least one byte
    have behind : behindBy ws seq ≠ 0 := by
      simp only [behindBy, wordLimit] at *
      omega
    exact absurd nothing (by change min _ _ ≠ 0; omega)

theorem Holds.readLoop_zero {passes : List (List (List UInt8))} (holds : Holds ws stream)
    {seq0 seq buflen : Nat} (word : seq < wordLimit) (room : 0 < buflen)
    (nothing : (readLoop ws seq0 seq buflen passes).ret = 0)
    : ∃ done ≤ passes.length,
        (readLoop ws seq0 seq buflen passes).seq
        = (stream ++ (passes.take done).flatten.flatten).length % wordLimit := by
  induction passes generalizing ws stream seq with
  | nil =>
      have caught : (readLoop ws seq0 seq buflen []).seq = ws.seq :=
        holds.pass_zero word room nothing
      exact ⟨0, Nat.le_refl _, by simpa [← holds.seq_eq] using caught⟩
  | cons writes rest ih =>
      rw [readLoop] at nothing ⊢
      split_ifs at nothing ⊢ with again
      · have later : (pass ws seq0 seq buflen).1.seq < wordLimit := by
          unfold pass
          split_ifs
          · exact holds.seq_lt
          · exact holds.seq_lt
          · exact Nat.mod_lt _ (by decide)
        obtain ⟨done, bound, current⟩ := ih (holds.writeAll writes) later nothing
        refine ⟨done + 1, Nat.succ_le_succ bound, current.trans ?_⟩
        simp
      · exact ⟨0, Nat.zero_le _, by simpa [← holds.seq_eq] using holds.pass_zero word room nothing⟩

theorem Holds.pass_bytes (holds : Holds ws stream) {seq buflen : Nat} (word : seq < wordLimit)
    (more : 0 < (pass ws seq seq buflen).1.ret)
    : (pass ws seq seq buflen).1.seq = (seq + (pass ws seq seq buflen).1.ret) % wordLimit
      ∧ ∃ position,
          position % wordLimit = seq
          ∧ position + (pass ws seq seq buflen).1.ret ≤ stream.length
          ∧ (pass ws seq seq buflen).1.buf
            = (stream.drop position).take (pass ws seq seq buflen).1.ret := by
  have total := holds.seq_eq
  have window := holds.used_le
  unfold pass at more ⊢
  split_ifs at more ⊢ with same far
  · exact absurd more (Nat.lt_irrefl 0)
  · exact absurd more (Nat.lt_irrefl 0)
  · have positive : 0 < min buflen (behindBy ws seq) := more
    refine ⟨rfl, stream.length - behindBy ws seq, ?_, ?_, ?_⟩
    · simp only [behindBy, wordLimit] at *
      omega
    · change _ + min _ _ ≤ _
      omega
    · exact holds.copied_eq (by omega) (Nat.not_lt.mp far) (Nat.min_le_right _ _)

end

/-! ### A reader that is disturbed -/

end Zephyr.Winstream
