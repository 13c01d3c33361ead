import Zephyr.Coap.Model

/-! Calls of `coap_packet_append_option` that fail, and what is left of the packet. -/

namespace Zephyr.Coap

variable {cpkt result : Packet} {value : List UInt8} {valueSize code delta offset : Nat}
variable {errno : Errno}

/-! ### Writing moves the end of a packet -/

theorem insertU8_offset (cpkt : Packet) (byte : UInt8) (offset : Nat)
    : cpkt.offset ≤ (insertU8 cpkt byte offset).2.offset := by
  unfold insertU8
  split
  · exact Nat.le_add_right _ _
  · exact Nat.le_refl _

theorem insertExt_offset (cpkt : Packet) (size ext offset : Nat)
    : cpkt.offset ≤ (insertExt cpkt size ext offset).2.offset := by
  unfold insertExt insertBe16
  split_ifs
  · exact insertU8_offset cpkt _ offset
  · exact Nat.le_add_right _ _
  · exact Nat.le_refl _
  · exact Nat.le_refl _

theorem insertValue_offset (cpkt : Packet) (value : List UInt8) (offset : Nat)
    : cpkt.offset ≤ (insertValue cpkt value offset).2.offset := by
  unfold insertValue insert
  split_ifs
  · exact Nat.le_refl _
  · exact Nat.le_add_right _ _
  · exact Nat.le_refl _

theorem encodeOption_offset (enough : enoughSpace cpkt 1 = true) (delta : Nat) (value : List UInt8)
    (offset : Nat)
    : cpkt.offset < (encodeOption cpkt delta value offset).2.offset := by
  unfold encodeOption
  dsimp only
  rcases isHeader : insertU8 cpkt _ offset with ⟨_ | _, first⟩
  · rw [insertU8, if_pos enough] at isHeader
    exact nomatch isHeader
  have atHeader : cpkt.offset < first.offset := by
    rw [insertU8, if_pos enough, Prod.mk.injEq] at isHeader
    rw [← isHeader.2]
    exact Nat.lt_succ_self _
  dsimp only
  have atDelta := insertExt_offset first (encodeExtendedOption delta).1
    (encodeExtendedOption delta).2.2 (offset + 1)
  rcases isDelta : insertExt first _ _ (offset + 1) with ⟨_ | _, second⟩
  · rw [isDelta] at atDelta
    exact Nat.lt_of_lt_of_le atHeader atDelta
  rw [isDelta] at atDelta
  dsimp only
  have atLen := insertExt_offset second (encodeExtendedOption value.length).1
    (encodeExtendedOption value.length).2.2 (offset + 1 + (encodeExtendedOption delta).1)
  rcases isLen : insertExt second _ _ _ with ⟨_ | _, third⟩
  · rw [isLen] at atLen
    exact Nat.lt_of_lt_of_le atHeader (Nat.le_trans atDelta atLen)
  rw [isLen] at atLen
  dsimp only
  have atValue := insertValue_offset third value
    (offset + 1 + (encodeExtendedOption delta).1 + (encodeExtendedOption value.length).1)
  have before := Nat.lt_of_lt_of_le atHeader (Nat.le_trans atDelta atLen)
  rcases isValue : insertValue third value _ with ⟨_ | _, last⟩
  · rw [isValue] at atValue
    exact Nat.lt_of_lt_of_le before atValue
  · rw [isValue] at atValue
    exact Nat.lt_of_lt_of_le before atValue

theorem encodeOption_full (full : enoughSpace cpkt 1 = false) (delta : Nat) (value : List UInt8)
    (offset : Nat)
    : encodeOption cpkt delta value offset = (.error .einval, cpkt) := by
  unfold encodeOption insertU8
  rw [full]
  rfl

/-! ### Calls that fail -/

/-- A call that adds an option at the end and fails leaves the packet as it is only if it is full. -/
theorem appendLast_failed (notSmaller : cpkt.delta ≤ code)
    (failed : appendBytes valueSize cpkt code value = (.error errno, result))
    : result = cpkt ↔ cpkt.maxLen ≤ cpkt.offset := by
  unfold appendBytes at failed
  rw [if_neg (Nat.not_lt.mpr notSmaller)] at failed
  dsimp only at failed
  generalize (if cpkt.optLen ≠ 0 then (if code = cpkt.delta then 0 else code - cpkt.delta) else code)
    = delta at failed
  cases enough : enoughSpace cpkt 1 with
  | true =>
      have isLater := encodeOption_offset enough delta value (cpkt.hdrLen + cpkt.optLen)
      have isRoom : cpkt.offset + 1 ≤ cpkt.maxLen := of_decide_eq_true enough
      unfold addOption at failed
      rcases isEncoded : encodeOption cpkt delta value _ with ⟨_ | r, encoded⟩
      · rw [isEncoded] at failed isLater
        obtain ⟨⟩ := failed
        refine ⟨fun same => ?_, fun full => absurd isRoom (by omega)⟩
        exact absurd isLater (same ▸ Nat.lt_irrefl _)
      · rw [isEncoded] at failed
        exact nomatch failed
  | false =>
      have isFull : ¬ cpkt.offset + 1 ≤ cpkt.maxLen := of_decide_eq_false enough
      unfold addOption at failed
      rw [encodeOption_full enough] at failed
      obtain ⟨⟩ := failed
      exact ⟨fun _ => by omega, fun _ => rfl⟩

theorem addOption_errno {r : Except Errno Nat} (added : addOption cpkt delta value offset = (r, result))
    : r ≠ .error .eilseq := by
  unfold addOption at added
  split at added
  · obtain ⟨⟩ := added
    exact nofun
  · obtain ⟨⟩ := added
    exact nofun

/-- A call that inserts an option and fails because the options cannot be parsed leaves the packet
as it is.
-/
theorem insertOption_failed
    (failed : insertOption valueSize cpkt code value = (.error .eilseq, result))
    : result = cpkt := by
  unfold insertOption at failed
  split at failed
  · obtain ⟨⟩ := failed
    rfl
  · dsimp only at failed
    split at failed
    · next isAdded =>
        obtain ⟨⟩ := failed
        exact absurd rfl (addOption_errno isAdded)
    · split at failed
      · next isAdded =>
          obtain ⟨⟩ := failed
          exact absurd rfl (addOption_errno isAdded)
      · exact nomatch failed

theorem appendBytes_failed (failed : appendBytes valueSize cpkt code value = (.error .eilseq, result))
    : result = cpkt := by
  unfold appendBytes at failed
  split at failed
  · exact insertOption_failed failed
  · dsimp only at failed
    split at failed
    · next isAdded =>
        obtain ⟨⟩ := failed
        exact absurd rfl (addOption_errno isAdded)
    · exact nomatch failed

/-- A null pointer with a length that is not zero. -/
def Value.Missing : Value → Prop
  | .null len => len ≠ 0
  | .bytes _ => False

/-- A call of `coap_packet_append_option` that fails leaves the packet as it is if it fails because
of its arguments or because the options cannot be parsed. If it does not fail for its arguments and
no code is larger, it does so exactly if no byte is free.
-/
theorem append_failed {value : Value}
    (failed : coapPacketAppendOption valueSize cpkt code value = (.error errno, result))
    : (value.Missing ∨ errno = .eilseq → result = cpkt)
      ∧ (¬ value.Missing
          → cpkt.delta ≤ code
          → (result = cpkt ↔ cpkt.maxLen ≤ cpkt.offset)) := by
  have written : ∀ {bytes}, appendBytes valueSize cpkt code bytes = (.error errno, result)
      → (errno = .eilseq → result = cpkt)
        ∧ (cpkt.delta ≤ code → (result = cpkt ↔ cpkt.maxLen ≤ cpkt.offset)) :=
    fun failed => ⟨fun isErrno => appendBytes_failed (isErrno ▸ failed),
      fun notSmaller => appendLast_failed notSmaller failed⟩
  cases value with
  | null len =>
      unfold coapPacketAppendOption at failed
      dsimp only at failed
      by_cases isMissing : len ≠ 0
      · rw [if_pos isMissing] at failed
        obtain ⟨⟩ := failed
        exact ⟨fun _ => rfl, fun notMissing => absurd isMissing notMissing⟩
      · rw [if_neg isMissing] at failed
        exact ⟨fun early => (written failed).1 (early.resolve_left isMissing),
          fun _ => (written failed).2⟩
  | bytes bytes =>
      exact ⟨fun early => (written failed).1 (early.resolve_left id), fun _ => (written failed).2⟩

/-! ### Calls on small packets -/

/-- A packet with the options 5 and 300 that has some bytes free. -/
def withFree (free : Nat) : Packet :=
  { data := [0x40, 1, 0, 5, 0x50, 0xE0, 0, 26] ++ List.replicate free 0
    offset := 8, maxLen := 8 + free, hdrLen := 4, optLen := 4, delta := 300 }

theorem full_packet_unchanged
    : (coapPacketAppendOption 12 (withFree 0) 301 (.bytes [1])).1 = .error .einval
      ∧ (coapPacketAppendOption 12 (withFree 0) 301 (.bytes [1])).2 = withFree 0 := by
  refine ⟨by decide +kernel, ?_⟩
  have failed : coapPacketAppendOption 12 (withFree 0) 301 (.bytes [1])
      = (.error .einval, (coapPacketAppendOption 12 (withFree 0) 301 (.bytes [1])).2) := by
    decide +kernel
  exact ((append_failed failed).2 id (by decide)).mpr (by decide)

/-- The header of an option stays behind the others if its value does not fit. An option that an
insertion has taken out is lost if there is no place for both.
-/
theorem packet_changed_by_failure
    : (coapPacketAppendOption 12 (withFree 1) 301 (.bytes [1])).1 = .error .einval
      ∧ (coapPacketAppendOption 12 (withFree 1) 301 (.bytes [1])).2.offset = 9
      ∧ (coapPacketAppendOption 12 (withFree 1) 6 (.bytes [1, 2, 3])).1 = .error .einval
      ∧ (coapPacketAppendOption 12 (withFree 1) 6 (.bytes [1, 2, 3])).2.optLen = 5
      ∧ (coapPacketParse 12 (coapPacketAppendOption 12 (withFree 1) 6 (.bytes [1, 2, 3])).2.data
          9 4).map (·.2)
        = .ok [⟨5, []⟩, ⟨6, [1, 2, 3]⟩] := by
  decide +kernel

end Zephyr.Coap
