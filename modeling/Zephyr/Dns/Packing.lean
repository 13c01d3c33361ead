import Zephyr.Dns.Model

/-! A name that is packed is unpacked to itself, if its labels have from 1 to 63 bytes. -/

namespace Zephyr.Dns

open Zephyr.Library

-----------------------------------------------------------------------------------------
-- The bytes of a packed name
-----------------------------------------------------------------------------------------

/-- Each label behind its length, and a zero. -/
def encode (labels : List (List UInt8)) : List UInt8 :=
  (labels.flatMap fun label => .ofNat label.length :: label) ++ [0]

/-- The bytes up to `lb_index` once the length of the last label has been put in front of it. -/
def Packing.bytes (packing : Packing) : List UInt8 :=
  (List.range packing.lbIndex).map
    (Function.update packing.buf packing.lbStart (.ofNat packing.lbSize))

/-- The complete labels in `front`, and the label that is being packed. -/
structure Packing.Holds (packing : Packing) (front label : List UInt8) : Prop where
  bytes : packing.bytes = front ++ .ofNat label.length :: label
  lbStart : packing.lbStart = front.length
  lbIndex : packing.lbIndex = front.length + 1 + label.length
  lbSize : packing.lbSize = label.length

theorem start_holds (buf : Nat → UInt8) : Packing.Holds { buf := buf } [] [] :=
  ⟨by simp [Packing.bytes], rfl, rfl, rfl⟩

section

variable {packing : Packing} {front label : List UInt8}

theorem map_range_update (buf : Nat → UInt8) (count place : Nat) (value : UInt8)
    : (List.range count).map (Function.update buf place value)
      = ((List.range count).map buf).set place value := by
  refine List.ext_getElem (by simp) fun index lower upper => ?_
  simp only [List.getElem_map, List.getElem_range, List.getElem_set, Function.update_apply]
  simp only [eq_comm]

/-- A byte is written behind the others. -/
theorem map_range_succ_update (buf : Nat → UInt8) (count : Nat) (value : UInt8)
    : (List.range (count + 1)).map (Function.update buf count value)
      = (List.range count).map buf ++ [value] := by
  rw [List.range_succ, List.map_append, map_range_update,
    List.set_eq_of_length_le (by simp), List.map_singleton, Function.update_self]

/-- At the end of a label its length is put in front of it; the next byte is zero for now. -/
theorem Packing.Holds.dotted (holds : packing.Holds front label)
    : (packing.put dot).Holds (front ++ .ofNat label.length :: label) [] := by
  obtain ⟨bytes, lbStart, lbIndex, lbSize⟩ := holds
  refine ⟨?_, ?_, ?_, ?_⟩
  · rw [← bytes]
    simp only [Packing.put, if_true, Packing.bytes]
    exact map_range_succ_update _ _ _
  · simp only [Packing.put, if_true, lbIndex, List.length_append, List.length_cons]
    omega
  · simp only [Packing.put, if_true, lbIndex, List.length_append, List.length_cons,
      List.length_nil]
    omega
  · rfl

theorem Packing.Holds.char (holds : packing.Holds front label) {char : UInt8}
    (notDot : char ≠ dot) (notEnd : char ≠ 0)
    : (packing.put char).Holds front (label ++ [char]) := by
  obtain ⟨bytes, lbStart, lbIndex, lbSize⟩ := holds
  have put : packing.put char
      = { packing with
          lbIndex := packing.lbIndex + 1
          lbSize := packing.lbSize + 1
          buf := Function.update packing.buf packing.lbIndex char } := by
    rw [Packing.put, if_neg notDot, if_neg notEnd]
  refine ⟨?_, by rw [put]; exact lbStart, ?_, ?_⟩
  · rw [Packing.bytes, map_range_update] at bytes
    rw [put, Packing.bytes, map_range_update, map_range_succ_update]
    -- the new length is put where the old one is
    have replaced := congrArg
      (fun list : List UInt8 => list.set packing.lbStart (.ofNat (label.length + 1))) bytes
    simp only [List.set_set, lbStart, List.set_append_right _ _ (Nat.le_refl _), Nat.sub_self,
      List.set_cons_zero] at replaced
    have inside : front.length < ((List.range packing.lbIndex).map packing.buf).length := by
      simp only [List.length_map, List.length_range, lbIndex]
      omega
    rw [lbSize, lbStart, List.set_append_left _ _ inside, replaced, List.append_assoc,
      List.length_append, List.length_singleton, List.cons_append]
  · simp only [put, lbIndex, List.length_append, List.length_singleton]
    omega
  · simp only [put, lbSize, List.length_append, List.length_singleton]

theorem Packing.Holds.finished (holds : packing.Holds front label)
    : (List.range (packing.put 0).lbIndex).map (packing.put 0).buf
      = front ++ .ofNat label.length :: label ++ [0] := by
  rw [← holds.bytes]
  exact map_range_succ_update _ _ _

end

/-- The packed name is the labels of the rest, of which the first one has begun. -/
theorem packChars_spec {size : Nat} {packing : Packing} {front label rest : List UInt8}
    (holds : packing.Holds front label) (chars : 0 ∉ rest)
    : (packChars size packing (rest ++ [0])).1 = -eNoMem
      ∨ (packChars size packing (rest ++ [0])).1 = 0
        ∧ (packChars size packing (rest ++ [0])).2.lbIndex
          = packing.lbIndex + rest.length + 1
        ∧ packing.lbIndex + rest.length < size
        ∧ (List.range (packChars size packing (rest ++ [0])).2.lbIndex).map
            (packChars size packing (rest ++ [0])).2.buf
          = front ++ encode ((rest.splitOn dot).modifyHead (label ++ ·)) := by
  induction rest generalizing packing front label with
  | nil =>
      simp only [List.nil_append, packChars]
      split
      · exact .inl rfl
      · rename_i fits
        refine .inr ⟨rfl, rfl, by simpa using fits, ?_⟩
        rw [holds.finished]
        simp [encode]
  | cons char rest ih =>
      rw [List.mem_cons, not_or] at chars
      rw [List.cons_append, packChars]
      split
      · exact .inl rfl
      rename_i fits
      have index : (packing.put char).lbIndex = packing.lbIndex + 1 := by
        unfold Packing.put
        split_ifs <;> rfl
      suffices next : ∃ front' label',
          (packing.put char).Holds front' label'
          ∧ front' ++ encode ((rest.splitOn dot).modifyHead (label' ++ ·))
            = front ++ encode (((char :: rest).splitOn dot).modifyHead (label ++ ·)) by
        obtain ⟨front', label', holds', same⟩ := next
        have later := ih holds' chars.2
        rw [index, same] at later
        rcases later with failed | ⟨ret, len, inside, bytes⟩
        · exact .inl failed
        · exact .inr ⟨ret, by rw [len, List.length_cons]; omega,
            by rw [List.length_cons]; omega, bytes⟩
      rw [List.splitOn_cons_eq_if_modifyHead]
      by_cases isDot : char = dot
      · subst isDot
        refine ⟨_, _, holds.dotted, ?_⟩
        have same (labels : List (List UInt8)) : labels.modifyHead (fun label => label) = labels :=
          congrFun List.modifyHead_id labels
        simp [encode, same]
      · refine ⟨_, _, holds.char isDot (Ne.symm chars.1), ?_⟩
        simp [isDot, Function.comp_def]

-----------------------------------------------------------------------------------------
-- Unpacking it again
-----------------------------------------------------------------------------------------

/-- Labels from a place on are unpacked one after the other, each behind a dot. -/
theorem unpack_labels {memory : Nat → UInt8} {maxlen destSize : Nat}
    {labels : List (List UInt8)} (state : Unpacking)
    (stored : ∀ index, ∀ byte ∈ (encode labels)[index]?, memory (state.currSrc + index) = byte)
    (inside : state.currSrc + (encode labels).length ≤ maxlen)
    (sizes
      : ∀ label ∈ labels, 1 ≤ label.length ∧ label.length ≤ 63 ∧ label.length + 1 < destSize)
    : ∃ unpacked,
        loop (unpackTurn memory maxlen destSize) (labels.length + 1) state = some unpacked
        ∧ unpacked.data = state.data ++ labels.flatMap (dot :: ·)
        ∧ unpacked.ret = unpacked.data.length := by
  induction labels generalizing state with
  | nil =>
      have last : memory state.currSrc = 0 := stored 0 0 rfl
      simp [loop, unpackTurn, last]
  | cons label rest ih =>
      obtain ⟨⟨one, most, fits⟩, others⟩ := List.forall_mem_cons.mp sizes
      have bytes : encode (label :: rest) = .ofNat label.length :: (label ++ encode rest) := by
        simp [encode]
      have positive : 0 < (encode rest).length := by simp [encode]
      rw [bytes] at stored inside
      rw [List.length_cons, List.length_append] at inside
      have length : (memory state.currSrc).toNat = label.length := by
        have first : memory state.currSrc = .ofNat label.length := stored 0 _ rfl
        rw [first, UInt8.toNat_ofNat']
        omega
      have read : (List.range label.length).map
          (fun index => memory (state.currSrc + 1 + index)) = label := by
        refine List.ext_getElem (by simp) fun index lower upper => ?_
        rw [List.getElem_map, List.getElem_range, Nat.add_assoc, Nat.add_comm 1]
        refine stored (index + 1) _ ?_
        rw [List.getElem?_cons_succ, List.getElem?_append_left upper]
        exact List.getElem?_eq_getElem upper
      obtain ⟨next, turned, src, data⟩
          : ∃ next,
              unpackTurn memory maxlen destSize state = .inl next
              ∧ next.currSrc = state.currSrc + 1 + label.length
              ∧ next.data = state.data ++ dot :: label := by
        simp only [unpackTurn, length, read]
        rw [if_neg (by omega), if_neg (by omega), if_neg (by omega)]
        exact ⟨_, rfl, rfl, rfl⟩
      have behind : ∀ index, ∀ byte ∈ (encode rest)[index]?,
          memory (next.currSrc + index) = byte := by
        intro index byte found
        have place : next.currSrc + index = state.currSrc + (label.length + index + 1) := by
          omega
        rw [place]
        refine stored _ byte ?_
        rw [List.getElem?_cons_succ, List.getElem?_append_right (Nat.le_add_right _ _),
          Nat.add_sub_cancel_left]
        exact found
      obtain ⟨unpacked, ended, all, ret⟩ := ih next behind (by omega) others
      refine ⟨unpacked, ?_, ?_, ret⟩
      · rw [List.length_cons, loop, turned]
        exact ended
      · rw [all, data, List.flatMap_cons, List.append_assoc, List.cons_append]

theorem flatMap_dot {labels : List (List UInt8)} (nonempty : labels ≠ [])
    : labels.flatMap (dot :: ·) = dot :: [dot].intercalate labels := by
  induction labels with
  | nil => exact absurd rfl nonempty
  | cons label rest ih =>
      cases rest with
      | nil => simp
      | cons next rest => rw [List.flatMap_cons, ih (by simp)]; simp [List.intercalate]

theorem length_encode {labels : List (List UInt8)} (nonempty : labels ≠ [])
    : (encode labels).length = ([dot].intercalate labels).length + 2 := by
  have same : (labels.flatMap fun label => (.ofNat label.length :: label : List UInt8)).length
      = (labels.flatMap (dot :: ·)).length := by
    simp [List.length_flatMap]
  rw [encode, List.length_append, same, flatMap_dot nonempty]
  rfl

theorem packChars_outside {size place : Nat} (outside : size ≤ place) {packing : Packing}
    (chars : List UInt8) (start : packing.lbStart < packing.lbIndex)
    : (packChars size packing chars).2.buf place = packing.buf place := by
  induction chars generalizing packing with
  | nil => rfl
  | cons char rest ih =>
      rw [packChars]
      split
      · rfl
      rename_i fits
      have notStart : place ≠ packing.lbStart := by omega
      have notIndex : place ≠ packing.lbIndex := by omega
      have kept : (packing.put char).buf place = packing.buf place
          ∧ (packing.put char).lbStart < (packing.put char).lbIndex := by
        unfold Packing.put
        split_ifs
        · exact ⟨Function.update_of_ne notStart .., Nat.lt_succ_self _⟩
        · refine ⟨?_, Nat.lt_succ_of_lt start⟩
          simp only [Function.update_of_ne notIndex, Function.update_of_ne notStart]
        · exact ⟨Function.update_of_ne notIndex .., Nat.lt_succ_of_lt start⟩
      rw [ih kept.2, kept.1]

theorem dnsMsgPackQname_outside (buf : Nat → UInt8) (size : UInt16) (domainName : List UInt8)
    {place : Nat} (outside : size.toNat ≤ place)
    : (dnsMsgPackQname buf size domainName).buf place = buf place := by
  simp only [dnsMsgPackQname]
  split
  · rfl
  · exact packChars_outside outside _ Nat.zero_lt_one

end Zephyr.Dns
