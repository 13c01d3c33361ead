import Zephyr.Library.OnesComplement

/-! The checksum of the internet protocols (`utils.c`): the optimised sum of words of 32 bits over
memory of any alignment, and over the fragments of a packet.
-/

namespace Zephyr.Net.Checksum

open Zephyr.Library

-----------------------------------------------------------------------------------------
-- The functions of the source
-----------------------------------------------------------------------------------------

inductive Endian where
  | little
  | big
  deriving DecidableEq, Repr

/-- `CHECKSUM_BIG_ENDIAN` -/
def Endian.checksumBigEndian : Endian → Nat
  | .little => 0
  | .big => 1

/-- The 16-bit number at the beginning of the bytes. -/
def load16 (endian : Endian) (data : List UInt8) : UInt64 :=
  let byte (index : Nat) : UInt64 := (data.getD index 0).toUInt64
  match endian with
  | .little => byte 0 + 256 * byte 1
  | .big => 256 * byte 0 + byte 1

/-- The 32-bit number at index `i` of the bytes. -/
def load32 (endian : Endian) (data : List UInt8) (i : Nat) : UInt64 :=
  let byte (index : Nat) : UInt64 := (data.getD (4 * i + index) 0).toUInt64
  match endian with
  | .little => byte 0 + 256 * byte 1 + 65536 * byte 2 + 16777216 * byte 3
  | .big => 16777216 * byte 0 + 65536 * byte 1 + 256 * byte 2 + byte 3

def bswap16 (value : UInt16) : UInt16 :=
  value <<< 8 ||| value >>> 8

def offsetBasedSwap8 (endian : Endian) (address : Nat) (data : UInt8) : UInt64 :=
  if address % 2 = endian.checksumBigEndian then data.toUInt64 else 256 * data.toUInt64

/-- The sum so far, and the bytes that are pending with their address. -/
structure Pending where
  sum : UInt64
  address : Nat
  data : List UInt8

/-- The addition of a 16-bit number, if two bytes are pending. -/
def addHalf (endian : Endian) (pending : Pending) : Pending :=
  if 2 ≤ pending.data.length then
    ⟨pending.sum + load16 endian pending.data, pending.address + 2, pending.data.drop 2⟩
  else pending

/-- The unrolled loop. -/
def sumUnrolled (endian : Endian) (pending : Pending) : Pending :=
  if 16 ≤ pending.data.length then
    let sumA := load32 endian pending.data 0 + load32 endian pending.data 2
    let sumB := load32 endian pending.data 1 + load32 endian pending.data 3
    sumUnrolled endian
      ⟨pending.sum + (sumA + sumB), pending.address + 16, pending.data.drop 16⟩
  else pending
termination_by pending.data.length
decreasing_by
  simp only [List.length_drop]
  omega

def sumWords (endian : Endian) (pending : Pending) : Pending :=
  if 4 ≤ pending.data.length then
    sumWords endian
      ⟨pending.sum + load32 endian pending.data 0, pending.address + 4, pending.data.drop 4⟩
  else pending
termination_by pending.data.length
decreasing_by
  simp only [List.length_drop]
  omega

/-- `calc_chksum` between the byte at an odd address and the folding. -/
def sumAligned (endian : Endian) (pending : Pending) : UInt64 :=
  -- a 16-bit number in front, so that the words behind it are aligned
  let pending := if pending.address / 2 % 2 ≠ 0 then addHalf endian pending else pending
  let pending := sumWords endian (sumUnrolled endian pending)
  let pending := addHalf endian pending
  match pending.data with
  | [last] => pending.sum + offsetBasedSwap8 endian pending.address last
  | _ => pending.sum

/-- The byte at an odd address, and the bytes behind it. -/
def sumBytes (endian : Endian) (sum : UInt64) (address : Nat) : List UInt8 → UInt64
  | [] => sumAligned endian ⟨sum, address, []⟩
  | first :: rest =>
      if address % 2 ≠ 0 then
        sumAligned endian ⟨sum + offsetBasedSwap8 endian address first, address + 1, rest⟩
      else sumAligned endian ⟨sum, address, first :: rest⟩

theorem fold_toNat (sum : UInt64)
    : ((sum &&& (0xffff : UInt64)) + (sum >>> 16)).toNat
        = sum.toNat % 65536 + sum.toNat / 65536 := by
  have range := sum.toNat_lt
  have low : (sum &&& (0xffff : UInt64)).toNat = sum.toNat % 65536 :=
    Nat.and_two_pow_sub_one_eq_mod sum.toNat 16
  have high : (sum >>> 16).toNat = sum.toNat / 65536 :=
    Nat.shiftRight_eq_div_pow sum.toNat 16
  rw [UInt64.toNat_add, low, high]
  omega

theorem fold_ne_zero_iff (sum : UInt64) : sum >>> 16 ≠ 0 ↔ 65536 ≤ sum.toNat := by
  have high : (sum >>> 16).toNat = sum.toNat / 65536 :=
    Nat.shiftRight_eq_div_pow sum.toNat 16
  rw [ne_eq, ← UInt64.toNat_inj, high, UInt64.toNat_zero]
  omega

/-- The loop that folds the sum into 16 bits. -/
def foldSum (sum : UInt64) : UInt64 :=
  if sum >>> 16 ≠ 0 then foldSum ((sum &&& (0xffff : UInt64)) + (sum >>> 16)) else sum
termination_by sum.toNat
decreasing_by
  rename_i more
  have := (fold_ne_zero_iff sum).mp more
  rw [fold_toNat]
  omega

/-- `calc_chksum`, for the bytes at `address`. -/
def calcChksum (endian : Endian) (sumIn : UInt16) (address : Nat) (data : List UInt8) : UInt16 :=
  let oddStart := address % 2
  let swapped := oddStart = endian.checksumBigEndian
  let sum := (if swapped then bswap16 sumIn else sumIn).toUInt64
  let sum := (foldSum (sumBytes endian sum address data)).toUInt16
  if swapped then bswap16 sum else sum

/-- A fragment of a packet (`struct net_buf`): the address of its data and its bytes. -/
structure NetBuf where
  address : Nat
  bytes : List UInt8

/-- The loop of `pkt_calc_chksum`, for the bytes of the cursor's buffer that are left and the
fragments behind it.
-/
def chksumLoop (endian : Endian) (sum : UInt16) (address : Nat) (data : List UInt8)
    : List NetBuf → UInt16
  | [] => calcChksum endian sum address data
  | next :: rest =>
      let sum := calcChksum endian sum address data
      match next.bytes with
      | [] => sum
      | first :: others =>
          if data.length % 2 = 1 then
            let sum := sum + first.toUInt16
            let sum := if sum < first.toUInt16 then sum + 1 else sum
            chksumLoop endian sum (next.address + 1) others rest
          else chksumLoop endian sum next.address (first :: others) rest

/-- `struct net_pkt_cursor`: the buffer with those behind it, and the offset of `pos` in its data
unless that is null.
-/
structure NetPktCursor where
  buf : List NetBuf
  pos : Option Nat

def pktCalcChksum (endian : Endian) (cur : NetPktCursor) (sum : UInt16) : UInt16 :=
  match cur.buf, cur.pos with
  | buf :: frags, some pos =>
      chksumLoop endian sum (buf.address + pos) (buf.bytes.drop pos) frags
  | _, _ => sum

-----------------------------------------------------------------------------------------
-- The words that the machine reads
-----------------------------------------------------------------------------------------

def Endian.other : Endian → Endian
  | .little => .big
  | .big => .little

/-- The word of two bytes at an even address. -/
def pair : Endian → UInt8 → UInt8 → Nat
  | .little, first, second => first.toNat + 256 * second.toNat
  | .big, first, second => 256 * first.toNat + second.toNat

def hostSum (endian : Endian) : List UInt8 → Nat
  | [] => 0
  | [last] => pair endian last 0
  | first :: second :: rest => pair endian first second + hostSum endian rest

theorem hostSum_big (data : List UInt8) : hostSum .big data = wordsSum data := by
  induction data using wordsSum.induct with
  | case1 => rfl
  | case2 last => simp [hostSum, wordsSum, pair]
  | case3 high low rest ih => rw [hostSum, wordsSum, ih, pair]

/-- Behind the first byte of a word the words are those of the other endianness. -/
theorem wordsSum_cons (first : UInt8) (rest : List UInt8)
    : wordsSum (first :: rest) = 256 * first.toNat + hostSum .little rest := by
  induction rest using wordsSum.induct generalizing first with
  | case1 => rfl
  | case2 last => simp [hostSum, wordsSum, pair]
  | case3 second third rest ih =>
      rw [wordsSum, ih, hostSum, pair]
      omega

theorem pair_shift (endian : Endian) (first second : UInt8)
    : Alike (256 * pair endian first second) (pair endian.other first second) := by
  have low := first.toNat_lt
  have high := second.toNat_lt
  cases endian with
  | little =>
      have carried := Alike.carry (256 * first.toNat) second.toNat
      simpa only [pair, Endian.other, Nat.mul_add, ← Nat.mul_assoc] using carried
  | big =>
      have carried := Alike.carry (256 * second.toNat) first.toNat
      simpa only [pair, Endian.other, Nat.mul_add, ← Nat.mul_assoc, Nat.add_comm] using carried

theorem hostSum_shift (endian : Endian) (data : List UInt8)
    : Alike (256 * hostSum endian data) (hostSum endian.other data) := by
  induction data using wordsSum.induct with
  | case1 => exact .refl _
  | case2 last => exact pair_shift endian last 0
  | case3 first second rest ih =>
      rw [hostSum, hostSum, Nat.mul_add]
      exact (pair_shift endian first second).add ih

theorem bswap16_toNat (value : UInt16)
    : (bswap16 value).toNat = value.toNat / 256 + 256 * (value.toNat % 256) := by
  have all : ∀ value : BitVec 16,
      (value <<< 8 ||| value >>> 8).toNat = value.toNat / 256 + 256 * (value.toNat % 256) := by
    intro value
    have range := value.isLt
    rw [BitVec.toNat_or, BitVec.toNat_shiftLeft, BitVec.toNat_ushiftRight,
      Nat.shiftRight_eq_div_pow, Nat.shiftLeft_eq]
    have upper : value.toNat * 2 ^ 8 % 2 ^ 16 = value.toNat % 256 * 2 ^ 8 := by omega
    rw [upper, ← Nat.shiftLeft_eq, ← Nat.shiftLeft_add_eq_or_of_lt (by omega), Nat.shiftLeft_eq]
    omega
  exact all value.toBitVec

theorem bswap16_alike (value : UInt16) : Alike (bswap16 value).toNat (256 * value.toNat) := by
  have carried := Alike.carry (256 * (value.toNat % 256)) (value.toNat / 256)
  rw [bswap16_toNat, Nat.add_comm]
  refine carried.symm.trans ?_
  have whole : 256 * (value.toNat % 256) + 65536 * (value.toNat / 256) = 256 * value.toNat := by
    omega
  exact whole ▸ .refl _

theorem load16_spec (endian : Endian) {data : List UInt8} (enough : 2 ≤ data.length)
    : (load16 endian data).toNat < 65536
      ∧ hostSum endian data = (load16 endian data).toNat + hostSum endian (data.drop 2) := by
  obtain ⟨first, second, rest, rfl⟩ : ∃ first second rest, data = first :: second :: rest := by
    match data, enough with
    | first :: second :: rest, _ => exact ⟨first, second, rest, rfl⟩
  have low := first.toNat_lt
  have high := second.toNat_lt
  have value : (load16 endian (first :: second :: rest)).toNat = pair endian first second := by
    cases endian <;> simp [load16, pair, UInt64.toNat_add, UInt64.toNat_mul] <;> omega
  rw [value]
  refine ⟨?_, rfl⟩
  cases endian <;> simp only [pair] <;> omega

/-- A word of 32 bits stands for the sum of its halves, in whichever order they are. -/
theorem load32_spec (endian : Endian) {data : List UInt8} {i : Nat}
    (enough : 4 * i + 4 ≤ data.length)
    : (load32 endian data i).toNat < 2 ^ 32
      ∧ Alike ((load32 endian data i).toNat + hostSum endian (data.drop (4 * i + 4)))
          (hostSum endian (data.drop (4 * i))) := by
  have place (index : Nat) : data.getD (4 * i + index) 0 = (data.drop (4 * i)).getD index 0 := by
    simp [List.getD_eq_getElem?_getD, List.getElem?_drop]
  have length : 4 ≤ (data.drop (4 * i)).length := by
    rw [List.length_drop]
    omega
  simp only [load32, place, ← List.drop_drop]
  generalize data.drop (4 * i) = tail at length
  obtain ⟨a, b, c, d, rest, rfl⟩ : ∃ a b c d rest, tail = a :: b :: c :: d :: rest := by
    match tail, length with
    | a :: b :: c :: d :: rest, _ => exact ⟨a, b, c, d, rest, rfl⟩
  have a_lt := a.toNat_lt
  have b_lt := b.toNat_lt
  have c_lt := c.toNat_lt
  have d_lt := d.toNat_lt
  simp only [hostSum, List.drop_succ_cons, List.drop_zero, ← Nat.add_assoc]
  cases endian with
  | little =>
      have value : (a.toUInt64 + 256 * b.toUInt64 + 65536 * c.toUInt64
            + 16777216 * d.toUInt64).toNat
          = pair .little a b + 65536 * pair .little c d := by
        simp [pair, UInt64.toNat_add, UInt64.toNat_mul]
        omega
      refine ⟨?_, .add ?_ (.refl _)⟩
      · exact value ▸ by simp only [pair]; omega
      · exact value ▸ .carry _ _
  | big =>
      have value : (16777216 * a.toUInt64 + 65536 * b.toUInt64 + 256 * c.toUInt64
            + d.toUInt64).toNat
          = pair .big c d + 65536 * pair .big a b := by
        simp [pair, UInt64.toNat_add, UInt64.toNat_mul]
        omega
      refine ⟨?_, .add ?_ (.refl _)⟩
      · exact value ▸ by simp only [pair]; omega
      · rw [Nat.add_comm (pair .big a b)]
        exact value ▸ .carry _ _

-----------------------------------------------------------------------------------------
-- The sum of the pending bytes
-----------------------------------------------------------------------------------------

/-- The pending bytes are few enough for the sum, as those are that a `size_t` can count. -/
def Pending.Room (pending : Pending) : Prop :=
  pending.sum.toNat + 2 ^ 32 * pending.data.length < 2 ^ 64

/-- Some of the pending bytes, an even number of them, have been added to the sum. -/
structure Added (endian : Endian) (pending later : Pending) : Prop where
  alike
    : Alike (later.sum.toNat + hostSum endian later.data)
        (pending.sum.toNat + hostSum endian pending.data)
  room : later.Room
  even : later.address % 2 = pending.address % 2

section

variable {endian : Endian} {pending : Pending}

theorem Added.refl (room : pending.Room) : Added endian pending pending :=
  ⟨.refl _, room, rfl⟩

theorem Added.trans {middle later : Pending} (first : Added endian pending middle)
    (second : Added endian middle later)
    : Added endian pending later :=
  ⟨second.alike.trans first.alike, second.room, second.even.trans first.even⟩

theorem Added.word (room : pending.Room) (enough : 4 ≤ pending.data.length)
    : Added endian pending
        ⟨pending.sum + load32 endian pending.data 0, pending.address + 4,
          pending.data.drop 4⟩ := by
  obtain ⟨small, alike⟩ := load32_spec endian (show 4 * 0 + 4 ≤ pending.data.length from enough)
  unfold Pending.Room at room
  have exact : (pending.sum + load32 endian pending.data 0).toNat
      = pending.sum.toNat + (load32 endian pending.data 0).toNat := by
    rw [UInt64.toNat_add]
    omega
  refine ⟨?_, ?_, by simp only; omega⟩
  · rw [exact, Nat.add_assoc]
    exact .add (.refl _) alike
  · simp only [Pending.Room, exact, List.length_drop]
    omega

theorem addHalf_added (room : pending.Room) : Added endian pending (addHalf endian pending) := by
  unfold addHalf
  split
  · rename_i enough
    obtain ⟨small, value⟩ := load16_spec endian enough
    unfold Pending.Room at room
    have exact : (pending.sum + load16 endian pending.data).toNat
        = pending.sum.toNat + (load16 endian pending.data).toNat := by
      rw [UInt64.toNat_add]
      omega
    refine ⟨?_, ?_, by simp only; omega⟩
    · simp only [exact, Nat.add_assoc, ← value]
      exact .refl _
    · simp only [Pending.Room, exact, List.length_drop]
      omega
  · exact .refl room

theorem load32_drop (endian : Endian) (data : List UInt8) (i : Nat)
    : load32 endian (data.drop (4 * i)) 0 = load32 endian data i := by
  have place (index : Nat)
      : (data.drop (4 * i)).getD (4 * 0 + index) 0 = data.getD (4 * i + index) 0 := by
    simp [List.getD_eq_getElem?_getD, List.getElem?_drop]
  simp only [load32, place]

/-- One turn of the unrolled loop adds four words. -/
theorem Added.unrolled (room : pending.Room) (enough : 16 ≤ pending.data.length)
    : Added endian pending
        ⟨pending.sum
            + ((load32 endian pending.data 0 + load32 endian pending.data 2)
              + (load32 endian pending.data 1 + load32 endian pending.data 3)),
          pending.address + 16, pending.data.drop 16⟩ := by
  have first : Added endian pending _ := .word room (by omega)
  have second : Added endian _ _ := .word first.room (by simp only [List.length_drop]; omega)
  have third : Added endian _ _ := .word second.room (by simp only [List.length_drop]; omega)
  have fourth : Added endian _ _ := .word third.room (by simp only [List.length_drop]; omega)
  have all := ((first.trans second).trans third).trans fourth
  have at1 : load32 endian (pending.data.drop 4) 0 = load32 endian pending.data 1 :=
    load32_drop endian pending.data 1
  have at2 : load32 endian (pending.data.drop 8) 0 = load32 endian pending.data 2 :=
    load32_drop endian pending.data 2
  have at3 : load32 endian (pending.data.drop 12) 0 = load32 endian pending.data 3 :=
    load32_drop endian pending.data 3
  have order : pending.sum + load32 endian pending.data 0 + load32 endian pending.data 1
        + load32 endian pending.data 2 + load32 endian pending.data 3
      = pending.sum
        + ((load32 endian pending.data 0 + load32 endian pending.data 2)
          + (load32 endian pending.data 1 + load32 endian pending.data 3)) := by
    ac_rfl
  simpa only [List.drop_drop, Nat.reduceAdd, Nat.add_assoc pending.address, at1, at2, at3, order]
    using all

theorem sumUnrolled_added (room : pending.Room)
    : Added endian pending (sumUnrolled endian pending) := by
  fun_induction sumUnrolled endian pending with
  | case1 pending enough sumA sumB ih =>
      have turn : Added endian pending _ := .unrolled room enough
      exact turn.trans (ih turn.room)
  | case2 pending few => exact .refl room

theorem sumWords_added (room : pending.Room)
    : Added endian pending (sumWords endian pending)
      ∧ (sumWords endian pending).data.length < 4 := by
  fun_induction sumWords endian pending with
  | case1 pending enough ih =>
      have turn : Added endian pending _ := .word room enough
      exact ⟨turn.trans (ih turn.room).1, (ih turn.room).2⟩
  | case2 pending few => exact ⟨.refl room, Nat.not_le.mp few⟩

theorem addHalf_length (endian : Endian) (few : pending.data.length < 4)
    : (addHalf endian pending).data.length < 2 := by
  unfold addHalf
  split
  · simp only [List.length_drop]
    omega
  · omega

theorem offsetBasedSwap8_even {address : Nat} (even : address % 2 = 0) (byte : UInt8)
    : (offsetBasedSwap8 endian address byte).toNat = pair endian byte 0 := by
  have := byte.toNat_lt
  cases endian <;> simp [offsetBasedSwap8, even, Endian.checksumBigEndian, pair, UInt64.toNat_mul]
  omega

theorem sumAligned_alike (even : pending.address % 2 = 0) (room : pending.Room)
    : Alike (sumAligned endian pending).toNat
        (pending.sum.toNat + hostSum endian pending.data) := by
  have front : Added endian pending
      (if pending.address / 2 % 2 ≠ 0 then addHalf endian pending else pending) := by
    split
    · exact addHalf_added room
    · exact .refl room
  have unrolled := front.trans (sumUnrolled_added front.room)
  obtain ⟨words, few⟩ := sumWords_added unrolled.room
  have added := (unrolled.trans words).trans (addHalf_added words.room)
  have last := addHalf_length endian few
  simp only [sumAligned]
  generalize addHalf endian (sumWords endian (sumUnrolled endian
    (if pending.address / 2 % 2 ≠ 0 then addHalf endian pending else pending))) = later
    at added last ⊢
  obtain ⟨sum, address, data⟩ := later
  cases data with
  | nil => exact added.alike
  | cons byte rest =>
      have none : rest = [] := by
        simp only [List.length_cons] at last
        exact List.length_eq_zero_iff.mp (by omega)
      subst none
      have place : address % 2 = 0 := added.even.trans even
      have room := added.room
      have small : pair endian byte 0 < 65536 := by
        have := byte.toNat_lt
        cases endian <;> simp [pair] <;> omega
      have exact : (sum + offsetBasedSwap8 endian address byte).toNat
          = sum.toNat + pair endian byte 0 := by
        simp only [Pending.Room, List.length_singleton] at room
        rw [UInt64.toNat_add, offsetBasedSwap8_even place]
        omega
      simp only [exact]
      exact added.alike

theorem sumAligned_nil (sum : UInt64) (address : Nat)
    : sumAligned endian ⟨sum, address, []⟩ = sum := by
  simp [sumAligned, addHalf, sumUnrolled, sumWords]

end

theorem foldSum_spec (sum : UInt64)
    : (foldSum sum).toNat < 65536 ∧ Alike (foldSum sum).toNat sum.toNat := by
  fun_induction foldSum sum with
  | case1 sum more ih =>
      refine ⟨ih.1, ih.2.trans ?_⟩
      rw [fold_toNat]
      have carried := Alike.carry (sum.toNat % 65536) (sum.toNat / 65536)
      rw [Nat.mod_add_div] at carried
      exact carried.symm
  | case2 sum done =>
      refine ⟨?_, .refl _⟩
      have small := (not_congr (fold_ne_zero_iff sum)).mp done
      omega

theorem folded_alike (total : UInt64)
    : Alike (foldSum total).toUInt16.toNat total.toNat := by
  obtain ⟨word, alike⟩ := foldSum_spec total
  rw [UInt64.toNat_toUInt16, Nat.mod_eq_of_lt word]
  exact alike

/-- Swapping the bytes twice gives the value back. -/
theorem shift_shift (n : Nat) : Alike (256 * (256 * n)) n := by
  have carried := Alike.carry 0 n
  rwa [Nat.zero_add, Nat.zero_add, show 65536 * n = 256 * (256 * n) by omega] at carried

theorem bswap16_back (sumIn : UInt16) : Alike (256 * (bswap16 sumIn).toNat) sumIn.toNat :=
  (bswap16_alike sumIn).shift.trans (shift_shift _)

/-- A sum that was made of swapped words is swapped back. -/
theorem bswap16_folded {total : UInt64} {n : Nat} (alike : Alike (256 * total.toNat) n)
    : Alike (bswap16 (foldSum total).toUInt16).toNat n :=
  (bswap16_alike _).trans ((folded_alike total).shift.trans alike)

-----------------------------------------------------------------------------------------
-- The checksum of a string and of a packet
-----------------------------------------------------------------------------------------

section

variable {endian : Endian} {address : Nat}

theorem calcChksum_even (even : address % 2 = 0) (sumIn : UInt16) {data : List UInt8}
    (small : data.length < 2 ^ 32)
    : Alike (calcChksum endian sumIn address data).toNat (sumIn.toNat + wordsSum data) := by
  have total (start : UInt16)
      : Alike (sumBytes endian start.toUInt64 address data).toNat
          (start.toNat + hostSum endian data) := by
    have whole : sumBytes endian start.toUInt64 address data
        = sumAligned endian ⟨start.toUInt64, address, data⟩ := by
      cases data with
      | nil => rfl
      | cons first rest => exact if_neg (not_not.mpr even)
    have word := start.toNat_lt
    have room : Pending.Room ⟨start.toUInt64, address, data⟩ := by
      simp only [Pending.Room, UInt16.toNat_toUInt64]
      omega
    rw [whole]
    simpa using sumAligned_alike even room
  simp only [calcChksum, even]
  cases endian with
  | little =>
      simp only [Endian.checksumBigEndian, if_true]
      refine bswap16_folded ((total (bswap16 sumIn)).shift.trans ?_)
      rw [Nat.mul_add, ← hostSum_big]
      exact (bswap16_back sumIn).add (hostSum_shift .little data)
  | big =>
      simp only [Endian.checksumBigEndian, Nat.zero_ne_one, if_false]
      rw [← hostSum_big]
      exact (folded_alike _).trans (total sumIn)

theorem calcChksum_odd (odd : address % 2 = 1) (sumIn : UInt16) {first : UInt8}
    {rest : List UInt8} (small : (first :: rest).length < 2 ^ 32)
    : Alike (calcChksum endian sumIn address (first :: rest)).toNat
        (sumIn.toNat + wordsSum (first :: rest)) := by
  have even : (address + 1) % 2 = 0 := by omega
  have byte := first.toNat_lt
  rw [List.length_cons] at small
  have total (start : UInt16) {value : Nat}
      (isValue : (offsetBasedSwap8 endian address first).toNat = value) (less : value < 65536)
      : Alike (sumBytes endian start.toUInt64 address (first :: rest)).toNat
          (start.toNat + value + hostSum endian rest) := by
    have word := start.toNat_lt
    have exact : (start.toUInt64 + offsetBasedSwap8 endian address first).toNat
        = start.toNat + value := by
      rw [UInt64.toNat_add, isValue, UInt16.toNat_toUInt64]
      omega
    have room : Pending.Room
        ⟨start.toUInt64 + offsetBasedSwap8 endian address first, address + 1, rest⟩ := by
      simp only [Pending.Room, exact]
      omega
    rw [sumBytes, if_pos (by omega)]
    simpa only [exact] using sumAligned_alike even room
  rw [wordsSum_cons, ← Nat.add_assoc]
  simp only [calcChksum, odd]
  cases endian with
  | little =>
      simp only [Endian.checksumBigEndian, Nat.one_ne_zero, if_false]
      refine (folded_alike _).trans (total sumIn ?_ (by omega))
      simp [offsetBasedSwap8, odd, Endian.checksumBigEndian, UInt64.toNat_mul]
      omega
  | big =>
      simp only [Endian.checksumBigEndian, if_true]
      have swap : (offsetBasedSwap8 .big address first).toNat = first.toNat := by
        simp [offsetBasedSwap8, odd, Endian.checksumBigEndian]
      refine bswap16_folded ((total (bswap16 sumIn) swap (by omega)).shift.trans ?_)
      rw [Nat.mul_add, Nat.mul_add]
      exact ((bswap16_back sumIn).add (.refl _)).add (hostSum_shift .big rest)

theorem calcChksum_alike (endian : Endian) (sumIn : UInt16) (address : Nat) {data : List UInt8}
    (small : data.length < 2 ^ 32)
    : Alike (calcChksum endian sumIn address data).toNat (sumIn.toNat + wordsSum data) := by
  rcases Nat.mod_two_eq_zero_or_one address with even | odd
  · exact calcChksum_even even sumIn small
  · cases data with
    | cons first rest => exact calcChksum_odd odd sumIn small
    | nil =>
        simp only [calcChksum, sumBytes, sumAligned_nil, wordsSum, Nat.add_zero]
        split
        · refine bswap16_folded ?_
          rw [UInt16.toNat_toUInt64]
          exact bswap16_back sumIn
        · have alike := folded_alike sumIn.toUInt64
          rwa [UInt16.toNat_toUInt64] at alike

/-- The addition of a lower byte with its carry. -/
theorem addCarry_alike (sum : UInt16) (byte : UInt8)
    : Alike
        (let sum' := sum + byte.toUInt16
          if sum' < byte.toUInt16 then sum' + 1 else sum').toNat
        (sum.toNat + byte.toNat) := by
  have word := sum.toNat_lt
  have small := byte.toNat_lt
  simp only [UInt16.lt_iff_toNat_lt, UInt16.toNat_add, UInt8.toNat_toUInt16]
  split
  · constructor
    all_goals
      simp only [UInt16.toNat_add, UInt8.toNat_toUInt16, UInt16.toNat_one]
      omega
  · refine ⟨?_, ?_⟩ <;> simp only [UInt16.toNat_add, UInt8.toNat_toUInt16] <;> omega

/-- Over fragments that are not empty the sum goes on as over one string. -/
theorem chksumLoop_alike (sum : UInt16) (data : List UInt8) {rest : List NetBuf}
    (nonempty : ∀ buf ∈ rest, buf.bytes ≠ [])
    (small : (data ++ rest.flatMap NetBuf.bytes).length < 2 ^ 32)
    : Alike (chksumLoop endian sum address data rest).toNat
        (sum.toNat + wordsSum (data ++ rest.flatMap NetBuf.bytes)) := by
  -- over the fragments; the bytes of the cursor's buffer start a word
  induction rest generalizing sum address data with
  | nil =>
      rw [List.flatMap_nil, List.append_nil] at small ⊢
      exact calcChksum_alike endian sum address small
  | cons next rest ih =>
      obtain ⟨filled, others⟩ := List.forall_mem_cons.mp nonempty
      obtain ⟨first, more, bytes⟩ := List.exists_cons_of_ne_nil filled
      rw [List.flatMap_cons, bytes, List.cons_append, List.length_append, List.length_cons] at small
      have here : Alike (calcChksum endian sum address data).toNat (sum.toNat + wordsSum data) :=
        calcChksum_alike endian sum address (by omega)
      rw [List.flatMap_cons, bytes, List.cons_append]
      simp only [chksumLoop, bytes]
      split
      · rename_i odd
        rw [wordsSum_append_odd odd, ← Nat.add_assoc, ← Nat.add_assoc]
        refine (ih _ more others (by omega)).trans (.add ?_ (.refl _))
        exact (addCarry_alike _ first).trans (here.add (.refl _))
      · rename_i notOdd
        rw [wordsSum_append_even (by omega), ← Nat.add_assoc]
        refine (ih _ (first :: more) others ?_).trans (.add here (.refl _))
        rw [List.cons_append, List.length_cons]
        omega

end

/-- The checksum of a string at any address and on any machine is the sum of its big-endian words
in one's complement, and that of a packet is the checksum of its bytes, however they are divided.
-/
theorem checksum_is_ones_sum (endian : Endian) (sumIn : UInt16) (address : Nat)
    (data : List UInt8) (small : data.length < 2 ^ 32)
    : (calcChksum endian sumIn address data).toNat = onesSum sumIn.toNat data
      ∧ ∀ buf frags pos,
          buf.bytes.drop pos ++ frags.flatMap NetBuf.bytes = data
          → (∀ frag ∈ frags, frag.bytes ≠ [])
          → pktCalcChksum endian ⟨buf :: frags, some pos⟩ sumIn
            = calcChksum endian sumIn address data := by
  have alike := calcChksum_alike endian sumIn address small
  obtain ⟨word, sum⟩ := onesSum_spec data sumIn.toNat_lt
  refine ⟨(alike.trans sum.symm).word_eq (UInt16.toNat_lt _) word, ?_⟩
  rintro buf frags pos rfl nonempty
  have parts : Alike (pktCalcChksum endian ⟨buf :: frags, some pos⟩ sumIn).toNat _ :=
    chksumLoop_alike sumIn (buf.bytes.drop pos) nonempty small
  apply UInt16.toNat.inj
  exact (parts.trans alike.symm).word_eq (UInt16.toNat_lt _) (UInt16.toNat_lt _)

theorem divided_string_checked
    : (calcChksum .little 1 2 [0xff, 0xff, 0x12]).toNat = 0x1201
      ∧ pktCalcChksum .little ⟨[⟨5, [0, 0xff]⟩, ⟨8, [0xff]⟩, ⟨3, [0x12]⟩], some 1⟩ 1
        = calcChksum .little 1 2 [0xff, 0xff, 0x12] := by
  obtain ⟨sum, divided⟩ :=
    checksum_is_ones_sum .little 1 2 [0xff, 0xff, 0x12] (by decide)
  exact ⟨sum, divided ⟨5, [0, 0xff]⟩ [⟨8, [0xff]⟩, ⟨3, [0x12]⟩] 1 rfl (by decide)⟩

end Zephyr.Net.Checksum
