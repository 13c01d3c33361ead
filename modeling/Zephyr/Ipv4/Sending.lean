import Zephyr.Ipv4.Ownership

/-! The fragments of a packet: each carries the data that begin where the one before it ends, and
all but the last a multiple of 8 bytes.
-/

namespace Zephyr.Ipv4

variable {data : List UInt8} {key : Key} {start size mtu : Nat} {more : Bool} {fragment : NetPkt}
  {fragments rest : List NetPkt}

/-- The fragment carries so many bytes of the data from `start` on. -/
structure Piece (data : List UInt8) (key : Key) (start size : Nat) (more : Bool)
    (fragment : NetPkt) : Prop where
  number : fragment.number = 0
  key : fragment.key = key
  offset : fragment.hdr.offset = start / 8 + if more then 2 ^ 13 else 0
  aligned : 8 ∣ start
  bound : start + size ≤ data.length
  nonempty : 0 < size
  hdrLen : fragment.hdr.len = Ipv4.hdrLen + size
  len : fragment.len = Ipv4.hdrLen + size
  payload : fragment.payload = (data.drop start).take size

/-- The fragments carry the data from `start` on. -/
inductive Pieces (data : List UInt8) (key : Key) : Nat → List NetPkt → Prop
  | last {start : Nat} {fragment : NetPkt}
      (piece : Piece data key start (data.length - start) false fragment)
      : Pieces data key start [fragment]
  | more {start size : Nat} {fragment : NetPkt} {rest : List NetPkt}
      (piece : Piece data key start size true fragment) (units : 8 ∣ size)
      (behind : Pieces data key (start + size) rest)
      : Pieces data key start (fragment :: rest)

/-! ### One fragment -/

theorem Piece.fragmentOffset (piece : Piece data key start size more fragment)
    (small : data.length < 2 ^ 16)
    : fragment.hdr.fragmentOffset = start := by
  have aligned := piece.aligned
  have bound := piece.bound
  rw [Ipv4Hdr.fragmentOffset, piece.offset]
  split <;> omega

theorem Piece.fragmentMore (piece : Piece data key start size more fragment)
    (small : data.length < 2 ^ 16)
    : fragment.hdr.fragmentMore = more := by
  have bound := piece.bound
  have low : start / 8 < 2 ^ 13 := by omega
  rw [Ipv4Hdr.fragmentMore, piece.offset]
  cases more with
  | false => exact Nat.testBit_lt_two_pow (Nat.add_zero _ ▸ low)
  | true =>
      rw [if_pos rfl, Nat.add_comm, Nat.testBit_two_pow_add_eq, Nat.testBit_lt_two_pow low]
      rfl

/-- What `send_ipv4_fragment` makes. -/
theorem sendIpv4Fragment_piece {pkt : NetPkt} {randId : Nat} (final : Bool) (aligned : 8 ∣ start)
    (bound : start + size ≤ pkt.payload.length) (nonempty : 0 < size)
    (small : hdrLen + pkt.payload.length < 2 ^ 16)
    : Piece pkt.payload { pkt.key with id := randId } start size (!final)
        (sendIpv4Fragment pkt randId size start final) where
  number := rfl
  key := rfl
  offset := by
    have low : start / 8 < 2 ^ 13 := by omega
    cases final with
    | true => rfl
    | false =>
        change start / 8 ||| 2 ^ 13 = start / 8 + 2 ^ 13
        rw [Nat.or_comm, Nat.add_comm]
        exact (Nat.two_pow_add_eq_or_of_lt low 1).symm
  aligned := aligned
  bound := bound
  nonempty := nonempty
  hdrLen := by
    change (size + Ipv4.hdrLen) % 2 ^ 16 = Ipv4.hdrLen + size
    rw [Nat.mod_eq_of_lt (by omega), Nat.add_comm]
  len := Nat.add_comm _ _
  payload := rfl

/-! ### All fragments -/

theorem Pieces.ne_nil (pieces : Pieces data key start fragments) : fragments ≠ [] := by
  cases pieces <;> exact List.cons_ne_nil _ _

/-- Every fragment is a piece of the data from `start` on. -/
theorem Pieces.piece (pieces : Pieces data key start fragments)
    : ∀ fragment ∈ fragments,
        ∃ offset size more, start ≤ offset ∧ Piece data key offset size more fragment
          ∧ (more = true → 8 ∣ size) := by
  induction pieces with
  | last piece =>
      intro fragment member
      obtain rfl := List.mem_singleton.mp member
      exact ⟨_, _, _, Nat.le_refl _, piece, nofun⟩
  | more piece units _ ih =>
      intro fragment member
      rcases List.mem_cons.mp member with rfl | member
      · exact ⟨_, _, _, Nat.le_refl _, piece, fun _ => units⟩
      · obtain ⟨offset, size, more, later, piece, units⟩ := ih fragment member
        exact ⟨offset, size, more, by omega, piece, units⟩

theorem Pieces.start_le (pieces : Pieces data key start fragments) (small : data.length < 2 ^ 16)
    : ∀ fragment ∈ fragments, start ≤ fragment.hdr.fragmentOffset := by
  intro fragment member
  obtain ⟨offset, size, more, later, piece, -⟩ := pieces.piece fragment member
  rw [piece.fragmentOffset small]
  exact later

theorem Pieces.sorted (pieces : Pieces data key start fragments) (small : data.length < 2 ^ 16)
    : fragments.Pairwise NetPkt.isBefore := by
  induction pieces with
  | last piece => exact List.pairwise_singleton _ _
  | more piece _ behind ih =>
      refine List.pairwise_cons.mpr ⟨?_, ih⟩
      intro other member
      have later := behind.start_le small other member
      have nonempty := piece.nonempty
      rw [NetPkt.isBefore, piece.fragmentOffset small]
      omega

theorem Pieces.payload (pieces : Pieces data key start fragments)
    : fragments.flatMap NetPkt.payload = data.drop start := by
  induction pieces with
  | last piece => simp [piece.payload, List.take_of_length_le]
  | more piece _ _ ih =>
      rw [List.flatMap_cons, ih, piece.payload, ← List.drop_drop, List.take_append_drop]

theorem Pieces.length (pieces : Pieces data key start fragments)
    : start + (fragments.map fun pkt => pkt.len - hdrLen).sum = data.length := by
  induction pieces with
  | last piece =>
      have bound := piece.bound
      have len := piece.len
      have nonempty := piece.nonempty
      simp only [List.map_cons, List.map_nil, List.sum_cons, List.sum_nil]
      omega
  | more piece _ _ ih =>
      have len := piece.len
      simp only [List.map_cons, List.sum_cons]
      omega

theorem Piece.readyFrom (piece : Piece data key start size more fragment)
    (small : data.length < 2 ^ 16) (held : List NetPkt) (free : Nat)
    : Ipv4.readyFrom (filled (fragment :: held) free) start true
      = Ipv4.readyFrom (filled held free) (start + size) more := by
  have cons : filled (fragment :: held) free = some fragment :: filled held free := rfl
  rw [cons, Ipv4.readyFrom, piece.fragmentOffset small, piece.fragmentMore small, piece.len,
    if_neg (Nat.lt_irrefl _), if_neg (not_not_intro rfl), if_neg (by omega),
    Nat.add_sub_cancel_left]

theorem readyFrom_late {held : List NetPkt}
    (late : ∀ fragment ∈ held, start < fragment.hdr.fragmentOffset) (free : Nat)
    : readyFrom (filled held free) start true = 0 := by
  cases held with
  | nil => cases free <;> rfl
  | cons first rest =>
      have cons : filled (first :: rest) free = some first :: filled rest free := rfl
      have later := late first List.mem_cons_self
      rw [cons, readyFrom, if_neg (by omega), if_pos (by omega)]

theorem Pieces.ready {held : List NetPkt} (pieces : Pieces data key start fragments)
    (small : data.length < 2 ^ 16) (sublist : held.Sublist fragments) (free : Nat)
    : readyFrom (filled held free) start true = if held = fragments then 1 else 0 := by
  induction pieces generalizing held with
  | last piece =>
      rcases List.sublist_singleton.mp sublist with rfl | rfl
      · rw [if_neg (List.cons_ne_nil _ _).symm]
        cases free <;> rfl
      · rw [piece.readyFrom small, if_pos rfl]
        cases free <;> rfl
  | more piece _ behind ih =>
      cases sublist with
      | cons _ sublist =>
          rw [if_neg ?_]
          · refine readyFrom_late ?_ free
            intro other member
            have later := behind.start_le small other (sublist.subset member)
            have nonempty := piece.nonempty
            omega
          · rintro rfl
            exact absurd sublist.length_le (by simp)
      | cons_cons _ sublist =>
          rw [piece.readyFrom small, ih sublist]
          simp only [List.cons.injEq, true_and]

theorem sendLoop_pieces {pkt : NetPkt} {randId fitLen fuel : Nat}
    (small : hdrLen + pkt.payload.length < 2 ^ 16) (units : 8 ∣ fitLen) (fits : 0 < fitLen)
    (aligned : 8 ∣ start) (unsent : start < pkt.payload.length)
    (enough : pkt.payload.length - start < fuel)
    : Pieces pkt.payload { pkt.key with id := randId } start
        (sendLoop pkt randId pkt.payload.length fuel fitLen start) := by
  induction fuel generalizing start with
  | zero => omega
  | succ fuel ih =>
      rw [sendLoop, if_pos unsent]
      by_cases final : pkt.payload.length ≤ start + fitLen
      · have ended : sendLoop pkt randId pkt.payload.length fuel (pkt.payload.length - start)
            (start + (pkt.payload.length - start)) = [] := by
          cases fuel with
          | zero => rfl
          | succ fuel => rw [sendLoop, if_neg (by omega)]
        simp only [ge_iff_le, final, decide_true, if_true, ended]
        exact .last (sendIpv4Fragment_piece true aligned (by omega) (by omega) small)
      · simp only [ge_iff_le, final, decide_false, Bool.false_eq_true, if_false]
        refine .more (sendIpv4Fragment_piece false aligned (by omega) fits small) units ?_
        exact ih (Nat.dvd_add aligned units) (by omega) (by omega)

theorem sendLoop_len {pkt : NetPkt} {randId fitLen pktLen fuel : Nat} (fits : fitLen + hdrLen ≤ mtu)
    : ∀ fragment ∈ sendLoop pkt randId pktLen fuel fitLen start, fragment.len ≤ mtu := by
  induction fuel generalizing start fitLen with
  | zero => exact nofun
  | succ fuel ih =>
      rw [sendLoop]
      split
      next unsent =>
        dsimp only
        generalize isLen : (if decide (start + fitLen ≥ pktLen) = true then pktLen - start
          else fitLen) = len
        have shorter : len ≤ fitLen := by
          rw [← isLen]
          split
          next final =>
            have final := of_decide_eq_true final
            omega
          next => exact Nat.le_refl _
        intro fragment member
        rcases List.mem_cons.mp member with rfl | member
        · exact Nat.le_trans (Nat.add_le_add_right shorter _) fits
        · exact ih (by omega) fragment member
      next => exact nofun

/-- What `net_ipv4_send_fragmented_pkt` sends of a packet that it may fragment. -/
theorem sendFragmentedPkt_loop {pkt : NetPkt} (random : Nat) (room : hdrLen + 8 ≤ mtu)
    (allowed : pkt.hdr.doNotFragment = false)
    : ∃ fitLen,
        sendFragmentedPkt pkt random mtu
          = .ok (sendLoop pkt (if random = 0 then 1 else random) (pkt.len - hdrLen)
              (pkt.len - hdrLen + 1) fitLen 0)
        ∧ 8 ∣ fitLen ∧ 0 < fitLen ∧ fitLen + hdrLen ≤ mtu := by
  have isQuotient : ((mtu : Int) - hdrLen).tdiv 8 = ((mtu - hdrLen) / 8 : Nat) := by
    rw [← Int.ofNat_sub (by omega : hdrLen ≤ mtu)]
    rfl
  have positive : ¬ (((mtu - hdrLen) / 8 : Nat) : Int) ≤ 0 := by omega
  refine ⟨(mtu - hdrLen) / 8 * 8, ?_, Nat.dvd_mul_left _ _, by omega, by omega⟩
  unfold sendFragmentedPkt
  dsimp only
  rw [isQuotient, if_neg (by rw [allowed]; nofun), if_neg positive, Int.toNat_natCast]

theorem sendFragmentedPkt_sent {pkt : NetPkt} {random : Nat}
    (isLen : pkt.len = hdrLen + pkt.payload.length) (small : pkt.len < 2 ^ 16)
    (room : hdrLen + 8 ≤ mtu) (sent : sendFragmentedPkt pkt random mtu = .ok fragments)
    : (pkt.payload = [] → fragments = [])
      ∧ (pkt.payload ≠ []
          → Pieces pkt.payload { pkt.key with id := if random = 0 then 1 else random } 0 fragments)
      ∧ ∀ fragment ∈ fragments, fragment.len ≤ mtu := by
  have allowed : pkt.hdr.doNotFragment = false := by
    by_contra forbidden
    rw [Bool.not_eq_false] at forbidden
    rw [sendFragmentedPkt, if_pos forbidden] at sent
    exact nomatch sent
  obtain ⟨fitLen, loop, units, fits, fitting⟩ := sendFragmentedPkt_loop random room allowed
  obtain rfl := Except.ok.inj (loop.symm.trans sent)
  have isDataLen : pkt.len - hdrLen = pkt.payload.length := by omega
  rw [isDataLen]
  refine ⟨?_, ?_, sendLoop_len fitting⟩
  · intro empty
    rw [empty]
    rfl
  · intro data
    exact sendLoop_pieces (by omega) units fits (Nat.dvd_zero 8) (List.length_pos_iff.mpr data)
      (Nat.lt_succ_self _)

end Zephyr.Ipv4
