import Zephyr.Dns.Model

/-! What unpacking reads of a received message and writes to its destination. -/

namespace Zephyr.Dns

open Zephyr.Library

theorem within_cons {size : Nat} {access : Access} {accesses : List Access}
    : Within size (access :: accesses)
      ↔ access.start + access.count ≤ size ∧ Within size accesses :=
  List.forall_mem_cons

theorem within_nil (size : Nat) : Within size [] :=
  List.forall_mem_nil _

-----------------------------------------------------------------------------------------
-- Answers
-----------------------------------------------------------------------------------------

/-- The ten bytes behind the name of the answer lie inside of the message. -/
def RecordInside (message : DnsMsg) : Prop :=
  ∀ fuel dnameLen reads,
    loop (skipTurn message.msg message.answerOffset.toNat
        (message.msgSize.toNat - message.answerOffset.toNat)) fuel {}
      = some (dnameLen, reads)
    → 0 ≤ dnameLen
    → message.answerOffset.toNat + dnameLen.toNat + 10 ≤ message.msgSize.toNat

section

variable {message : DnsMsg}

theorem skip_ends (memory : Nat → UInt8) (offset : Nat) (bufSz : Int)
    : ∃ result, loop (skipTurn memory offset bufSz) (bufSz.toNat + 1) {} = some result := by
  refine loop_ends (fun _ => True) (fun state => (bufSz - state.i).toNat) ?_ trivial (by simp)
  intro state next _ turned
  refine ⟨trivial, ?_⟩
  simp only [skipTurn] at turned
  split_ifs at turned with past isEnd isPointer cut small
  rw [← Sum.inl.inj turned]
  simp only
  omega

theorem skip_within (memory : Nat → UInt8) (offset size : Nat) {fuel : Nat} {dnameLen : Int}
    {reads : List Access}
    (ended : loop (skipTurn memory offset (size - offset)) fuel {} = some (dnameLen, reads))
    : Within size reads := by
  refine loop_invariant (fun state : Skipping => Within size state.reads)
    (fun result : Int × List Access => Within size result.2) ?_ ?_ (within_nil size) ended
  · intro state next within turned
    simp only [skipTurn] at turned
    split_ifs at turned with past isEnd isPointer cut small
    rw [← Sum.inl.inj turned]
    exact within_cons.mpr ⟨by simp only; omega, within⟩
  · intro state result within turned
    simp only [skipTurn] at turned
    split_ifs at turned with past isEnd isPointer cut small
    all_goals rw [← Sum.inr.inj turned]
    · exact within
    all_goals exact within_cons.mpr ⟨by simp only; omega, within⟩

theorem unpackRecord_within {mdns : Bool} {size dnameLen : Nat} {reads : List Access}
    (inside : message.answerOffset.toNat + dnameLen + 10 ≤ size) (within : Within size reads)
    : Within size (unpackRecord mdns message dnameLen reads).reads := by
  have cls : Within size (⟨message.answerOffset.toNat + dnameLen + 2, 2⟩ :: reads) :=
    within_cons.mpr ⟨by simp only; omega, within⟩
  have all : Within size
      (⟨message.answerOffset.toNat + dnameLen, 2⟩ :: ⟨message.answerOffset.toNat + dnameLen + 8, 2⟩
        :: ⟨message.answerOffset.toNat + dnameLen + 4, 4⟩
        :: ⟨message.answerOffset.toNat + dnameLen + 2, 2⟩ :: reads) := by
    simp only [within_cons]
    exact ⟨by omega, by omega, by omega, by omega, within⟩
  simp only [unpackRecord]
  generalize (if mdns = true then _ else _) = isClass
  split_ifs
  · exact within
  · exact cls
  · exact all
  · exact all
  · exact all

theorem dnsUnpackAnswer_inside (mdns : Bool) (message : DnsMsg)
    : ∃ fuel answer,
        dnsUnpackAnswer fuel mdns message = some answer
        ∧ (RecordInside message → Within message.msgSize.toNat answer.reads) := by
  obtain ⟨⟨dnameLen, reads⟩, ended⟩ := skip_ends message.msg message.answerOffset.toNat
    (message.msgSize.toNat - message.answerOffset.toNat)
  have within := skip_within message.msg message.answerOffset.toNat message.msgSize.toNat ended
  refine ⟨_, _, by rw [dnsUnpackAnswer, ended, Option.map_some], fun inside => ?_⟩
  simp only
  split
  · exact within
  · rename_i skipped
    exact unpackRecord_within (inside _ dnameLen reads ended (by omega)) within

end

-----------------------------------------------------------------------------------------
-- Copied names
-----------------------------------------------------------------------------------------

/-- The place that the pointer at `place` leads to. -/
def target (message : DnsMsg) (place : Nat) : Nat :=
  256 * ((message.msg place).toNat % 64) + (message.msg (place + 1)).toNat

/-- There is a pointer at `place`, and it leads to `next`. -/
def PointsTo (message : DnsMsg) (next place : Nat) : Prop :=
  place + 1 < message.msgSize.toNat
  ∧ 63 < (message.msg place).toNat
  ∧ next = target message place

/-- Labels and pointers lead from `pos` to a place. -/
inductive Leads (message : DnsMsg) (pos : Nat) : Nat → Prop where
  | start : Leads message pos pos
  | label {place : Nat} (before : Leads message pos place)
    (inside : place < message.msgSize.toNat) (isLabel : (message.msg place).toNat ≤ 63)
    : Leads message pos (place + (1 + (message.msg place).toNat))
  | pointer {place next : Nat} (before : Leads message pos place)
    (points : PointsTo message next place)
    : Leads message pos next

/-- The name at `pos` has no endless chain of pointers, and its labels lie inside of the message. -/
def NameSound (message : DnsMsg) (pos : Nat) : Prop :=
  ∀ place,
    Leads message pos place
    → Acc (PointsTo message) place
      ∧ (place < message.msgSize.toNat
        → (message.msg place).toNat ≤ 63
        → place + (1 + (message.msg place).toNat) ≤ message.msgSize.toNat)

section

variable {message : DnsMsg} {start size : UInt16}

/-- Where the name leads to, and what has been read and written on the way. -/
structure Copying.Sound (message : DnsMsg) (start size : UInt16) (state : Copying) : Prop where
  leads : Leads message start.toNat state.pos.toNat
  room : state.len ≤ size.toNat
  reads : Within message.msgSize.toNat state.reads
  writes : Within size.toNat state.writes

/-- A turn reads and writes inside, and goes on behind a label or where a pointer leads to. -/
theorem copyTurn_cases {state : Copying} (name : NameSound message start.toNat)
    (sound : state.Sound message start size)
    : (∃ copied,
        copyTurn message size state = .inr copied
        ∧ Within message.msgSize.toNat copied.state.reads
        ∧ Within size.toNat copied.state.writes)
      ∨ ∃ next,
          copyTurn message size state = .inl next
          ∧ next.Sound message start size
          ∧ (next.len = state.len ∧ PointsTo message next.pos.toNat state.pos.toNat
            ∨ state.len < next.len) := by
  obtain ⟨leads, room, reads, writes⟩ := sound
  have labelInside := (name _ leads).2
  simp only [copyTurn, dnsLabelMaxSize]
  by_cases past : message.msgSize ≤ state.pos
  · rw [if_pos past]
    exact .inl ⟨_, rfl, reads, writes⟩
  rw [if_neg past]
  have inside : state.pos.toNat < message.msgSize.toNat :=
    Nat.not_le.mp fun le => past (UInt16.le_iff_toNat_le.mpr le)
  have first : Within message.msgSize.toNat (⟨state.pos.toNat, 1⟩ :: state.reads) :=
    within_cons.mpr ⟨inside, reads⟩
  have byte := (message.msg state.pos.toNat).toNat_lt
  have low := (message.msg (state.pos.toNat + 1)).toNat_lt
  by_cases isPointer : 63 < (message.msg state.pos.toNat).toNat
  · rw [if_pos isPointer]
    by_cases cut : message.msgSize.toNat ≤ state.pos.toNat + 1
    · rw [if_pos cut]
      exact .inl ⟨_, rfl, first, writes⟩
    · rw [if_neg cut]
      have points : PointsTo message
          (UInt16.ofNat (256 * ((message.msg state.pos.toNat).toNat % 64)
            + (message.msg (state.pos.toNat + 1)).toNat)).toNat state.pos.toNat := by
        refine ⟨by omega, isPointer, ?_⟩
        rw [UInt16.toNat_ofNat', target]
        omega
      exact .inr ⟨_, rfl,
        ⟨leads.pointer points, room, within_cons.mpr ⟨by simp only; omega, first⟩, writes⟩,
        .inl ⟨rfl, points⟩⟩
  · rw [if_neg isPointer]
    have isLabel := Nat.not_lt.mp isPointer
    have fits := labelInside inside isLabel
    by_cases few : size.toNat - state.len < 1 + (message.msg state.pos.toNat).toNat
    · rw [if_pos few]
      exact .inl ⟨_, rfl, first, writes⟩
    · rw [if_neg few]
      have copyReads : Within message.msgSize.toNat
          (⟨state.pos.toNat, 1 + (message.msg state.pos.toNat).toNat⟩
            :: ⟨state.pos.toNat, 1⟩ :: state.reads) :=
        within_cons.mpr ⟨fits, first⟩
      have copyWrites : Within size.toNat
          (⟨state.len, 1 + (message.msg state.pos.toNat).toNat⟩ :: state.writes) :=
        within_cons.mpr ⟨by simp only; omega, writes⟩
      by_cases isEnd : (message.msg state.pos.toNat).toNat = 0
      · rw [if_pos isEnd]
        exact .inl ⟨_, rfl, copyReads, copyWrites⟩
      · rw [if_neg isEnd]
        refine .inr ⟨_, rfl, ⟨?_, by simp only; omega, copyReads, copyWrites⟩,
          .inr (by simp only; omega)⟩
        have noWrap : (state.pos + .ofNat (1 + (message.msg state.pos.toNat).toNat)).toNat
            = state.pos.toNat + (1 + (message.msg state.pos.toNat).toNat) := by
          have := message.msgSize.toNat_lt
          rw [UInt16.toNat_add, UInt16.toNat_ofNat']
          omega
        simp only [noWrap]
        exact leads.label inside isLabel

/-- A copy comes to an end: labels use up the destination, and chains of pointers are finite. -/
theorem copy_ends (name : NameSound message start.toNat) {state : Copying}
    (sound : state.Sound message start size)
    : ∃ fuel copied,
        loop (copyTurn message size) fuel state = some copied
        ∧ Within message.msgSize.toNat copied.state.reads
        ∧ Within size.toNat copied.state.writes := by
  -- on the room that is left, and for each room on the chain of pointers
  induction left : size.toNat - state.len using Nat.strong_induction_on generalizing state with
  | _ left byRoom =>
      have chain := (name _ sound.leads).1
      generalize here : state.pos.toNat = place at chain
      induction chain generalizing state with
      | intro place _ byChain =>
          rcases copyTurn_cases name sound with ⟨copied, turned, safe⟩ | ⟨next, turned, kept, moved⟩
          · exact ⟨1, copied, by rw [loop, turned], safe⟩
          have later : ∃ fuel copied,
              loop (copyTurn message size) fuel next = some copied
              ∧ Within message.msgSize.toNat copied.state.reads
              ∧ Within size.toNat copied.state.writes := by
            rcases moved with ⟨same, points⟩ | more
            · exact byChain _ (here ▸ points) kept (by rw [same, left]) rfl
            · have := kept.room
              exact byRoom _ (by omega) kept rfl
          obtain ⟨fuel, copied, ended, safe⟩ := later
          exact ⟨fuel + 1, copied, by rw [loop, turned]; exact ended, safe⟩

end

-----------------------------------------------------------------------------------------
-- Unpacked names and queries
-----------------------------------------------------------------------------------------

section

variable {memory : Nat → UInt8} {maxlen destSize length : Nat}

/-- The reads are inside, and what is written ends where the data end. -/
structure Unpacking.Sound (maxlen length : Nat) (state : Unpacking) : Prop where
  currSrc : state.currSrc < maxlen
  reads : Within maxlen state.reads
  writes
    : ∀ limit, length ≤ limit → (Within limit state.writes ↔ state.data.length ≤ limit)

/-- The same for a result, where a terminator follows the data of a name that has been unpacked. -/
structure Unpacked.Sound (maxlen length : Nat) (unpacked : Unpacked) : Prop where
  reads : Within maxlen unpacked.reads
  writes
    : ∀ limit,
        length ≤ limit
        → (Within limit unpacked.writes
          ↔ unpacked.data.length + (if unpacked.eol.isSome then 1 else 0) ≤ limit)

def Unpacking.left (maxlen : Nat) (state : Unpacking) : Nat :=
  (maxlen - state.loopCheck) * maxlen + (maxlen - state.currSrc)

theorem unpackTurn_cases {state : Unpacking} (sound : state.Sound maxlen length)
    : (∃ unpacked,
        unpackTurn memory maxlen destSize state = .inr unpacked
        ∧ unpacked.Sound maxlen length)
      ∨ ∃ next,
          unpackTurn memory maxlen destSize state = .inl next
          ∧ next.Sound maxlen length
          ∧ next.left maxlen < state.left maxlen := by
  obtain ⟨inside, reads, writes⟩ := sound
  have first : Within maxlen (⟨state.currSrc, 1⟩ :: state.reads) :=
    within_cons.mpr ⟨inside, reads⟩
  simp only [unpackTurn]
  generalize (memory state.currSrc).toNat = val
  by_cases isEnd : val = 0
  · rw [if_pos isEnd]
    refine .inl ⟨_, rfl, first, fun limit above => ?_⟩
    simp only [within_cons, writes limit above, Option.isSome_some, if_true]
    omega
  rw [if_neg isEnd]
  by_cases isPointer : 64 ≤ val
  · rw [if_pos isPointer]
    by_cases cut : maxlen ≤ state.currSrc + 1
    · rw [if_pos cut]
      exact .inl ⟨_, rfl, first, writes⟩
    rw [if_neg cut]
    have second : Within maxlen
        (⟨state.currSrc + 1, 1⟩ :: ⟨state.currSrc, 1⟩ :: state.reads) :=
      within_cons.mpr ⟨by simp only; omega, first⟩
    generalize 256 * (val % 64) + (memory (state.currSrc + 1)).toNat = pos
    by_cases outside : maxlen ≤ pos
    · rw [if_pos outside]
      exact .inl ⟨_, rfl, second, writes⟩
    rw [if_neg outside]
    by_cases tooFar : maxlen ≤ state.loopCheck + 2
    · rw [if_pos tooFar]
      exact .inl ⟨_, rfl, second, writes⟩
    rw [if_neg tooFar]
    refine .inr ⟨_, rfl, ⟨Nat.not_le.mp outside, second, writes⟩, ?_⟩
    -- the count of the loop check goes up, whatever the pointer leads to
    have less : (maxlen - (state.loopCheck + 2) + 2) * maxlen
        = (maxlen - state.loopCheck) * maxlen := by
      rw [show maxlen - (state.loopCheck + 2) + 2 = maxlen - state.loopCheck by omega]
    rw [Nat.add_mul] at less
    simp only [Unpacking.left]
    omega
  · rw [if_neg isPointer]
    by_cases full : destSize ≤ val + 1 ∨ maxlen ≤ state.currSrc + 1 + val
    · rw [if_pos full]
      exact .inl ⟨_, rfl, first, writes⟩
    rw [if_neg full]
    refine .inr ⟨_, rfl, ⟨by simp only; omega, within_cons.mpr ⟨by simp only; omega, first⟩,
      fun limit above => ?_⟩, ?_⟩
    · simp only [within_cons, writes limit above, List.length_append, List.length_cons,
        List.length_map, List.length_range]
      omega
    · have less : (maxlen - (state.loopCheck + (val + 1))) * maxlen
          ≤ (maxlen - state.loopCheck) * maxlen :=
        Nat.mul_le_mul_right _ (by omega)
      simp only [Unpacking.left]
      omega

theorem dnsUnpackName_sound (memory : Nat → UInt8) (maxlen src : Nat) (buf : NetBuf)
    : ∃ fuel unpacked,
        dnsUnpackName fuel memory maxlen src buf = some unpacked
        ∧ unpacked.Sound maxlen buf.data.length := by
  by_cases outside : maxlen ≤ src
  · refine ⟨0, _, by rw [dnsUnpackName, if_pos outside], within_nil _, fun limit above => ?_⟩
    simpa [within_nil] using above
  let state : Unpacking := { currSrc := src, data := buf.data }
  have start : state.Sound maxlen buf.data.length :=
    ⟨Nat.not_le.mp outside, within_nil _, fun limit above => iff_of_true (within_nil _) above⟩
  let turn := unpackTurn memory maxlen (buf.room - buf.data.length)
  have turns {state next : Unpacking} (sound : state.Sound maxlen buf.data.length)
      (turned : turn state = .inl next)
      : next.Sound maxlen buf.data.length ∧ next.left maxlen < state.left maxlen := by
    rcases unpackTurn_cases sound with ⟨_, ended, _⟩ | ⟨later, moved, kept⟩
    · exact absurd (turned.symm.trans ended) (by simp)
    · exact Sum.inl.inj (turned.symm.trans moved) ▸ kept
  obtain ⟨unpacked, ended⟩ :=
    loop_ends (Unpacking.Sound maxlen buf.data.length) (Unpacking.left maxlen) turns start
      (Nat.lt_succ_self _)
  refine ⟨_, unpacked, by rw [dnsUnpackName, if_neg outside]; exact ended, ?_⟩
  refine loop_invariant (Unpacking.Sound maxlen buf.data.length)
    (Unpacked.Sound maxlen buf.data.length) (fun sound turned => (turns sound turned).1) ?_ start
    ended
  intro state result sound turned
  rcases unpackTurn_cases sound with ⟨found, left, safe⟩ | ⟨_, moved, _⟩
  · exact Sum.inr.inj (left.symm.trans turned) ▸ safe
  · exact absurd (turned.symm.trans moved) (by simp)

/-- The four bytes behind the name of a question lie inside of the message. -/
def QuestionInside (message : DnsMsg) (name : Unpacked) : Prop :=
  ∀ eol ∈ name.eol, eol + 4 ≤ message.msgSize.toNat

theorem dnsUnpackQuery_sound (message : DnsMsg) (buf : NetBuf)
    : ∃ fuel query,
        dnsUnpackQuery fuel message buf = some query
        ∧ query.name.Sound message.msgSize.toNat buf.data.length
        ∧ (QuestionInside message query.name → Within message.msgSize.toNat query.reads) := by
  obtain ⟨fuel, name, unpacked, sound⟩ := dnsUnpackName_sound message.msg message.msgSize.toNat
    message.queryOffset.toNat buf
  refine ⟨fuel, _, by rw [dnsUnpackQuery, unpacked, Option.map_some], ?_⟩
  cases isEol : name.eol with
  | none => exact ⟨sound, fun _ => sound.reads⟩
  | some eol =>
      have type (inside : eol + 4 ≤ message.msgSize.toNat)
          : Within message.msgSize.toNat (⟨eol, 2⟩ :: name.reads) :=
        within_cons.mpr ⟨by simp only; omega, sound.reads⟩
      have both (inside : eol + 4 ≤ message.msgSize.toNat)
          : Within message.msgSize.toNat (⟨eol + 2, 2⟩ :: ⟨eol, 2⟩ :: name.reads) :=
        within_cons.mpr ⟨by simp only; omega, type inside⟩
      simp only [unpackQuestion]
      split_ifs
      · exact ⟨sound, fun inside => both (inside eol isEol)⟩
      · exact ⟨sound, fun inside => both (inside eol isEol)⟩
      · exact ⟨sound, fun inside => type (inside eol isEol)⟩

end

/-- Bytes in front of zeros. -/
def bytesAt (start : Nat) (bytes : List UInt8) : Nat → UInt8 :=
  fun place => if start ≤ place then bytes.getD (place - start) 0 else 0

/-- A pointer to itself is followed for ever. -/
theorem copy_endless (fuel : Nat) {state : Copying} (here : state.pos = 0)
    : loop (copyTurn { msg := bytesAt 0 [0xc0], msgSize := 2 } 64) fuel state = none := by
  induction fuel generalizing state with
  | zero => rfl
  | succ fuel ih =>
      have turned : ∃ next,
          copyTurn { msg := bytesAt 0 [0xc0], msgSize := 2 } 64 state = .inl next
          ∧ next.pos = 0 := by
        simp only [copyTurn, here]
        exact ⟨_, rfl, rfl⟩
      obtain ⟨next, moved, same⟩ := turned
      rw [loop, moved]
      exact ih same

end Zephyr.Dns
