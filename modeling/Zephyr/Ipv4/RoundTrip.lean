import Zephyr.Ipv4.Sending

/-! The fragments of a packet arrive in any order, and the packet is passed on with the last of
them.
-/

namespace Zephyr.Ipv4

/-- The packet as it was sent. -/
def NetPkt.plain (pkt : NetPkt) : NetPkt :=
  { pkt with number := 0 }

/-- `reassembly_get` gives a slot with the packets and so many free places. -/
def Gathering (receiver : Receiver) (key : Key) (held : List NetPkt) (free : Nat) : Prop :=
  ∃ index reassembly reass,
    reassemblyGet key receiver.reassembly = some (index, reassembly)
    ∧ reassembly[index]? = some reass
    ∧ reass.pkt = filled held free

/-- Packets are received one after the other. -/
def Receiver.inputAll (receiver : Receiver) (pkts : List NetPkt) : Receiver :=
  pkts.foldl (fun receiver pkt => receiver.input pkt true) receiver

variable {receiver : Receiver} {index : Nat} {reass : Reassembly} {key : Key}
  {reassembly : List Reassembly} {pkt fragment : NetPkt} {front back held fragments : List NetPkt}
  {free : Nat} {data : List UInt8}

/-! ### Fragments in their order -/

instance : Std.Antisymm NetPkt.isBefore where
  antisymm _ _ before after := absurd (Nat.lt_trans before after) (Nat.lt_irrefl _)

theorem insert_sorted (sorted : (front ++ back).Pairwise NetPkt.isBefore)
    (all : ∀ other ∈ front, other.isBefore fragment)
    (stop : ∀ other ∈ back.head?, ¬ other.isBefore fragment)
    (distinct : ∀ other ∈ back, other.hdr.fragmentOffset ≠ fragment.hdr.fragmentOffset)
    : (front ++ fragment :: back).Pairwise NetPkt.isBefore := by
  obtain ⟨early, late, between⟩ := List.pairwise_append.mp sorted
  have behind : ∀ other ∈ back, fragment.isBefore other := by
    cases back with
    | nil => exact nofun
    | cons first rest =>
        have next : fragment.isBefore first := by
          have different := distinct first List.mem_cons_self
          have notBefore := stop first rfl
          simp only [NetPkt.isBefore] at *
          omega
        intro other member
        rcases List.mem_cons.mp member with rfl | member
        · exact next
        · exact Nat.lt_trans next ((List.pairwise_cons.mp late).1 other member)
  refine List.pairwise_append.mpr ⟨early, List.pairwise_cons.mpr ⟨behind, late⟩, ?_⟩
  intro first isFirst other member
  rcases List.mem_cons.mp member with rfl | member
  · exact all first isFirst
  · exact between first isFirst other member

theorem readyFrom_plain (held : List NetPkt) (free expectedOffset : Nat) (more : Bool)
    : readyFrom (filled (held.map NetPkt.plain) free) expectedOffset more
      = readyFrom (filled held free) expectedOffset more := by
  induction held generalizing expectedOffset more with
  | nil => rfl
  | cons first rest ih =>
      have cons (first : NetPkt) (rest : List NetPkt)
          : filled (first :: rest) free = some first :: filled rest free :=
        rfl
      rw [List.map_cons, cons, cons, readyFrom, readyFrom, ih]
      rfl

theorem Pieces.sublist (pieces : Pieces data key 0 fragments) (small : data.length < 2 ^ 16)
    (sorted : held.Pairwise NetPkt.isBefore) (among : (held.map NetPkt.plain).Subperm fragments)
    : (held.map NetPkt.plain).Sublist fragments :=
  List.sublist_of_subperm_of_pairwise among (List.pairwise_map.mpr sorted) (pieces.sorted small)

theorem Pieces.ready_held (pieces : Pieces data key 0 fragments) (small : data.length < 2 ^ 16)
    (sublist : (held.map NetPkt.plain).Sublist fragments) (free : Nat)
    : fragmentsAreReady (filled held free) = if held.length = fragments.length then 1 else 0 := by
  rw [fragmentsAreReady, ← readyFrom_plain, pieces.ready small sublist]
  have complete : held.map NetPkt.plain = fragments ↔ held.length = fragments.length := by
    refine ⟨fun same => ?_, fun same => ?_⟩
    · rw [← same, List.length_map]
    · exact sublist.eq_of_length (by rw [List.length_map, same])
  simp only [complete]

/-! ### One fragment -/

/-- The slot that `reassembly_get` gives is found again, whatever its packets are. -/
theorem reassemblyGet_again {slots : List Reassembly} (slot : List (Option NetPkt))
    (got : reassemblyGet key reassembly = some (index, slots))
    : let after := slots.modify index fun reass => { reass with pkt := slot }
      reassemblyGet key after = some (index, after) := by
  intro after
  have found : after.findIdx? (fun reass => reass.running && reass.key = key) = some index := by
    unfold reassemblyGet at got
    split at got
    next i found =>
      obtain ⟨rfl, rfl⟩ := Prod.mk.inj (Option.some.inj got)
      obtain ⟨inside, matching, earlier⟩ := List.findIdx?_eq_some_iff_getElem.mp found
      refine List.findIdx?_eq_some_iff_getElem.mpr ⟨by simpa [after] using inside, ?_, ?_⟩
      · simpa [after] using matching
      · intro j before
        simpa [after, List.getElem_modify, Nat.ne_of_gt before] using earlier j before
    next missing =>
      obtain ⟨avail, found, pair⟩ := Option.map_eq_some_iff.mp got
      obtain ⟨rfl, rfl⟩ := Prod.mk.inj pair
      obtain ⟨inside, -, -⟩ := List.findIdx?_eq_some_iff_getElem.mp found
      refine List.findIdx?_eq_some_iff_getElem.mpr ⟨by simpa [after] using inside, ?_, ?_⟩
      · simp [after]
      · intro j before
        have bound : j < reassembly.length := Nat.lt_trans before inside
        have none := List.findIdx?_eq_none_iff.mp missing _ (List.getElem_mem bound)
        simpa [after, List.getElem_modify, Nat.ne_of_gt before] using none
  rw [reassemblyGet, found]

theorem handleFragmentHdr_stored {slots : List Reassembly}
    (got : reassemblyGet pkt.key receiver.reassembly = some (index, slots))
    (here : slots[index]? = some reass) (isFilled : reass.pkt = filled (front ++ back) (free + 1))
    (all : ∀ other ∈ front, other.isBefore pkt)
    (stop : ∀ other ∈ back.head?, ¬ other.isBefore pkt)
    (units : pkt.hdr.fragmentMore → ((pkt.len : Int) - hdrLen) % 8 = 0)
    (fits : 0 ≤ fragmentsAreReady (filled (front ++ pkt :: back) free))
    : receiver.handleFragmentHdr pkt true
      = (.ok,
          let stored :=
            ({ receiver with reassembly := slots } : Receiver).setPackets index
              (filled (front ++ pkt :: back) free)
          if fragmentsAreReady (filled (front ++ pkt :: back) free) = 0 then stored
          else stored.reassemblePacket index true) := by
  unfold Receiver.handleFragmentHdr
  rw [got]
  dsimp only
  rw [if_neg fun bad => bad.2 (units bad.1), here]
  dsimp only [Option.map_some, Option.getD_some]
  rw [isFilled, storePacket_filled all stop, if_neg (Nat.succ_ne_zero free)]
  dsimp only
  rw [Nat.add_sub_cancel, if_neg (Int.not_lt.mpr fits)]
  split <;> rfl

theorem input_stored {slots : List Reassembly}
    (isFragment : pkt.hdr.fragmentOffset ≠ 0 ∨ pkt.hdr.fragmentMore)
    (isNumbered : { pkt with number := receiver.received } = fragment)
    (got : reassemblyGet pkt.key receiver.reassembly = some (index, slots))
    (here : slots[index]? = some reass) (isFilled : reass.pkt = filled (front ++ back) (free + 1))
    (all : ∀ other ∈ front, other.isBefore fragment)
    (stop : ∀ other ∈ back.head?, ¬ other.isBefore fragment)
    (units : pkt.hdr.fragmentMore → ((pkt.len : Int) - hdrLen) % 8 = 0)
    (fits : 0 ≤ fragmentsAreReady (filled (front ++ fragment :: back) free))
    : receiver.input pkt true
      = (let stored :=
          ({ receiver with reassembly := slots, received := receiver.received + 1 }
            : Receiver).setPackets index (filled (front ++ fragment :: back) free)
        if fragmentsAreReady (filled (front ++ fragment :: back) free) = 0 then stored
        else stored.reassemblePacket index true) := by
  subst isNumbered
  have handled
      : ({ receiver with received := receiver.received + 1 } : Receiver).handleFragmentHdr
          { pkt with number := receiver.received } true
        = _ :=
    handleFragmentHdr_stored got here isFilled all stop units fits
  unfold Receiver.input
  dsimp only
  rw [if_pos isFragment, handled]

theorem Pieces.isFragment {fragments : List NetPkt} (pieces : Pieces data key 0 fragments)
    (small : data.length < 2 ^ 16) (several : fragments.length ≠ 1) (member : pkt ∈ fragments)
    : pkt.hdr.fragmentOffset ≠ 0 ∨ pkt.hdr.fragmentMore := by
  cases pieces with
  | last => exact absurd rfl several
  | more piece _ behind =>
      rcases List.mem_cons.mp member with rfl | member
      · exact .inr (piece.fragmentMore small)
      · have later := behind.start_le small pkt member
        have nonempty := piece.nonempty
        exact .inl (by omega)

/-- The fragments that have arrived are held in their order, and nothing has been passed on. -/
def Progress (key : Key) (places : Nat) (passed arrived : List NetPkt) (receiver : Receiver)
    : Prop :=
  ∃ held free,
    Gathering receiver key held free
    ∧ held.Pairwise NetPkt.isBefore
    ∧ (held.map NetPkt.plain).Perm arrived
    ∧ places ≤ arrived.length + free
    ∧ receiver.passed = passed

/-- The packet has these data and is no fragment. -/
structure Delivers (data : List UInt8) (pkt : NetPkt) : Prop where
  payload : pkt.payload = data
  len : pkt.len = hdrLen + data.length
  hdrLen : pkt.hdr.len = Ipv4.hdrLen + data.length
  offset : pkt.hdr.offset = 0

theorem Pieces.delivers {first : NetPkt} {rest : List NetPkt} (pieces : Pieces data key 0 fragments)
    (small : hdrLen + data.length < 2 ^ 16)
    (complete : (first :: rest).map NetPkt.plain = fragments)
    : Delivers data (first.attach rest).whole := by
  have payload : first.payload ++ rest.flatMap NetPkt.payload = data := by
    have payload := pieces.payload
    rw [← complete, List.flatMap_map] at payload
    exact payload
  have len : first.len + (rest.map fun pkt => pkt.len - hdrLen).sum = hdrLen + data.length := by
    obtain ⟨_, _, _, -, piece, -⟩ := pieces.piece first.plain (complete ▸ List.mem_cons_self)
    have whole : first.len = _ := piece.len
    have length := pieces.length
    rw [← complete, List.map_map] at length
    have sum : (first.len - hdrLen) + (rest.map fun pkt => pkt.len - hdrLen).sum
        = data.length :=
      (Nat.zero_add _).symm.trans length
    omega
  refine ⟨payload, len, ?_, rfl⟩
  exact (Nat.mod_eq_of_lt (by rw [← len] at small; exact small)).trans len

theorem Pieces.distinct {arrived : List NetPkt} (pieces : Pieces data key 0 fragments)
    (small : data.length < 2 ^ 16) (among : (arrived ++ [pkt]).Subperm fragments)
    : ∀ other ∈ arrived, other.hdr.fragmentOffset ≠ pkt.hdr.fragmentOffset := by
  obtain ⟨ordered, perm, sublist⟩ := among
  have different : ordered.Pairwise fun first second =>
      first.hdr.fragmentOffset ≠ second.hdr.fragmentOffset :=
    ((pieces.sorted small).sublist sublist).imp fun before => Nat.ne_of_lt before
  rw [perm.pairwise_iff Ne.symm] at different
  intro other member
  exact (List.pairwise_append.mp different).2.2 other member pkt (List.mem_singleton_self _)

theorem Pieces.step {arrived passed : List NetPkt} {places : Nat}
    (pieces : Pieces data key 0 fragments) (small : hdrLen + data.length < 2 ^ 16)
    (several : fragments.length ≠ 1) (room : fragments.length ≤ places)
    (progress : Progress key places passed arrived receiver)
    (among : (arrived ++ [pkt]).Subperm fragments)
    : if (arrived ++ [pkt]).length = fragments.length then
        ∃ delivered,
          (receiver.input pkt true).passed = delivered :: passed ∧ Delivers data delivered
      else Progress key places passed (arrived ++ [pkt]) (receiver.input pkt true) := by
  obtain ⟨held, free, ⟨index, slots, reass, got, here, isFilled⟩, sorted, perm, enough, isPassed⟩
    := progress
  have short : data.length < 2 ^ 16 := by omega
  have member : pkt ∈ fragments :=
    among.subset (List.mem_append_right _ (List.mem_singleton_self _))
  obtain ⟨offset, size, more, -, piece, units⟩ := pieces.piece pkt member
  have isFragment := pieces.isFragment short several member
  generalize isNumbered : { pkt with number := receiver.received } = numbered
  have isHdr : numbered.hdr = pkt.hdr := by rw [← isNumbered]
  have isPlain : numbered.plain = pkt := by
    rw [← isNumbered, NetPkt.plain, ← piece.number]
  obtain ⟨front, back, rfl, all, stop⟩ := exists_split held numbered
  have arrives : ((front ++ numbered :: back).map NetPkt.plain).Perm (arrived ++ [pkt]) := by
    rw [List.map_append, List.map_cons, isPlain]
    refine List.perm_middle.trans (List.Perm.trans ?_ (List.perm_append_singleton _ _).symm)
    rw [← List.map_append]
    exact perm.cons pkt
  have distinct : ∀ other ∈ back, other.hdr.fragmentOffset ≠ numbered.hdr.fragmentOffset := by
    intro other isBack
    have isArrived : other.plain ∈ arrived :=
      perm.mem_iff.mp (List.mem_map_of_mem (List.mem_append_right _ isBack))
    rw [isHdr]
    exact pieces.distinct short among other.plain isArrived
  have sorted := insert_sorted sorted all stop distinct
  have count : (front ++ numbered :: back).length = (arrived ++ [pkt]).length := by
    rw [← arrives.length_eq, List.length_map]
  have few := among.length_le
  rw [List.length_append, List.length_singleton] at few
  obtain ⟨free, rfl⟩ : ∃ fewer, free = fewer + 1 := ⟨free - 1, by omega⟩
  have sublist := pieces.sublist short sorted (arrives.subperm.trans among)
  have isReady := pieces.ready_held short sublist free
  have isUnits : pkt.hdr.fragmentMore → ((pkt.len : Int) - hdrLen) % 8 = 0 := by
    rw [piece.fragmentMore short, piece.len]
    intro isMore
    have units := units isMore
    omega
  have isInput := input_stored isFragment isNumbered (piece.key ▸ got) here isFilled all stop
    isUnits (by rw [isReady]; split <;> decide)
  have isSlot
      : (slots.modify index fun reass =>
            { reass with pkt := filled (front ++ numbered :: back) free })[index]?
        = some { reass with pkt := filled (front ++ numbered :: back) free } := by
    rw [List.getElem?_modify_eq, here]
    rfl
  rw [isInput]
  dsimp only
  by_cases complete : (arrived ++ [pkt]).length = fragments.length
  · rw [count, if_pos complete] at isReady
    rw [if_pos complete, isReady, if_neg (by decide)]
    obtain ⟨first, rest, isCons⟩ : ∃ first rest, front ++ numbered :: back = first :: rest :=
      List.exists_cons_of_ne_nil (by simp)
    have whole := readyFrom_filled (isReady ▸ Int.one_pos)
    have isAll := sublist.eq_of_length (by rw [List.length_map, count, complete])
    rw [isCons] at isSlot whole isAll ⊢
    generalize isStored : Receiver.setPackets _ index (filled (first :: rest) free) = stored
    have slot : stored.reassembly[index]?
        = some { reass with pkt := filled (first :: rest) free } :=
      isStored ▸ isSlot
    have before : stored.passed = passed := isStored ▸ isPassed
    obtain ⟨places, reassembled⟩ := reassemblePacket_filled slot rfl whole true
    refine ⟨(first.attach rest).whole, ?_, pieces.delivers small isAll⟩
    rw [reassembled, ← before]
    rfl
  · rw [count, if_neg complete] at isReady
    rw [if_neg complete, isReady, if_pos rfl]
    refine ⟨front ++ numbered :: back, free, ?_, sorted, arrives, ?_, isPassed⟩
    · exact ⟨index, _, _, reassemblyGet_again _ got, isSlot, rfl⟩
    · rw [List.length_append, List.length_singleton]
      omega

/-! ### All fragments -/

theorem Receiver.inputAll_concat (receiver : Receiver) (front : List NetPkt) (last : NetPkt)
    : receiver.inputAll (front ++ [last]) = (receiver.inputAll front).input last true :=
  List.foldl_append

/-- Some of the fragments have arrived, by induction on how many. -/
theorem Pieces.progress {places : Nat} (pieces : Pieces data key 0 fragments)
    (small : hdrLen + data.length < 2 ^ 16) (several : fragments.length ≠ 1)
    (room : fragments.length ≤ places) (empty : Gathering receiver key [] places)
    (arrived : List NetPkt) (among : arrived.Subperm fragments)
    (incomplete : arrived.length < fragments.length)
    : Progress key places receiver.passed arrived (receiver.inputAll arrived) := by
  induction arrived using List.reverseRecOn with
  | nil => exact ⟨[], places, empty, .nil, .refl [], Nat.le_add_left _ _, rfl⟩
  | append_singleton front last ih =>
      have fewer := (List.sublist_append_left front [last]).subperm.trans among
      have lengths : (front ++ [last]).length = front.length + 1 := List.length_append
      have progress := ih fewer (by omega)
      have stepped := pieces.step small several room progress among
      rw [if_neg (by omega)] at stepped
      rw [Receiver.inputAll_concat]
      exact stepped

theorem Piece.delivers (piece : Piece data key 0 (data.length - 0) false pkt)
    (small : data.length < 2 ^ 16)
    : ∃ delivered,
        (receiver.input pkt true).passed = delivered :: receiver.passed
        ∧ Delivers data delivered := by
  have isWhole : ¬ (pkt.hdr.fragmentOffset ≠ 0 ∨ pkt.hdr.fragmentMore) := by
    simp [piece.fragmentOffset small, piece.fragmentMore small]
  refine ⟨{ pkt with number := receiver.received }, ?_, ?_, piece.len, piece.hdrLen, piece.offset⟩
  · unfold Receiver.input
    dsimp only
    rw [if_neg isWhole]
  · simpa using piece.payload

theorem Pieces.received {places : Nat} {last : NetPkt} (pieces : Pieces data key 0 fragments)
    (small : hdrLen + data.length < 2 ^ 16) (room : fragments.length ≤ places)
    (empty : Gathering receiver key [] places) (order : (front ++ [last]).Perm fragments)
    : (∀ early, early <+: front → (receiver.inputAll early).passed = receiver.passed)
      ∧ ∃ delivered,
          (receiver.inputAll (front ++ [last])).passed = delivered :: receiver.passed
          ∧ Delivers data delivered := by
  have lengths : front.length + 1 = fragments.length := by
    rw [← order.length_eq, List.length_append, List.length_singleton]
  by_cases several : fragments.length ≠ 1
  · have progress (early : List NetPkt) (isEarly : early <+: front) := by
      have fewer := isEarly.length_le
      have among := (isEarly.sublist.trans (List.sublist_append_left front [last])).subperm.trans
        order.subperm
      exact pieces.progress small several room empty early among (by omega)
    refine ⟨?_, ?_⟩
    · intro early isEarly
      obtain ⟨_, _, -, -, -, -, passed⟩ := progress early isEarly
      exact passed
    · have stepped := pieces.step small several room (progress front List.prefix_rfl) order.subperm
      rw [if_pos order.length_eq] at stepped
      rw [Receiver.inputAll_concat]
      exact stepped
  · obtain rfl : front = [] := List.length_eq_zero_iff.mp (by omega)
    cases pieces with
    | last piece =>
        obtain ⟨⟩ := List.singleton_perm_singleton.mp order
        refine ⟨?_, piece.delivers (by omega)⟩
        intro early isEarly
        rw [List.prefix_nil.mp isEarly]
        rfl
    | more _ _ behind =>
        have some := List.length_pos_iff.mpr behind.ne_nil
        rw [List.length_cons] at several
        omega

/-- The key of the fragments of a packet. -/
def fragmentKey (pkt : NetPkt) (random : Nat) : Key :=
  { pkt.key with id := if random = 0 then 1 else random }

/-- Fragments of a packet that arrive in any order, at a receiver that has an empty slot for them,
are put together to the packet again.
-/
theorem fragments_reassembled {random mtu : Nat} (isLen : pkt.len = hdrLen + pkt.payload.length)
    (small : pkt.len ≤ 65535) (mtuRoom : hdrLen + 8 ≤ mtu)
    : (pkt.hdr.doNotFragment = false
        → ∃ fragments, sendFragmentedPkt pkt random mtu = .ok fragments)
      ∧ ∀ fragments,
          sendFragmentedPkt pkt random mtu = .ok fragments
          → (pkt.payload ≠ [] → fragments ≠ [])
            ∧ (∀ fragment ∈ fragments,
                fragment.len ≤ mtu
                ∧ ∃ start,
                    8 ∣ start
                    ∧ fragment.hdr.fragmentOffset = start
                    ∧ fragment.payload = (pkt.payload.drop start).take (fragment.len - hdrLen))
            ∧ ∀ receiver places front last,
                Gathering receiver (fragmentKey pkt random) [] places
                → fragments.length ≤ places
                → (front ++ [last]).Perm fragments
                → (∀ early, early <+: front → (receiver.inputAll early).passed = receiver.passed)
                  ∧ ∃ delivered,
                      (receiver.inputAll (front ++ [last])).passed = delivered :: receiver.passed
                      ∧ delivered.payload = pkt.payload
                      ∧ delivered.hdr.len = pkt.len
                      ∧ delivered.hdr.offset = 0 := by
  refine ⟨?_, ?_⟩
  · intro allowed
    obtain ⟨fitLen, sent, -⟩ := sendFragmentedPkt_loop random mtuRoom allowed
    exact ⟨_, sent⟩
  intro fragments sent
  obtain ⟨nothing, pieces, fits⟩ := sendFragmentedPkt_sent isLen (by omega) mtuRoom sent
  by_cases empty : pkt.payload = []
  · rw [nothing empty]
    refine ⟨fun data => absurd empty data, nofun, ?_⟩
    intro _ _ front last _ _ order
    exact absurd order.length_eq (by simp)
  have pieces := pieces empty
  refine ⟨fun _ => pieces.ne_nil, ?_, ?_⟩
  · intro fragment member
    obtain ⟨start, size, more, -, piece, -⟩ := pieces.piece fragment member
    refine ⟨fits fragment member, start, piece.aligned, piece.fragmentOffset (by omega), ?_⟩
    rw [piece.len, Nat.add_sub_cancel_left]
    exact piece.payload
  · intro receiver places front last isEmpty room order
    obtain ⟨early, delivered, passed, delivers⟩ :=
      pieces.received (by omega) room isEmpty order
    refine ⟨early, delivered, passed, delivers.payload, ?_, delivers.offset⟩
    rw [delivers.hdrLen, isLen]

/-- A packet that is sent in three fragments for an MTU of 28. -/
def threeUnits : NetPkt :=
  { hdr := ⟨0, 1, 2, 17, 0, 40⟩, len := 40, payload := (List.range 20).map UInt8.ofNat }

theorem threeUnits_reassembled
    : ∃ fragments,
        sendFragmentedPkt threeUnits 5 28 = .ok fragments
        ∧ fragments.length = 3
        ∧ ∀ front last,
            (front ++ [last]).Perm fragments
            → ∃ delivered,
                ((initial 1 4).inputAll (front ++ [last])).passed = [delivered]
                ∧ delivered.payload = threeUnits.payload := by
  obtain ⟨sends, reassembles⟩ :=
    @fragments_reassembled threeUnits 5 28 rfl (by decide) (by decide)
  obtain ⟨fragments, sent⟩ := sends (by decide)
  have count : fragments.length = 3 := by
    have counts : (sendFragmentedPkt threeUnits 5 28).map List.length = .ok 3 := by decide
    rw [sent] at counts
    exact Except.ok.inj counts
  refine ⟨fragments, sent, count, ?_⟩
  intro front last order
  have gathering : Gathering (initial 1 4) (fragmentKey threeUnits 5) [] 4 :=
    ⟨0, _, _, rfl, rfl, rfl⟩
  obtain ⟨-, delivered, passed, payload, -⟩ :=
    (reassembles fragments sent).2.2 (initial 1 4) 4 front last gathering (by omega) order
  exact ⟨delivered, passed, payload⟩

end Zephyr.Ipv4
