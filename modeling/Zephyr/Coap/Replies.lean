import Zephyr.Coap.Finding

/-! Responses for pending requests: `coap_reply_init` and `coap_response_received`.

Above them, what a client expects: a response belongs to the request with its token, and of the
notifications for a request, only those newer than the last one count. Newer is the order of
24-bit serial numbers of RFC 7641.
-/

namespace Zephyr.Coap

open Zephyr.Library

/-- `COAP_MAKE_RESPONSE_CODE` -/
def makeResponseCode (clas det : UInt8) : UInt8 :=
  clas <<< 5 ||| det

/-- The codes that `coap_header_get_code` knows: methods, responses and `COAP_CODE_EMPTY` -/
def knownCodes : List UInt8 :=
  [1, 2, 3, 4, 5, 6, 7]
    ++ [0, 1, 2, 3, 4, 5, 31].map (makeResponseCode 2)
    ++ [0, 1, 2, 3, 4, 5, 6, 8, 9, 12, 13, 15, 22, 29].map (makeResponseCode 4)
    ++ [0, 1, 2, 3, 4, 5].map (makeResponseCode 5)
    ++ [0]

/-- `coap_header_get_code` -/
def coapHeaderGetCode (cpkt : Packet) : UInt8 :=
  if cpkt.data.getD 1 0 ∈ knownCodes then cpkt.data.getD 1 0 else 0

/-- `is_empty_message` -/
def isEmptyMessage (cpkt : Packet) : Bool :=
  cpkt.data.getD 1 0 == 0

/-- `coap_packet_is_request` -/
def coapPacketIsRequest (cpkt : Packet) : Bool :=
  coapHeaderGetCode cpkt &&& ~~~0x07 == 0

/-- `coap_header_get_id` -/
def coapHeaderGetId (cpkt : Packet) : Nat :=
  (cpkt.data.getD 2 0).toNat * 2 ^ 8 + (cpkt.data.getD 3 0).toNat

/-- `coap_header_get_token`: the bytes that are copied -/
def coapHeaderGetToken (cpkt : Packet) : List UInt8 :=
  let tkl := (cpkt.data.getD 0 0 &&& 0x0F).toNat
  if 8 < tkl then [] else (cpkt.data.drop basicHeaderSize).take tkl

/-- `coap_option_value_to_int` as an `int` -/
def coapOptionValueToInt (option : Opt) : Int :=
  match option.value with
  | [a] => a.toNat
  | [a, b] => a.toNat * 2 ^ 8 + b.toNat
  | [a, b, c] => a.toNat * 2 ^ 16 + b.toNat * 2 ^ 8 + c.toNat
  | [a, b, c, d] =>
      Int.bmod (a.toNat * 2 ^ 24 + b.toNat * 2 ^ 16 + c.toNat * 2 ^ 8 + d.toNat) (2 ^ 32)
  | _ => 0

/-- `-ENOENT` -/
def enoent : Int := -2

/-- `coap_get_option_int` -/
def coapGetOptionInt (valueSize : Nat) (cpkt : Packet) (code : Nat) : Int :=
  match coapFindOptions valueSize cpkt code [{}] with
  | .error _ => enoent
  | .ok (count, options) => if count = 0 then enoent else coapOptionValueToInt (options.getD 0 {})

/-- `COAP_OPTION_OBSERVE` -/
def observe : Nat := 6

/-- `COAP_RESPONSE_CODE_CONTINUE` -/
def continueCode : UInt8 := makeResponseCode 2 31

/-- `struct coap_reply` with the bytes of its token, those behind `tkl` too -/
structure Reply where
  age : Int
  id : Nat
  token : List UInt8
  tkl : Nat
  deriving DecidableEq, Repr

/-- `coap_reply_init` -/
def coapReplyInit (reply : Reply) (request : Packet) : Reply :=
  let token := coapHeaderGetToken request
  { age := -1
    id := coapHeaderGetId request
    token := overwrite reply.token 0 token
    tkl := token.length }

/-- `coap_age_is_newer` -/
def coapAgeIsNewer (v1 v2 : Int) : Bool :=
  (v1 < v2 ∧ v2 - v1 < 2 ^ 23) ∨ (v1 > v2 ∧ v1 - v2 > 2 ^ 23)

/-- Which entry is returned, and whether the response was in order and is taken over -/
structure Handed where
  index : Nat
  accepted : Bool
  /-- Whether the reply function was called -/
  replied : Bool
  deriving DecidableEq, Repr

/-- The entry does not match the response. -/
def Reply.passedOver (r : Reply) (response : Packet) : Bool :=
  let token := coapHeaderGetToken response
  (r.id = 0 ∧ r.tkl = 0) ∨ (r.id ≠ coapHeaderGetId response ∧ token.length = 0)
    ∨ (0 < token.length ∧ r.token.take token.length ≠ token)

/-- The loop of `coap_response_received`, from an index on -/
def receiveLoop (valueSize : Nat) (response : Packet)
    : Nat → List Reply → Option Handed × List Reply
  | _, [] => (none, [])
  | i, r :: replies =>
      if r.passedOver response then
        let (handed, replies) := receiveLoop valueSize response (i + 1) replies
        (handed, r :: replies)
      else
        let age := coapGetOptionInt valueSize response observe
        let inOrder : Bool := age = enoent ∨ coapAgeIsNewer r.age age
        let replied := inOrder && coapHeaderGetCode response != continueCode
        (some ⟨i, inOrder, replied⟩, (if inOrder then { r with age := age } else r) :: replies)

/-- `coap_response_received` -/
def coapResponseReceived (valueSize : Nat) (response : Packet) (replies : List Reply)
    : Option Handed × List Reply :=
  if !isEmptyMessage response && coapPacketIsRequest response then (none, replies)
  else receiveLoop valueSize response 0 replies

/-- One response after the other -/
def receiveAll (valueSize : Nat) : List Packet → List Reply → List (Option Handed)
  | [], _ => []
  | response :: responses, replies =>
      let (handed, replies) := coapResponseReceived valueSize response replies
      handed :: receiveAll valueSize responses replies

-----------------------------------------------------------------------------------------
-- What a client expects
-----------------------------------------------------------------------------------------

/-- A request that waits for responses, with the number of the last notification for it. -/
structure Pending where
  token : List UInt8
  id : Nat
  last : Option Nat := none
  deriving DecidableEq, Repr

/-- The request of a packet -/
def Pending.ofRequest (request : Packet) : Pending :=
  { token := coapHeaderGetToken request, id := coapHeaderGetId request }

/-- The response has the token of the request, and its message id if the token is empty. A
request with neither is not waited for.
-/
def Pending.answeredBy (pending : Pending) (response : Packet) : Bool :=
  pending.token = coapHeaderGetToken response
    ∧ (pending.token = [] → pending.id = coapHeaderGetId response ∧ pending.id ≠ 0)

/-- The order of serial numbers with 24 bits -/
def newer24 (last number : Nat) : Bool :=
  0 < (number + 2 ^ 24 - last) % 2 ^ 24 ∧ (number + 2 ^ 24 - last) % 2 ^ 24 < 2 ^ 23

/-- The first notification and newer ones count, and so do responses that are none. -/
def Pending.accepts (pending : Pending) (age : Int) : Bool :=
  match pending.last with
  | none => true
  | some last => age = enoent ∨ newer24 last age.toNat

/-- The request after a response of this age -/
def Pending.after (pending : Pending) (age : Int) : Pending :=
  if age ≠ enoent ∧ pending.accepts age then { pending with last := some age.toNat } else pending

/-- The first request that the response is for -/
def expectLoop (valueSize : Nat) (response : Packet)
    : Nat → List Pending → Option Handed × List Pending
  | _, [] => (none, [])
  | i, pending :: others =>
      if pending.answeredBy response then
        let age := coapGetOptionInt valueSize response observe
        let accepted := pending.accepts age
        (some ⟨i, accepted, accepted && coapHeaderGetCode response != continueCode⟩,
          pending.after age :: others)
      else
        let (handed, others) := expectLoop valueSize response (i + 1) others
        (handed, pending :: others)

def expect (valueSize : Nat) (response : Packet) (pendings : List Pending)
    : Option Handed × List Pending :=
  if !isEmptyMessage response && coapPacketIsRequest response then (none, pendings)
  else expectLoop valueSize response 0 pendings

def expectAll (valueSize : Nat) : List Packet → List Pending → List (Option Handed)
  | [], _ => []
  | response :: responses, pendings =>
      let (handed, pendings) := expect valueSize response pendings
      handed :: expectAll valueSize responses pendings

/-- The age is none or a number of 24 bits. The first number for a request is less than
`2 ^ 23 - 2`, and there is one in every response behind it.
-/
structure AgeSuits (age : Int) (last : Option Nat) : Prop where
  isAge : age = enoent ∨ 0 ≤ age ∧ age < 2 ^ 24
  isFirst : last = none → age < 2 ^ 23 - 2
  isLater : last ≠ none → age ≠ enoent

/-- Tokens have one length, and the age suits the request that the response is for. -/
structure Suits (valueSize : Nat) (response : Packet) (pending : Pending) : Prop where
  sameLength : pending.token.length = (coapHeaderGetToken response).length
  ageSuits : pending.answeredBy response
    → AgeSuits (coapGetOptionInt valueSize response observe) pending.last

/-- Every response suits the requests as they are when it arrives. -/
def SuitAll (valueSize : Nat) : List Packet → List Pending → Prop
  | [], _ => True
  | response :: responses, pendings =>
      (∀ pending ∈ pendings, Suits valueSize response pending)
        ∧ SuitAll valueSize responses (expect valueSize response pendings).2

-----------------------------------------------------------------------------------------
-- The code does what is expected
-----------------------------------------------------------------------------------------

/-- The age that an entry has after the last notification for its request -/
def IsAge (age : Int) : Option Nat → Prop
  | none => age = -1 ∨ age = enoent
  | some last => age = last ∧ last < 2 ^ 24

/-- The entry is for the request. -/
structure Follows (pending : Pending) (r : Reply) : Prop where
  id : r.id = pending.id
  tkl : r.tkl = pending.token.length
  token : r.token.take pending.token.length = pending.token
  age : IsAge r.age pending.last

variable {valueSize : Nat} {pending : Pending} {r : Reply} {response : Packet} {age : Int}

theorem follows_coapReplyInit (reply : Reply) (request : Packet)
    : Follows (.ofRequest request) (coapReplyInit reply request) where
  id := rfl
  tkl := rfl
  token := by simp [coapReplyInit, Pending.ofRequest, overwrite]
  age := .inl rfl

theorem Follows.passedOver_iff (follows : Follows pending r)
    (sameLength : pending.token.length = (coapHeaderGetToken response).length)
    : r.passedOver response ↔ ¬pending.answeredBy response := by
  have isId := follows.id
  have isTkl := follows.tkl
  have isToken := follows.token
  simp only [Reply.passedOver, Pending.answeredBy, decide_eq_true_eq]
  rw [← sameLength, isToken, isTkl, isId]
  by_cases isEmpty : pending.token = []
  · rw [isEmpty] at sameLength ⊢
    rw [List.length_eq_zero_iff.mp sameLength.symm]
    simp only [List.length_nil, and_true, true_and, Nat.lt_irrefl, false_and, or_false,
      true_imp_iff]
    tauto
  · have isPositive := List.length_pos_iff.mpr isEmpty
    simp [isEmpty, isPositive]

theorem IsAge.accepts (isAge : IsAge r.age pending.last) (suits : AgeSuits age pending.last)
    : (age = enoent ∨ coapAgeIsNewer r.age age) ↔ pending.accepts age := by
  have isAge' := suits.isAge
  unfold Pending.accepts coapAgeIsNewer
  cases isLast : pending.last with
  | none =>
      have isFirst := suits.isFirst isLast
      rw [isLast] at isAge
      simp only [decide_eq_true_eq, iff_true]
      unfold IsAge enoent at isAge
      unfold enoent at isAge' ⊢
      omega
  | some last =>
      have isLater := suits.isLater (by simp [isLast])
      rw [isLast] at isAge
      obtain ⟨isAge, isSmall⟩ := isAge
      unfold enoent at isAge' isLater ⊢
      simp only [newer24, decide_eq_true_eq]
      omega

theorem Follows.after (follows : Follows pending r) (suits : AgeSuits age pending.last)
    : Follows (pending.after age) (if pending.accepts age then { r with age := age } else r) := by
  unfold Pending.after
  by_cases accepts : pending.accepts age
  · rw [if_pos accepts]
    by_cases isNone : age = enoent
    · rw [if_neg (by simp [isNone])]
      have isFirst : pending.last = none := by
        by_contra isLater
        exact suits.isLater isLater isNone
      exact ⟨follows.id, follows.tkl, follows.token, isFirst ▸ .inr isNone⟩
    · rw [if_pos ⟨isNone, accepts⟩]
      obtain ⟨isPositive, isSmall⟩ := suits.isAge.resolve_left isNone
      refine ⟨follows.id, follows.tkl, follows.token, ?_, ?_⟩
      · exact (Int.toNat_of_nonneg isPositive).symm
      · omega
  · rw [if_neg accepts, if_neg fun both => accepts both.2]
    exact follows

/-- A response is handed to the same entry as expected, and the entries still follow. -/
theorem receiveLoop_expected {pendings : List Pending} {replies : List Reply} {i : Nat}
    (follow : List.Forall₂ Follows pendings replies)
    (suit : ∀ pending ∈ pendings, Suits valueSize response pending)
    : (receiveLoop valueSize response i replies).1 = (expectLoop valueSize response i pendings).1
      ∧ List.Forall₂ Follows (expectLoop valueSize response i pendings).2
        (receiveLoop valueSize response i replies).2 := by
  induction follow generalizing i with
  | nil => exact ⟨rfl, .nil⟩
  | @cons pending r pendings replies follows others fromOthers =>
      have suits := suit pending List.mem_cons_self
      have passed := follows.passedOver_iff suits.sameLength
      have suit' := fun other isOther => suit other (List.mem_cons_of_mem pending isOther)
      rw [receiveLoop, expectLoop]
      by_cases answered : pending.answeredBy response
      · rw [if_neg fun over' => passed.mp over' answered, if_pos answered]
        have ageSuits := suits.ageSuits answered
        have accepts := follows.age.accepts ageSuits
        dsimp only
        simp only [accepts, Bool.decide_eq_true]
        exact ⟨trivial, .cons (follows.after ageSuits) others⟩
      · rw [if_pos (passed.mpr answered), if_neg answered]
        exact ⟨(fromOthers suit').1, .cons follows (fromOthers suit').2⟩

theorem receiveAll_expected {responses : List Packet} {pendings : List Pending}
    {replies : List Reply} (follow : List.Forall₂ Follows pendings replies)
    (suit : SuitAll valueSize responses pendings)
    : receiveAll valueSize responses replies = expectAll valueSize responses pendings := by
  induction responses generalizing pendings replies with
  | nil => rfl
  | cons response responses fromRest =>
      obtain ⟨suits, suitRest⟩ := suit
      have step : (coapResponseReceived valueSize response replies).1
            = (expect valueSize response pendings).1
          ∧ List.Forall₂ Follows (expect valueSize response pendings).2
            (coapResponseReceived valueSize response replies).2 := by
        unfold coapResponseReceived expect
        split_ifs
        · exact ⟨rfl, follow⟩
        · exact receiveLoop_expected follow suits
      rw [receiveAll, expectAll]
      dsimp only
      rw [step.1, fromRest step.2 suitRest]

/-- **Responses go to the requests with their tokens**, and of the notifications, the first one and
newer ones are taken over, for any array of requests and any run of responses that suits it.
-/
theorem responses_handed_as_expected (valueSize : Nat) (entries : List (Reply × Packet))
    (responses : List Packet)
    (suit : SuitAll valueSize responses (entries.map fun entry => .ofRequest entry.2))
    : receiveAll valueSize responses (entries.map fun entry => coapReplyInit entry.1 entry.2)
        = expectAll valueSize responses (entries.map fun entry => .ofRequest entry.2) := by
  refine receiveAll_expected ?_ suit
  rw [List.forall₂_map_left_iff, List.forall₂_map_right_iff, List.forall₂_same]
  exact fun entry _ => follows_coapReplyInit entry.1 entry.2

/-- An entry that was not used before -/
def Reply.unused : Reply :=
  { age := 0, id := 0, token := List.replicate 8 0, tkl := 0 }

/-- A request with the token 1, and a notification for it -/
def observeRequest : Packet :=
  { data := [0x41, 1, 0, 7, 1, 0x60], maxLen := 6, hdrLen := 5 }

def notification (number : UInt8) : Packet :=
  { data := [0x51, 0x45, 0, 8, 1, 0x61, number], maxLen := 7, hdrLen := 5 }

theorem notifications_handed
    : receiveAll 12 [notification 5, notification 4, notification 9]
          [coapReplyInit .unused observeRequest]
        = [some ⟨0, true, true⟩, some ⟨0, false, false⟩, some ⟨0, true, true⟩] := by
  have first : (expect 12 (notification 5) [.ofRequest observeRequest]).2 = [⟨[1], 7, some 5⟩] := by
    decide
  have second : (expect 12 (notification 4) [⟨[1], 7, some 5⟩]).2 = [⟨[1], 7, some 5⟩] := by decide
  refine (responses_handed_as_expected 12 [(.unused, observeRequest)] _ ?_).trans (by decide)
  refine ⟨?_, ?_⟩
  · exact List.forall_mem_singleton.mpr ⟨by decide, fun _ => ⟨by decide, by decide, by decide⟩⟩
  rw [List.map_singleton, first]
  refine ⟨?_, ?_⟩
  · exact List.forall_mem_singleton.mpr ⟨by decide, fun _ => ⟨by decide, by decide, by decide⟩⟩
  rw [second]
  refine ⟨?_, trivial⟩
  exact List.forall_mem_singleton.mpr ⟨by decide, fun _ => ⟨by decide, by decide, by decide⟩⟩

/-- A response with the token 1 is handed to the request with the token 1 2, and a response with
no token to a request that has one. The first notification is refused if its number is `2 ^ 23`.
-/
theorem responses_misplaced
    : (coapResponseReceived 12 (notification 5)
        [coapReplyInit .unused
          { data := [0x42, 1, 0, 7, 1, 2, 0x60], maxLen := 7, hdrLen := 6 }]).1
        = some ⟨0, true, true⟩
      ∧ (coapResponseReceived 12 { data := [0x60, 0x45, 0, 7], maxLen := 4, hdrLen := 4 }
        [coapReplyInit .unused observeRequest]).1
        = some ⟨0, true, true⟩
      ∧ (coapResponseReceived 12
        { data := [0x51, 0x45, 0, 8, 1, 0x63, 0x80, 0, 0], maxLen := 9, hdrLen := 5 }
        [coapReplyInit .unused observeRequest]).1
        = some ⟨0, false, false⟩ := by
  decide

end Zephyr.Coap
