import Mathlib

/-! Network addresses and their texts, of `subsys/net/ip/utils.c`.

A pointer is the list of the bytes that may be read from it on. The bytes of a string end with its
terminator, so that a read of a byte behind it finds an empty list. Such a read, and a write outside
an object, is a fault.
-/

namespace Zephyr.Net.Address

/-- What a function comes to: an access outside of what it was given, a failure that it returns, or
a value.
-/
inductive Outcome (α : Type) where
  | fault
  | fails
  | done (value : α)
  deriving DecidableEq, Repr

namespace Outcome

def bind {α β : Type} (first : Outcome α) (next : α → Outcome β) : Outcome β :=
  match first with
  | fault => fault
  | fails => fails
  | done value => next value

instance : Monad Outcome where
  pure := done
  bind := bind

end Outcome

/-- The characters `:` and `.` -/
def colon : UInt8 := 58

def dot : UInt8 := 46

-----------------------------------------------------------------------------------------
-- Functions of the C library
-----------------------------------------------------------------------------------------

/-- `strlen` -/
def strlen : List UInt8 → Outcome Nat
  | [] => .fault
  | c :: rest => if c = 0 then .done 0 else (strlen rest).bind fun len => .done (len + 1)

/-- `strchr` for a character that is not 0: a pointer, or `NULL` -/
def strchr (c : UInt8) : List UInt8 → Outcome (Option (List UInt8))
  | [] => .fault
  | x :: rest =>
      if x = c then .done (some (x :: rest)) else if x = 0 then .done none else strchr c rest

/-- The loop of `strrchr`, with the place that was found last -/
def strrchrLoop (c : UInt8) : Nat → Option Nat → List UInt8 → Outcome (Option Nat)
  | _, _, [] => .fault
  | place, last, x :: rest =>
      let last := if x = c then some place else last
      if x = 0 then .done last else strrchrLoop c (place + 1) last rest

/-- `strrchr` for a character that is not 0: how far it is from the pointer, or `NULL` -/
def strrchr (c : UInt8) (s : List UInt8) : Outcome (Option Nat) :=
  strrchrLoop c 0 none s

/-- The value of a digit or a letter as a digit. -/
def digitOf (c : UInt8) : Option Nat :=
  if 48 ≤ c ∧ c ≤ 57 then some (c.toNat - 48)
  else if 65 ≤ c ∧ c ≤ 90 then some (c.toNat - 55)
  else if 97 ≤ c ∧ c ≤ 122 then some (c.toNat - 87)
  else none

/-- The digits of a number and the rest of the text. -/
def digits (base : Nat) : Nat → List UInt8 → Outcome (Nat × List UInt8)
  | _, [] => .fault
  | acc, c :: rest =>
      match digitOf c with
      | some digit =>
          if digit < base then digits base (acc * base + digit) rest else .done (acc, c :: rest)
      | none => .done (acc, c :: rest)

/-- `isspace` -/
def isspace (c : UInt8) : Bool :=
  c = 32 || (9 ≤ c && c ≤ 13)

def skipSpaces : List UInt8 → Outcome (List UInt8)
  | [] => .fault
  | c :: rest => if isspace c then skipSpaces rest else .done (c :: rest)

/-- The sign of a number, if there is one. -/
def skipSign : List UInt8 → Bool × List UInt8
  | [] => (false, [])
  | c :: rest =>
      if c = 45 then (true, rest) else if c = 43 then (false, rest) else (false, c :: rest)

/-- `0x` in front of a number with base 16. -/
def skip0x (base : Nat) : List UInt8 → Outcome (List UInt8)
  | [] => .fault
  | c :: rest =>
      if base = 16 ∧ c = 48 then
        match rest with
        | [] => .fault
        | x :: after => if x = 120 ∨ x = 88 then .done after else .done (c :: x :: after)
      else .done (c :: rest)

/-- What `strtol` and `strtoul` read: the sign, the absolute value and `*endptr`. -/
def readNumber (base : Nat) (nptr : List UInt8) : Outcome (Bool × Nat × List UInt8) := do
  let s ← skipSpaces nptr
  let (neg, s) := skipSign s
  let s ← skip0x base s
  let (acc, rest) ← digits base 0 s
  -- Without a digit, `*endptr` is the beginning of the text.
  return (neg, acc, if rest.length < s.length then rest else nptr)

/-- `strtol` with a `long` of 32 bits -/
def strtol (base : Nat) (nptr : List UInt8) : Outcome (Int × List UInt8) := do
  let (neg, acc, endptr) ← readNumber base nptr
  return (if neg then -(min acc (2 ^ 31)) else min acc (2 ^ 31 - 1), endptr)

/-- `strtoul` -/
def strtoul (base : Nat) (nptr : List UInt8) : Outcome (Nat × List UInt8) := do
  let (neg, acc, endptr) ← readNumber base nptr
  return (if 2 ^ 32 ≤ acc then 2 ^ 32 - 1 else if neg then (2 ^ 32 - acc) % 2 ^ 32 else acc, endptr)

-----------------------------------------------------------------------------------------
-- From text to address
-----------------------------------------------------------------------------------------

/-- A byte of an object with so many bytes is written. -/
def put (size : Nat) (addr : Nat → UInt8) (off : Nat) (value : UInt8) : Outcome (Nat → UInt8) :=
  if off < size then .done fun k => if k = off then value else addr k else .fault

/-- The lowest eight bits of a number. -/
def byteOf (value : Int) : UInt8 :=
  .ofNat (value % 2 ^ 8).toNat

/-- `addr->s6_addr16[i] = htons(value)` -/
def put16 (addr : Nat → UInt8) (i : Nat) (value : Int) : Outcome (Nat → UInt8) := do
  let addr ← put 16 addr (2 * i) (byteOf (value / 2 ^ 8))
  put 16 addr (2 * i + 1) (byteOf value)

def isDigit (c : UInt8) : Bool :=
  48 ≤ c && c ≤ 57

/-- The characters of an IPv4 address. -/
def isAllowed4 (c : UInt8) : Bool :=
  isDigit c || c = dot

/-- The characters of an IPv6 address. -/
def isAllowed6 (c : UInt8) : Bool :=
  isDigit c || (65 ≤ c && c ≤ 70) || (97 ≤ c && c ≤ 102) || c = dot || c = colon

/-- The loop of `net_addr_pton` over the bytes of an IPv4 address -/
def octetsLoop : Nat → Nat → List UInt8 → (Nat → UInt8) → Outcome (Nat → UInt8)
  | 0, _, _, addr => .done addr
  | left + 1, i, src, addr => do
      let (value, endptr) ← strtol 10 src
      let addr ← put 4 addr i (byteOf value)
      octetsLoop left (i + 1) endptr.tail addr

/-- `net_addr_pton` for `AF_INET` -/
def netAddrPton4 (src : List UInt8) (dst : Nat → UInt8) : Outcome (Nat → UInt8) := do
  let len ← strlen src
  if (src.take len).all isAllowed4 then octetsLoop 4 0 src (fun k => if k < 4 then 0 else dst k)
  else .fails

/-- `for (; i < expected_groups; i++) addr->s6_addr16[i] = 0` -/
def putZeros (addr : Nat → UInt8) : Nat → Nat → Outcome (Nat → UInt8)
  | 0, _ => .done addr
  | left + 1, i => do
      let addr ← put16 addr i 0
      putZeros addr left (i + 1)

/-- The loop that counts colons down, from the last character on -/
def skipGroups : Nat → List UInt8 → Option Nat
  | i, [] => some i
  | i, c :: before =>
      if c = colon then
        match i with
        | 0 => none
        | i + 1 => skipGroups i before
      else skipGroups i before

/-- The loop of `net_addr_pton` over the groups of an IPv6 address: where the text goes on, or
`NULL`, and the address
-/
def groupsLoop (expected : Nat)
    : Nat → Nat → Option (List UInt8) → (Nat → UInt8)
      → Outcome (Option (List UInt8) × (Nat → UInt8))
  | 0, _, _, _ => .fault
  | fuel + 1, i, src, addr =>
      if expected ≤ i then .done (src, addr)
      else
        match src with
        | none => .fails
        | some [] => .fault
        | some (c :: rest) =>
            if c = 0 then .fails
            else if c ≠ colon then do
              let (value, _) ← strtol 16 (c :: rest)
              let addr ← put16 addr i value
              match ← strchr colon (c :: rest) with
              | some next => groupsLoop expected fuel (i + 1) (some next.tail) addr
              | none =>
                  if i < expected - 1 then .fails else groupsLoop expected fuel (i + 1) none addr
            else do
              let addr ← putZeros addr (expected - i) i
              let tmp ← strrchr colon (c :: rest)
              match tmp with
              | none => .fault
              | some tmp =>
                  if tmp = 0 ∧ (expected = 6 ∨ rest.head? = some 0) then .done (some rest, addr)
                  else
                    let tmp := if expected = 6 then tmp - 1 else tmp
                    match skipGroups (expected - 1) ((c :: rest).take (tmp + 1)).reverse with
                    | none => .fails
                    | some i => groupsLoop expected fuel (i + 1) (some rest) addr

/-- The loop over the IPv4 part of an IPv6 address -/
def quadsLoop : Nat → Nat → Option (List UInt8) → (Nat → UInt8) → Outcome (Nat → UInt8)
  | 0, _, _, addr => .done addr
  | left + 1, i, src, addr =>
      match src with
      | none => .fails
      | some [] => .fault
      | some (c :: rest) =>
          if c = 0 then .fails
          else do
            let (value, _) ← strtol 10 (c :: rest)
            let addr ← put 16 addr (12 + i) (byteOf value)
            match ← strchr dot (c :: rest) with
            | some next => quadsLoop left (i + 1) (some next.tail) addr
            | none => if i < 3 then .fails else quadsLoop left (i + 1) none addr

/-- Ignore a leading colon -/
def skipColon : List UInt8 → List UInt8
  | [] => []
  | c :: rest => if c = colon then rest else c :: rest

/-- `net_addr_pton` for `AF_INET6` -/
def netAddrPton6 (src : List UInt8) (dst : Nat → UInt8) : Outcome (Nat → UInt8) := do
  let found ← strchr dot src
  let expected := if found.isSome then 6 else 8
  let src := skipColon src
  let len ← strlen src
  if (src.take len).all isAllowed6 then do
    -- Every turn goes on in the text; after the last one there may be groups left.
    let (src, addr) ← groupsLoop expected (src.length + 9) 0 (some src) dst
    if expected = 6 then quadsLoop 4 0 src addr else .done addr
  else .fails

-----------------------------------------------------------------------------------------
-- From address to text
-----------------------------------------------------------------------------------------

/-- A digit, where digits from ten on are letters from `base` on. -/
def hexChar (base : UInt8) (val : Nat) : UInt8 :=
  if val < 10 then .ofNat (val + 48) else .ofNat (val - 10 + base.toNat)

/-- `net_byte_to_hex` -/
def netByteToHex (byte : Nat) (base : UInt8) (pad : Bool) : List UInt8 :=
  (if !pad && byte / 16 = 0 then [] else [hexChar base (byte / 16)]) ++ [hexChar base (byte % 16)]

/-- The loop of `net_value_to_udec`, with the value that is left and the precision -/
def udecLoop : List Nat → Nat → Nat → List UInt8
  | [], _, _ => []
  | i :: rest, value, precision =>
      let temp := value / 10 ^ i
      if i < precision ∨ temp ≠ 0 then .ofNat (temp + 48) :: udecLoop rest (value % 10 ^ i) i
      else udecLoop rest (value % 10 ^ i) precision

/-- `net_value_to_udec` -/
def netValueToUdec (value precision : Nat) : List UInt8 :=
  udecLoop [9, 8, 7, 6, 5, 4, 3, 2, 1, 0] value precision

/-- A byte of an IPv4 address and the delimiter. -/
def octetText (value : UInt8) : List UInt8 :=
  if value = 0 then [48, dot] else netValueToUdec value.toNat 0 ++ [dot]

/-- The bytes of an IPv4 address with a delimiter behind each. -/
def octetsText (addr : Nat → UInt8) : List UInt8 :=
  octetText (addr 0) ++ octetText (addr 1) ++ octetText (addr 2) ++ octetText (addr 3)

/-- `net_addr_ntop` for `AF_INET`; the last delimiter is overwritten -/
def netAddrNtop4 (addr : Nat → UInt8) : List UInt8 :=
  (octetsText addr).dropLast

/-- A group of an IPv6 address -/
def groupText (value : Nat) : List UInt8 :=
  let bh := value / 2 ^ 8
  let bl := value % 2 ^ 8
  if bh ≠ 0 then
    (if 0x0f < bh then netByteToHex bh 97 false else [hexChar 97 bh]) ++ netByteToHex bl 97 true
  else if 0x0f < bl then netByteToHex bl 97 false
  else [hexChar 97 bl]

/-- A group of an IPv6 address, in the order of the host. -/
def word (addr : Nat → UInt8) (i : Nat) : Nat :=
  (addr (2 * i)).toNat * 2 ^ 8 + (addr (2 * i + 1)).toNat

/-- `net_ipv6_addr_is_v4_mapped` -/
def isV4Mapped (addr : Nat → UInt8) : Bool :=
  word addr 0 = 0 && word addr 1 = 0 && word addr 2 = 0 && word addr 3 = 0
    && word addr 5 = 0xffff

/-- `zeros[i]` -/
def zeros (addr : Nat → UInt8) (i : Nat) : Nat :=
  (((List.range 8).drop i).takeWhile (fun j => word addr j = 0)).length

/-- The loop that looks for the longest run of zeros: its length and its place -/
def longestLoop (addr : Nat → UInt8) : List Nat → Nat × Option Nat → Nat × Option Nat
  | [], found => found
  | i :: rest, (longest, pos) =>
      longestLoop addr rest
        (if longest < zeros addr i then (zeros addr i, some i) else (longest, pos))

/-- The loop of `net_addr_ntop` from group `i` on: the text, and whether it goes on with
`print_mapped`
-/
def printLoop (addr : Nat → UInt8) (longest : Nat) (pos : Option Nat) (mapped : Bool)
    : Nat → Nat → Bool → List UInt8 × Bool
  | 0, _, _ => ([], false)
  | fuel + 1, i, needcolon =>
      if 8 ≤ i then ([], false)
      else if mapped && 5 < i then ([colon], true)
      else if pos = some i then
        let (text, goesOn) := printLoop addr longest pos mapped fuel (i + longest) false
        ((if needcolon || i = 0 then [colon] else []) ++ colon :: text, goesOn)
      else
        let (text, goesOn) := printLoop addr longest pos mapped fuel (i + 1) true
        ((if needcolon then [colon] else []) ++ groupText (word addr i) ++ text, goesOn)

/-- `net_addr_ntop` for `AF_INET6` -/
def netAddrNtop6 (addr : Nat → UInt8) : List UInt8 :=
  let (longest, pos) := longestLoop addr (List.range 8) (1, none)
  let (text, goesOn) := printLoop addr longest pos (isV4Mapped addr) 9 0 false
  if goesOn then (text ++ octetsText (fun k => addr (12 + k))).dropLast else text

-----------------------------------------------------------------------------------------
-- Addresses with ports
-----------------------------------------------------------------------------------------

/-- `INET6_ADDRSTRLEN` and `NET_IPV4_ADDR_LEN` -/
def inet6Addrstrlen : Nat := 46

def netIpv4AddrLen : Nat := 16

/-- The loop that looks for a terminator among so many characters -/
def scan : Nat → List UInt8 → Outcome Nat
  | 0, _ => .done 0
  | _ + 1, [] => .fault
  | len + 1, c :: rest =>
      if c = 0 then .done 0 else (scan len rest).bind fun found => .done (found + 1)

/-- `memchr`: how far the character is from the pointer, or `NULL` -/
def memchr (c : UInt8) : Nat → List UInt8 → Outcome (Option Nat)
  | 0, _ => .done none
  | _ + 1, [] => .fault
  | len + 1, x :: rest =>
      if x = c then .done (some 0)
      else (memchr c len rest).bind fun found => .done (found.map (· + 1))

/-- `memcpy(ipaddr, str + off, len); ipaddr[len] = 0` for an array with so many bytes -/
def copyText (size : Nat) (str : List UInt8) (off len : Nat) : Outcome (List UInt8) :=
  if off + len ≤ str.length ∧ len < size then .done ((str.drop off).take len ++ [0]) else .fault

/-- `convert_port` -/
def convertPort (buf : List UInt8) : Outcome Nat := do
  let (tmp, endptr) ← strtoul 10 buf
  match buf.head?, endptr.head? with
  | some first, some last =>
      if (endptr.length = buf.length ∧ tmp = 0) ∨ ¬(first ≠ 0 ∧ last = 0) ∨ 2 ^ 16 ≤ tmp then .fails
      else .done tmp
  | _, _ => .fault

/-- `AF_INET` and `AF_INET6` -/
inductive Family where
  | inet
  | inet6
  deriving DecidableEq, Repr

/-- What is stored of a `struct sockaddr`; the port only if there is one in the text. -/
structure Sockaddr where
  family : Family
  port : Option Nat := none
  addr : Nat → UInt8

/-- `parse_ipv6` with a port: the text begins with a bracket -/
def parseIpv6Port (str : List UInt8) (dst : Nat → UInt8) : Outcome Sockaddr := do
  let len ← scan (min inet6Addrstrlen str.length) str
  match ← memchr 93 len str with
  | none => .fails
  | some ptr =>
      let fin := min len (ptr - 1)
      let ipaddr ← copyText (inet6Addrstrlen + 1) str 1 fin
      let addr6 ← netAddrPton6 ipaddr dst
      if str[ptr + 1]? = some colon then do
        let rest := str.drop (ptr + 2)
        let len ← scan (str.length - fin - 1 - 2) rest
        let ipaddr ← copyText (inet6Addrstrlen + 1) rest 0 len
        let port ← convertPort ipaddr
        .done { family := .inet6, port := some port, addr := addr6 }
      else .done { family := .inet6, addr := addr6 }

/-- `parse_ipv6` without a port -/
def parseIpv6 (str : List UInt8) (dst : Nat → UInt8) : Outcome Sockaddr := do
  let len ← scan (min inet6Addrstrlen str.length) str
  let ipaddr ← copyText (inet6Addrstrlen + 1) str 0 len
  let addr6 ← netAddrPton6 ipaddr dst
  .done { family := .inet6, addr := addr6 }

/-- `parse_ipv4` with a port -/
def parseIpv4Port (str : List UInt8) (dst : Nat → UInt8) : Outcome Sockaddr := do
  let len ← scan (min netIpv4AddrLen str.length) str
  match ← memchr colon len str with
  | none => .fails
  | some ptr =>
      let fin := min len ptr
      let ipaddr ← copyText (netIpv4AddrLen + 1) str 0 fin
      let addr4 ← netAddrPton4 ipaddr dst
      let ipaddr ← copyText (netIpv4AddrLen + 1) str (ptr + 1) (str.length - fin)
      let port ← convertPort ipaddr
      .done { family := .inet, port := some port, addr := addr4 }

/-- `parse_ipv4` without a port -/
def parseIpv4 (str : List UInt8) (dst : Nat → UInt8) : Outcome Sockaddr := do
  let len ← scan (min netIpv4AddrLen str.length) str
  let ipaddr ← copyText (netIpv4AddrLen + 1) str 0 len
  let addr4 ← netAddrPton4 ipaddr dst
  .done { family := .inet, addr := addr4 }

/-- `net_ipaddr_parse` with both families, where `str` has `str_len` characters -/
def netIpaddrParse (str : List UInt8) (dst : Nat → UInt8) : Outcome Sockaddr :=
  match str with
  | [] => .fails
  | c :: _ =>
      if c = 0 then .fails
      else if c = 91 then parseIpv6Port str dst
      else if (str.takeWhile (· ≠ 0)).count colon = 1 then parseIpv4Port str dst
      else
        match parseIpv4 str dst with
        | .fails => parseIpv6 str dst
        | result => result

end Zephyr.Net.Address
