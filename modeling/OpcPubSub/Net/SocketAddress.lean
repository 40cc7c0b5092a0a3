/-
Addresses of sockets: an IP address and the 16-bit number of a service there. An IPv4 address is four decimal numbers
without leading zeros, an IPv6 address eight groups of up to four hexadecimal digits, the last two of which may be
written as an IPv4 address, with `::` once for any run of zero groups, in brackets and with an optional scope number.

Written are the fewest characters: `::` for the longest run of two or more zero groups, the first of equally long
ones, and the IPv4 form for an IPv4 address mapped into IPv6.
-/
import OpcPubSub.Text.Decimal
import OpcPubSub.Text.Hex

namespace OpcPubSub.Net

structure Ipv4 where
  a : UInt8
  b : UInt8
  c : UInt8
  d : UInt8
deriving DecidableEq, Repr

structure Ipv6 where
  groups : List UInt16
  size_eq : groups.length = 8
deriving DecidableEq, Repr

inductive SocketAddress where
  | v4 (ip : Ipv4) (portNumber : UInt16)
  | v6 (ip : Ipv6) (scopeId : UInt32) (portNumber : UInt16)
deriving DecidableEq, Repr

/-! ### Reading -/

/-- a digit of the base -/
def isDigitOf (base : Nat) (c : Char) : Bool := (Text.hexValue c).any (· < base)

/-- the digits at the front of a text as a number below `bound`, and the text after them; they may be at most `most`,
and start with a zero that is not alone only if `zeros` -/
def readNumber (base bound : Nat) (most : Option Nat) (zeros : Bool) (cs : List Char) : Option (Nat × List Char) :=
  let ds := cs.takeWhile (isDigitOf base)
  let n := ds.foldl (fun n c => base * n + (Text.hexValue c).getD 0) 0
  if ds.isEmpty ∨ most.any (· < ds.length) ∨ ¬zeros ∧ ds.head? = some '0' ∧ 1 < ds.length ∨ bound ≤ n then none
  else some (n, cs.drop ds.length)

def readChar (c : Char) : List Char → Option (List Char)
  | d :: cs => if c = d then some cs else none
  | [] => none

def readByte (cs : List Char) : Option (UInt8 × List Char) :=
  (readNumber 10 256 (some 3) false cs).map fun (n, cs) => (UInt8.ofNat n, cs)

def readIpv4 (cs : List Char) : Option (Ipv4 × List Char) := do
  let (a, cs) ← readByte cs
  let (b, cs) ← readByte (← readChar '.' cs)
  let (c, cs) ← readByte (← readChar '.' cs)
  let (d, cs) ← readByte (← readChar '.' cs)
  some (⟨a, b, c, d⟩, cs)

/-- an IPv4 address as two groups -/
def Ipv4.groups (ip : Ipv4) : List UInt16 :=
  [ip.a.toUInt16 * 256 + ip.b.toUInt16, ip.c.toUInt16 * 256 + ip.d.toUInt16]

/-- groups at the front of a text, at most `left`, a colon before each, the first excepted if `first`. An IPv4 address
ends them, and the flag says so. -/
def readGroups (left : Nat) (first : Bool) (cs : List Char) : List UInt16 × Bool × List Char :=
  match left with
  | 0 => ([], false, cs)
  | left + 1 =>
    let start := if first then some cs else readChar ':' cs
    match if left = 0 then none else start.bind readIpv4 with
    | some (ip, rest) => (ip.groups, true, rest)
    | none =>
      match start.bind (readNumber 16 UInt16.size (some 4) true) with
      | none => ([], false, cs)
      | some (n, rest) =>
        let (groups, ended, rest) := readGroups left false rest
        (UInt16.ofNat n :: groups, ended, rest)

/-- the address with these groups -/
def Ipv6.ofGroups? (groups : List UInt16) : Option Ipv6 := if h : groups.length = 8 then some ⟨groups, h⟩ else none

def readIpv6 (cs : List Char) : Option (Ipv6 × List Char) := do
  let (head, ended, rest) := readGroups 8 true cs
  if head.length = 8 then
    let ip ← Ipv6.ofGroups? head
    some (ip, rest)
  else if ended then none
  else
    let rest ← readChar ':' (← readChar ':' rest)
    let (tail, _, rest) := readGroups (7 - head.length) true rest
    let ip ← Ipv6.ofGroups? (head ++ List.replicate (8 - head.length - tail.length) 0 ++ tail)
    some (ip, rest)

def readPortNumber (cs : List Char) : Option (UInt16 × List Char) := do
  let (n, cs) ← readNumber 10 UInt16.size none true (← readChar ':' cs)
  some (UInt16.ofNat n, cs)

/-- a scope number behind its sign; without one, or with one that is too great, the text stays and the scope is 0 -/
def readScope (cs : List Char) : UInt32 × List Char :=
  match (readChar '%' cs).bind (readNumber 10 UInt32.size none true) with
  | some (n, rest) => (UInt32.ofNat n, rest)
  | none => (0, cs)

def readSocketV4 (cs : List Char) : Option (SocketAddress × List Char) := do
  let (ip, cs) ← readIpv4 cs
  let (portNumber, cs) ← readPortNumber cs
  some (.v4 ip portNumber, cs)

def readSocketV6 (cs : List Char) : Option (SocketAddress × List Char) := do
  let (ip, cs) ← readIpv6 (← readChar '[' cs)
  let (scopeId, cs) := readScope cs
  let (portNumber, cs) ← readPortNumber (← readChar ']' cs)
  some (.v6 ip scopeId portNumber, cs)

namespace SocketAddress

/-- a whole text as an address -/
def ofText? (s : String) : Option SocketAddress :=
  match readSocketV4 s.toList <|> readSocketV6 s.toList with
  | some (address, []) => some address
  | _ => none

/-- what an error says of a text that is no address -/
def refusal : String := "invalid socket address syntax"

end SocketAddress

/-! ### Writing -/

def Ipv4.text (ip : Ipv4) : List Char :=
  ['.'].intercalate ([ip.a, ip.b, ip.c, ip.d].map fun n => Text.digits n.toNat)

/-- groups with colons between them -/
def groupsText (groups : List UInt16) : List Char := [':'].intercalate (groups.map fun g => Nat.toDigits 16 g.toNat)

/-- how many zero groups each suffix of a list starts with, the whole list first -/
def zeroRuns : List UInt16 → List Nat
  | [] => []
  | g :: gs => (if g = 0 then (zeroRuns gs).headD 0 + 1 else 0) :: zeroRuns gs

/-- the groups with the first of the longest runs of zeros shortened, if it is longer than one -/
def compressed (groups : List UInt16) : List Char :=
  let runs := zeroRuns groups
  let length := runs.foldl max 0
  if length ≤ 1 then groupsText groups
  else
    let start := runs.idxOf length
    groupsText (groups.take start) ++ ':' :: ':' :: groupsText (groups.drop (start + length))

/-- the bytes of a group -/
def groupBytes (g : UInt16) : UInt8 × UInt8 := ((g >>> 8).toUInt8, g.toUInt8)

/-- the IPv4 address mapped into an IPv6 address -/
def Ipv6.mapped? (ip : Ipv6) : Option Ipv4 :=
  match ip.groups with
  | [0, 0, 0, 0, 0, 0xFFFF, g, h] =>
    let (a, b) := groupBytes g
    let (c, d) := groupBytes h
    some ⟨a, b, c, d⟩
  | _ => none

def Ipv6.text (ip : Ipv6) : List Char :=
  match ip.mapped? with
  | some v4 => [':', ':', 'f', 'f', 'f', 'f', ':'] ++ v4.text
  | none => compressed ip.groups

def SocketAddress.text : SocketAddress → String
  | .v4 ip portNumber => String.ofList (ip.text ++ ':' :: Text.digits portNumber.toNat)
  | .v6 ip scopeId portNumber =>
    let zone := if scopeId = 0 then [] else '%' :: Text.digits scopeId.toNat
    String.ofList ('[' :: ip.text ++ zone ++ ']' :: ':' :: Text.digits portNumber.toNat)

end OpcPubSub.Net
