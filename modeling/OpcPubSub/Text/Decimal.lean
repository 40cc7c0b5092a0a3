/-
Decimal integers as text. Printing has no leading zeros and a minus for negative numbers. Reading takes one or more
digits after at most one sign; a plus is always allowed, a minus only where negative numbers are, and leading zeros
are allowed.
-/

namespace OpcPubSub.Text

/-- the digits of `n` -/
def digits (n : Nat) : List Char := Nat.toDigits 10 n

/-- the number `n` in exactly `k` digits, zeros in front; digits beyond `k` are dropped -/
def padded : Nat → Nat → List Char
  | 0, _ => []
  | k + 1, n => padded k (n / 10) ++ [Nat.digitChar (n % 10)]

/-- the text of an integer -/
def decimal (n : Int) : String := String.ofList (if n < 0 then '-' :: digits n.natAbs else digits n.natAbs)

def digitValue (c : Char) : Option Nat := if c.isDigit then some (c.toNat - '0'.toNat) else none

/-- the number written by a list of digits, on top of `acc`; `none` if a character is no digit -/
def readDigits : Nat → List Char → Option Nat
  | acc, [] => some acc
  | acc, c :: cs =>
    match digitValue c with
    | some d => readDigits (10 * acc + d) cs
    | none => none

/-- a non-empty list of digits -/
def readNat (cs : List Char) : Option Nat := if cs.isEmpty then none else readDigits 0 cs

/-- an optional sign and one or more digits; the minus only if `signed` -/
def readInt (signed : Bool) : List Char → Option Int
  | '+' :: cs => (readNat cs).map Int.ofNat
  | '-' :: cs => if signed then (readNat cs).map fun n => -(n : Int) else none
  | cs => (readNat cs).map Int.ofNat

/-- read exactly `k` digits on top of `acc`; the rest of the text comes back -/
def takeDigits : Nat → Nat → List Char → Option (Nat × List Char)
  | 0, acc, cs => some (acc, cs)
  | _ + 1, _, [] => none
  | k + 1, acc, c :: cs =>
    match digitValue c with
    | some d => takeDigits k (10 * acc + d) cs
    | none => none

end OpcPubSub.Text
