/-
Hexadecimal digits: numbers of a fixed width written with lower-case digits, and read in either case.
-/

namespace OpcPubSub.Text

/-- the lower-case digit of `n < 16` -/
def hexDigit (n : Nat) : Char := Nat.digitChar n

/-- the value of a digit in either case -/
def hexValue (c : Char) : Option Nat :=
  if '0' ≤ c && c ≤ '9' then some (c.toNat - '0'.toNat)
  else if 'a' ≤ c && c ≤ 'f' then some (c.toNat - 'a'.toNat + 10)
  else if 'A' ≤ c && c ≤ 'F' then some (c.toNat - 'A'.toNat + 10)
  else none

/-- the last `k` digits of `n`, the most significant first -/
def hexDigits : Nat → Nat → List Char
  | 0, _ => []
  | k + 1, n => hexDigits k (n / 16) ++ [hexDigit (n % 16)]

/-- read exactly `k` digits on top of the value `acc` read so far; the rest of the text comes back -/
def readHex : Nat → Nat → List Char → Option (Nat × List Char)
  | 0, acc, cs => some (acc, cs)
  | _ + 1, _, [] => none
  | k + 1, acc, c :: cs =>
    match hexValue c with
    | some d => readHex k (16 * acc + d) cs
    | none => none

end OpcPubSub.Text
