/-
Numbers in documents. `scan` takes the longest numeral of the JSON grammar off the front of a text; `Numeral.value?`
says which number it stands for.

A numeral without fraction and exponent that fits 64 bits is an integer, `-0` excepted. Any other is a double that
is near the numeral but not always the nearest: the digits are gathered into 64 bits until the next one would
overflow, later ones count as zeros (whole digits) or not at all (fraction digits), and the result is scaled by one
multiplication or division with a power of ten, or by more than one where the power is beyond the range of doubles.
A numeral beyond that range stands for no number.
-/
import OpcPubSub.Json.Tree
import OpcPubSub.Number.Nearest
import OpcPubSub.Text.Decimal

namespace OpcPubSub.Json

/-- the parts of a numeral; `exponent` has the sign (true for a minus) and the digits -/
structure Numeral where
  negative : Bool
  whole : List Char
  fraction : Option (List Char)
  exponent : Option (Bool × List Char)
deriving DecidableEq, Repr

/-- the digits at the front of a text and what follows them -/
def spanDigits (cs : List Char) : List Char × List Char := (cs.takeWhile Char.isDigit, cs.dropWhile Char.isDigit)

/-- an exponent, if the text starts with its letter; `none` if digits are missing after the letter -/
def scanExponent (cs : List Char) : Option (Option (Bool × List Char) × List Char) :=
  match cs with
  | c :: rest =>
    if c = 'e' ∨ c = 'E' then
      let (minus, rest) := match rest with
        | '+' :: r => (false, r)
        | '-' :: r => (true, r)
        | r => (false, r)
      let (ds, rest) := spanDigits rest
      if ds.isEmpty then none else some (some (minus, ds), rest)
    else some (none, cs)
  | [] => some (none, [])

/-- a fraction, if the text starts with a point; `none` if digits are missing after the point -/
def scanFraction (cs : List Char) : Option (Option (List Char) × List Char) :=
  match cs with
  | '.' :: rest =>
    let (ds, rest) := spanDigits rest
    if ds.isEmpty then none else some (some ds, rest)
  | _ => some (none, cs)

/-- the digits before point and exponent: a zero alone, or digits that start with another one -/
def scanWhole (cs : List Char) : Option (List Char × List Char) :=
  let (ds, rest) := spanDigits cs
  match ds with
  | [] => none
  | ['0'] => some (ds, rest)
  | '0' :: _ => none
  | _ => some (ds, rest)

/-- the numeral at the front of a text and what follows it -/
def scan (cs : List Char) : Option (Numeral × List Char) :=
  let (negative, cs) := match cs with
    | '-' :: r => (true, r)
    | r => (false, r)
  match scanWhole cs with
  | none => none
  | some (whole, cs) =>
    match scanFraction cs with
    | none => none
    | some (fraction, cs) =>
      match scanExponent cs with
      | none => none
      | some (exponent, cs) => some (⟨negative, whole, fraction, exponent⟩, cs)

/-- the value of a digit, zero for other characters -/
def digitOf (c : Char) : Nat := c.toNat - '0'.toNat

/-- whole digits on top of `s` as long as 64 bits hold them, and how many are left over -/
def gatherWhole : Nat → List Char → Nat × Nat
  | s, [] => (s, 0)
  | s, c :: cs => if s * 10 + digitOf c < UInt64.size then gatherWhole (s * 10 + digitOf c) cs else (s, cs.length + 1)

/-- fraction digits on top of `s` as long as 64 bits hold them, and how many were taken -/
def gatherFraction : Nat → List Char → Nat × Nat
  | s, [] => (s, 0)
  | s, c :: cs =>
    if s * 10 + digitOf c < UInt64.size then
      let (s, n) := gatherFraction (s * 10 + digitOf c) cs
      (s, n + 1)
    else (s, 0)

/-- the double nearest to a power of ten within the range of doubles -/
def powerOfTen (n : Nat) : Float := (Number.nearestDouble? (Nat.pow 10 n) 1).getD 0.0

/-- the quotient `x / 10 ^ e`, dividing by at most `10 ^ 308` at a time; zero stays as it is -/
def shrink (x : Float) (e : Nat) : Float :=
  if h : 308 < e then
    if x == 0.0 then x else shrink (x / powerOfTen 308) (e - 308)
  else x / powerOfTen e
termination_by e
decreasing_by omega

/-- the product `x * 10 ^ e`; none beyond the range of doubles -/
def scale (x : Float) (e : Int) : Option Float :=
  if 0 ≤ e then
    if 308 < e then (if x == 0.0 then some x else none)
    else
      let y := x * powerOfTen e.toNat
      if y.isInf then none else some y
  else some (shrink x e.natAbs)

/-- the bounds that exponents are clamped to -/
def exponentMax : Int := 2147483647

def clampExponent (e : Int) : Int := max (-exponentMax - 1) (min exponentMax e)

namespace Numeral

/-- the magnitude of a numeral as a double -/
def magnitude? (n : Numeral) : Option Float :=
  let (s, extra) := gatherWhole 0 n.whole
  let (s, used) := gatherFraction s (n.fraction.getD [])
  let shift : Int := (extra : Int) - used
  let (minus, ds) := n.exponent.getD (false, [])
  let e : Int := (Text.readDigits 0 ds).getD 0
  if exponentMax < e then
    if s ≠ 0 ∧ ¬minus then none else some 0.0
  else scale s.toUInt64.toFloat (clampExponent (if minus then shift - e else shift + e))

/-- the number a numeral stands for -/
def value? (n : Numeral) : Option Atom :=
  let m := (Text.readDigits 0 n.whole).getD 0
  if n.fraction.isNone ∧ n.exponent.isNone ∧ ¬n.negative ∧ m < UInt64.size then some (.int m)
  else if n.fraction.isNone ∧ n.exponent.isNone ∧ n.negative ∧ m ≠ 0 ∧ m ≤ UInt64.size / 2 then some (.int (-m))
  else n.magnitude?.map fun x => .double (if n.negative then -x else x)

end Numeral

end OpcPubSub.Json
