/-
The floating-point number nearest to a quotient. Of two that are equally near the one whose last place is even is
taken. Quotients that would round beyond the greatest finite number have none.
-/
import OpcPubSub.Number.Shortest

namespace OpcPubSub.Number

/-- the quotient `a / b` as the nearest whole number, a half going to the even neighbour -/
def roundDiv (a b : Nat) : Nat :=
  let q := a / b
  let r := a % b
  if b < 2 * r ∨ b = 2 * r ∧ q % 2 = 1 then q + 1 else q

/-- the exponent of the greatest power of two that is at most `num / den` -/
def quotientLog2 (num den : Nat) : Int :=
  let e : Int := (num.log2 : Int) - den.log2
  if num <<< (-e).toNat < den <<< e.toNat then e - 1 else e

/-- the bits of the number nearest to `num / den`. The significand and the exponent are added, not joined: a
significand that rounds up to the next power of two carries into the exponent, and below the normal range both start
at zero. -/
def Format.nearest? (f : Format) (num den : Nat) : Option Nat :=
  if num = 0 then some 0
  else
    let place := max (quotientLog2 num den - f.fractionBits) f.minExponent
    let significand := roundDiv (num <<< (-place).toNat) (den <<< place.toNat)
    let bits := ((place - f.minExponent).toNat <<< f.fractionBits) + significand
    if bits < f.special <<< f.fractionBits then some bits else none

/-- the double nearest to `num / den` -/
def nearestDouble? (num den : Nat) : Option Float :=
  (Format.nearest? .binary64 num den).map fun bits => Float.ofBits (UInt64.ofNat bits)

/-- the double nearest to `m * 10 ^ e`, where `m` has at most `digits` digits. Exponents far outside the range of
doubles are settled without the power. -/
def nearestDecimal? (m digits : Nat) (e : Int) : Option Float :=
  if m = 0 ∨ e + digits < -400 then some 0.0
  else if 400 < e then none
  else nearestDouble? (m * Nat.pow 10 e.toNat) (Nat.pow 10 (-e).toNat)

end OpcPubSub.Number
