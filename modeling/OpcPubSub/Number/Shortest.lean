/-
Shortest decimal digits of a binary floating-point number.

A finite nonzero number is `m * 2 ^ e`. Every decimal between the midpoints to its two neighbours reads back as it;
the midpoints themselves do iff `m` is even. `shortest` answers the point of that interval on the coarsest grid of
powers of ten that has one, and of two such points the one nearer to the number (the even one when they are equally
near). A coarsest grid means fewest digits.
-/

namespace OpcPubSub.Number

/-- the widths that matter of a binary format: fraction bits, exponent bits, and the exponent of the last place of
the numbers below the normal range -/
structure Format where
  fractionBits : Nat
  exponentBits : Nat
  minExponent : Int
deriving DecidableEq, Repr

def Format.binary64 : Format := ⟨52, 11, -1074⟩
def Format.binary32 : Format := ⟨23, 8, -149⟩

/-- sign, biased exponent and fraction of a bit pattern -/
structure Fields where
  negative : Bool
  biased : Nat
  fraction : Nat
deriving DecidableEq, Repr

def Format.fields (f : Format) (bits : Nat) : Fields where
  negative := (bits >>> (f.fractionBits + f.exponentBits)) % 2 == 1
  biased := (bits >>> f.fractionBits) % (1 <<< f.exponentBits)
  fraction := bits % (1 <<< f.fractionBits)

/-- the biased exponent that marks infinities and what is not a number -/
def Format.special (f : Format) : Nat := (1 <<< f.exponentBits) - 1

/-- the decimals that read back as one number: `low / den` to `high / den` around `mid / den`, the ends included if
`closed` -/
structure Interval where
  low : Nat
  mid : Nat
  high : Nat
  den : Nat
  closed : Bool
deriving DecidableEq, Repr

/-- the interval of a finite number, sign apart. In quarters of the last place the number is `4 m`, the upper midpoint
`4 m + 2` and the lower one `4 m - 2`, or `4 m - 1` where the spacing below is half as wide. -/
def Format.interval (f : Format) (x : Fields) : Interval :=
  let m := if x.biased = 0 then x.fraction else x.fraction + (1 <<< f.fractionBits)
  let e := if x.biased = 0 then f.minExponent else f.minExponent + (x.biased - 1 : Nat)
  let low := if x.fraction = 0 ∧ 1 < x.biased then 4 * m - 1 else 4 * m - 2
  let up := 1 <<< (e - 2).toNat
  ⟨low * up, 4 * m * up, (4 * m + 2) * up, 1 <<< (2 - e).toNat, m % 2 = 0⟩

namespace Interval

/-- whether `c * 10 ^ t` lies in the interval -/
def holds (iv : Interval) (t : Int) (c : Nat) : Bool :=
  let x := c * (iv.den * Nat.pow 10 t.toNat)
  let s := Nat.pow 10 (-t).toNat
  if iv.closed then iv.low * s ≤ x && x ≤ iv.high * s else iv.low * s < x && x < iv.high * s

/-- the point of the grid of multiples of `10 ^ t` that lies in the interval, the nearer of two -/
def point? (iv : Interval) (t : Int) : Option Nat :=
  let unit := iv.den * Nat.pow 10 t.toNat
  let mid := iv.mid * Nat.pow 10 (-t).toNat
  let c := mid / unit
  match iv.holds t c, iv.holds t (c + 1) with
  | true, true =>
    let below := mid - c * unit
    let above := (c + 1) * unit - mid
    if below < above ∨ below = above ∧ c % 2 = 0 then some c else some (c + 1)
  | true, false => some c
  | false, true => some (c + 1)
  | false, false => none

/-- an exponent whose grid is too coarse: `10 ^ top` is above the interval, for `0.30103` is above the logarithm of
two -/
def top (iv : Interval) : Int := ((iv.high.log2 : Int) - iv.den.log2 + 1) * 30103 / 100000 + 2

/-- the first grid with a point, from `10 ^ t` down over `n` grids -/
def search (iv : Interval) : Nat → Int → Option (Nat × Int)
  | 0, _ => none
  | n + 1, t =>
    match iv.point? t with
    | some c => some (c, t)
    | none => iv.search n (t - 1)

end Interval

/-- the shortest `c * 10 ^ t` that reads back as the number; 17 digits are always enough, and the search starts at
most four grids above the first of them -/
def Format.shortest (f : Format) (x : Fields) : Nat × Int :=
  let iv := f.interval x
  (iv.search 24 iv.top).getD (0, 0)

end OpcPubSub.Number
