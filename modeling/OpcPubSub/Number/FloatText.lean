/-
The text of floating-point numbers in documents: the shortest digits, with a decimal point and no exponent inside a
window of magnitudes and in scientific notation outside. The window is the only difference between the two widths.
-/
import OpcPubSub.Number.Shortest
import OpcPubSub.Text.Decimal

namespace OpcPubSub.Number

/-- exponents of the first digit between which a number is written without an exponent -/
structure Window where
  least : Int
  greatest : Int
deriving DecidableEq, Repr

/-- doubles have no exponent from `0.00001` up to, but not including, `10 ^ 16` -/
def Window.binary64 : Window := ⟨-5, 15⟩

/-- singles have no exponent from `0.000001` up to, but not including, `10 ^ 13` -/
def Window.binary32 : Window := ⟨-6, 12⟩

/-- the text of `c * 10 ^ t`: always a point and a digit after it when there is no exponent; a signed exponent without
padding, and a point only between digits, when there is one -/
def Window.text (w : Window) (c : Nat) (t : Int) : List Char :=
  let ds := Text.digits c
  let e := t + ds.length - 1
  if w.least ≤ e ∧ e ≤ w.greatest then
    if e < 0 then '0' :: '.' :: List.replicate (-e - 1).toNat '0' ++ ds
    else if 0 ≤ t then ds ++ List.replicate t.toNat '0' ++ ['.', '0']
    else ds.take (e + 1).toNat ++ '.' :: ds.drop (e + 1).toNat
  else
    let mantissa := match ds with
      | d :: r@(_ :: _) => d :: '.' :: r
      | ds => ds
    mantissa ++ 'e' :: (if e < 0 then '-' else '+') :: Text.digits e.natAbs

/-- the text of a bit pattern; zero keeps its sign, and a pattern that is no number is `null` -/
def floatText (f : Format) (w : Window) (bits : Nat) : List Char :=
  let x := f.fields bits
  if x.biased = f.special then ['n', 'u', 'l', 'l']
  else
    let magnitude :=
      if x.biased = 0 ∧ x.fraction = 0 then ['0', '.', '0']
      else
        let (c, t) := f.shortest x
        w.text c t
    if x.negative then '-' :: magnitude else magnitude

def doubleText (x : Float) : List Char := floatText .binary64 .binary64 x.toBits.toNat

def singleText (x : Float32) : List Char := floatText .binary32 .binary32 x.toBits.toNat

/-- the names of the doubles that have no number text -/
def nonFinite? (f : Format) (bits : Nat) : Option String :=
  let x := f.fields bits
  if x.biased = f.special then
    if x.fraction ≠ 0 then some "NaN" else if x.negative then some "-Infinity" else some "Infinity"
  else none

end OpcPubSub.Number
