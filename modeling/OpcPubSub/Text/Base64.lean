/-
Base64 with the standard alphabet. Three bytes become four characters; a last group of one or two bytes is padded
with equals signs. Reading is strict: the padding has to be there, and the bits it leaves over have to be zero, so
every byte string has one text.
-/

namespace OpcPubSub.Text.Base64

/-- the character for a value below 64 -/
def symbol (n : Nat) : Char :=
  if n < 26 then Char.ofNat ('A'.toNat + n)
  else if n < 52 then Char.ofNat ('a'.toNat + (n - 26))
  else if n < 62 then Char.ofNat ('0'.toNat + (n - 52))
  else if n == 62 then '+'
  else '/'

/-- the value of a character of the alphabet -/
def value (c : Char) : Option Nat :=
  if 'A' ≤ c && c ≤ 'Z' then some (c.toNat - 'A'.toNat)
  else if 'a' ≤ c && c ≤ 'z' then some (c.toNat - 'a'.toNat + 26)
  else if '0' ≤ c && c ≤ '9' then some (c.toNat - '0'.toNat + 52)
  else if c == '+' then some 62
  else if c == '/' then some 63
  else none

def encode : List UInt8 → List Char
  | [] => []
  | [a] =>
    let n := a.toNat
    [symbol (n / 4), symbol (n % 4 * 16), '=', '=']
  | [a, b] =>
    let n := a.toNat * 256 + b.toNat
    [symbol (n / 1024), symbol (n / 16 % 64), symbol (n % 16 * 4), '=']
  | a :: b :: c :: rest =>
    let n := (a.toNat * 256 + b.toNat) * 256 + c.toNat
    symbol (n / 262144) :: symbol (n / 4096 % 64) :: symbol (n / 64 % 64) :: symbol (n % 64) :: encode rest

/-- read a whole text -/
def decode : List Char → Option (List UInt8)
  | [] => some []
  | [a, b, '=', '='] =>
    match value a, value b with
    | some x, some y => if y % 16 == 0 then some [UInt8.ofNat (x * 4 + y / 16)] else none
    | _, _ => none
  | [a, b, c, '='] =>
    match value a, value b, value c with
    | some x, some y, some z =>
      if z % 4 == 0 then some [UInt8.ofNat (x * 4 + y / 16), UInt8.ofNat (y % 16 * 16 + z / 4)] else none
    | _, _, _ => none
  | a :: b :: c :: d :: rest =>
    match value a, value b, value c, value d, decode rest with
    | some x, some y, some z, some w, some bytes =>
      some (UInt8.ofNat (x * 4 + y / 16) :: UInt8.ofNat (y % 16 * 16 + z / 4) :: UInt8.ofNat (z % 4 * 64 + w) :: bytes)
    | _, _, _, _, _ => none
  | _ => none

end OpcPubSub.Text.Base64
