/-
GUIDs: 128-bit identifiers. The written form is hyphenated lower-case hexadecimal, 8-4-4-4-12 digits. Read are that
form, the 32 digits alone, the hyphenated form in braces and the hyphenated form after `urn:uuid:`, with digits in
either case.
-/
import OpcPubSub.Text.Hex

namespace OpcPubSub

structure Guid where
  value : BitVec 128
deriving DecidableEq, Repr

namespace Guid

/-- lengths of the five groups of digits -/
def groups : List Nat := [8, 4, 4, 4, 12]

/-- how many digits groups of these lengths have -/
def width : List Nat → Nat
  | [] => 0
  | k :: ks => k + width ks

/-- the last digits of `n` in groups of these lengths, a hyphen between two groups; built from the right -/
def grouped : List Nat → Nat → List Char
  | [], _ => []
  | [k], n => Text.hexDigits k n
  | k :: ks, n => Text.hexDigits k (n / Nat.pow 16 (width ks)) ++ '-' :: grouped ks n

/-- the hyphenated form -/
def text (g : Guid) : String := String.ofList (grouped groups g.value.toNat)

/-- groups of digits with hyphens between them, on top of `acc`, up to the end of the text -/
def readGroups : List Nat → Nat → List Char → Option Nat
  | [], acc, [] => some acc
  | [], _, _ => none
  | [k], acc, cs =>
    match Text.readHex k acc cs with
    | some (n, []) => some n
    | _ => none
  | k :: ks, acc, cs =>
    match Text.readHex k acc cs with
    | some (n, '-' :: rest) => readGroups ks n rest
    | _ => none

/-- the digits of the hyphenated form inside braces or after the URN scheme, or the text itself -/
def unwrap (cs : List Char) : List Char :=
  match cs with
  | '{' :: rest =>
    match rest.reverse with
    | '}' :: inner => inner.reverse
    | _ => cs
  | 'u' :: 'r' :: 'n' :: ':' :: 'u' :: 'u' :: 'i' :: 'd' :: ':' :: rest => rest
  | _ => cs

/-- the GUID of a number, if 128 bits hold it -/
def ofNat? (n : Nat) : Option Guid :=
  let value := BitVec.ofNat 128 n
  if value.toNat = n then some ⟨value⟩ else none

/-- any of the accepted forms -/
def ofText? (s : String) : Option Guid :=
  let cs := s.toList
  let digits := if cs.length == 32 then readGroups [32] 0 cs else readGroups groups 0 (unwrap cs)
  digits.bind ofNat?

end Guid

end OpcPubSub
