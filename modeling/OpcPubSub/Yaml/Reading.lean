/-
Taking values out of a YAML tree. Each reader asks for one kind of value. Any scalar is a string, quoted or not; a
number has to be plain; an optional value is absent if it is a plain empty text or one of the words for null; an empty
plain scalar is also the empty list and the record without members. A record is a mapping whose keys are scalars, all
known and none repeated.
-/
import OpcPubSub.Number.Nearest
import OpcPubSub.Text.Decimal
import OpcPubSub.Text.Hex
import OpcPubSub.Yaml.Node

namespace OpcPubSub.Yaml

/-- the words for no value -/
def isNull (text : String) : Bool := text ∈ ["", "~", "null", "Null", "NULL"]

/-- the digits of a number in base `base`, on top of `acc` -/
def readRadix (base acc : Nat) : List Char → Option Nat
  | [] => some acc
  | c :: cs =>
    match Text.hexValue c with
    | some d => if d < base then readRadix base (base * acc + d) cs else none
    | none => none

/-- one or more digits in base `base` -/
def radixNumber? (base : Nat) (cs : List Char) : Option Nat := if cs.isEmpty then none else readRadix base 0 cs

/-- an unsigned integer: decimal without leading zeros, or hexadecimal, octal or binary with its mark; a plus may
stand before it -/
def unsigned? (text : String) : Option Nat :=
  let cs :=
    match text.toList with
    | '+' :: cs => cs
    | cs => cs
  match cs with
  | '0' :: 'x' :: ds => radixNumber? 16 ds
  | '0' :: 'o' :: ds => radixNumber? 8 ds
  | '0' :: 'b' :: ds => radixNumber? 2 ds
  | '0' :: _ :: _ => none
  | ds => radixNumber? 10 ds

/-- an exponent, up to the end of the text -/
def exponent? : List Char → Option Int
  | [] => some 0
  | c :: cs => if c = 'e' ∨ c = 'E' then Text.readInt true cs else none

/-- a decimal number without sign: digits before the point or after it, or both, and an exponent -/
def magnitude? (cs : List Char) : Option Float :=
  let whole := cs.takeWhile Char.isDigit
  let rest := cs.dropWhile Char.isDigit
  let (fraction, rest) :=
    match rest with
    | '.' :: rest => (rest.takeWhile Char.isDigit, rest.dropWhile Char.isDigit)
    | rest => ([], rest)
  let ds := whole ++ fraction
  if ds.isEmpty then none
  else do
    let m ← Text.readDigits 0 ds
    let e ← exponent? rest
    Number.nearestDecimal? m ds.length (e - fraction.length)

/-- the words for infinity, sign apart -/
def isInfinity (cs : List Char) : Bool := String.ofList cs ∈ [".inf", ".Inf", ".INF"]

/-- a floating-point number: a decimal number in the range of doubles, an infinity, or the word for no number -/
def float? (text : String) : Option Float :=
  match text.toList with
  | '+' :: cs => if isInfinity cs then some (1.0 / 0.0) else magnitude? cs
  | '-' :: cs => (if isInfinity cs then some (1.0 / 0.0) else magnitude? cs).map (-·)
  | cs =>
    if isInfinity cs then some (1.0 / 0.0)
    else if text ∈ [".nan", ".NaN", ".NAN"] then some (0.0 / 0.0)
    else magnitude? cs

namespace Node

def string : Node → Option String
  | scalar text _ => some text
  | _ => none

/-- an unsigned integer below `bound` -/
def unsigned (bound : Nat) : Node → Option Nat
  | scalar text true => (unsigned? text).filter (· < bound)
  | _ => none

def uint16 (n : Node) : Option UInt16 := (n.unsigned UInt16.size).map UInt16.ofNat

def uint32 (n : Node) : Option UInt32 := (n.unsigned UInt32.size).map UInt32.ofNat

def uint64 (n : Node) : Option UInt64 := (n.unsigned UInt64.size).map UInt64.ofNat

def float : Node → Option Float
  | scalar text true => float? text
  | _ => none

/-- a value that may be absent -/
def optional {α : Type} (read : Node → Option α) (n : Node) : Option (Option α) :=
  match n with
  | scalar text true => if isNull text then some none else (read n).map some
  | _ => (read n).map some

def list {α : Type} (read : Node → Option α) : Node → Option (List α)
  | sequence items => items.mapM read
  | scalar "" true => some []
  | _ => none

/-- one of the words of a table -/
def word {α : Type} (table : List (String × α)) : Node → Option α
  | scalar text _ => table.lookup text
  | _ => none

/-- the members of a record that may have these, each at most once -/
def members (names : List String) : Node → Option (List (String × Node))
  | mapping entries => do
    let ms ← entries.mapM fun (key, value) => do
      let name ← key.string
      if name ∈ names then some (name, value) else none
    if (ms.map Prod.fst).Nodup then some ms else none
  | scalar "" true => some []
  | _ => none

/-- a member that has to be there -/
def required {α : Type} (ms : List (String × Node)) (name : String) (read : Node → Option α) : Option α :=
  (ms.lookup name).bind read

/-- a member that has a default -/
def withDefault {α : Type} (ms : List (String × Node)) (name : String) (default : α) (read : Node → Option α) :
    Option α :=
  match ms.lookup name with
  | some n => read n
  | none => some default

end Node

end OpcPubSub.Yaml
