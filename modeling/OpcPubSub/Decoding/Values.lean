/-
Reading values. A reversible variant names its type, so it comes back as it was written. A bare value is taken for
what its JSON kind suggests: integers become the first of Int32, Int64 and UInt64 that holds them, other numbers
doubles, strings strings, and arrays need items of one such type.
-/
import OpcPubSub.Decoding.Cause
import OpcPubSub.Message.DataSet
import OpcPubSub.Text.Base64

namespace OpcPubSub.Decoding

def fail {α : Type} (c : Cause) : Except Fault α := .error c.fault

/-- the members of an object; `what` names it in the error -/
def object (what : String) : Json → Except Fault Json.Members
  | .object ms => .ok ms
  | j => fail (.expectedObject what j)

/-- an unsigned integer below `bound` -/
def unsigned (bound : Nat) (what : String) : Json → Except Fault Nat
  | .int n => if 0 ≤ n ∧ n < bound then .ok n.toNat else fail (.expectedUnsigned what (.int n))
  | j => fail (.expectedUnsigned what j)

def uint16 (what : String) (j : Json) : Except Fault UInt16 := (unsigned UInt16.size what j).map UInt16.ofNat

def uint32 (what : String) (j : Json) : Except Fault UInt32 := (unsigned UInt32.size what j).map UInt32.ofNat

/-- a string that may be absent or null; a number stands for its text -/
def optString (ms : Json.Members) (name : String) : Except Fault (Option String) :=
  match Json.member? ms name with
  | none => .ok none
  | some (.atom .null) => .ok none
  | some (.atom (.string s)) => .ok (some s)
  | some (.atom (.bool b)) => fail (.expectedString name (.bool b))
  | some (.atom number) => .ok (some number.text)
  | some j => fail (.expectedString name j)

def requiredString (ms : Json.Members) (name : String) : Except Fault String := do
  match ← optString ms name with
  | some s => .ok s
  | none => fail (.missing name)

def dateTime : Json → Except Fault DateTime
  | .string s => DateTime.ofText s
  | j => fail (.expectedTimestamp j)

/-- a status code as a number or as an object with its number; null and an object without one are good -/
def statusCode : Json → Except Fault StatusCode
  | .null => .ok .good
  | .object ms =>
    match Json.member? ms "Code" with
    | none => .ok .good
    | some j => (uint32 "Code" j).map StatusCode.mk
  | j => (uint32 "StatusCode" j).map StatusCode.mk

/-- an integer, written as a number or as a string -/
def integer (k : IntKind) : Json → Except Fault (Whole k)
  | .int n =>
    match Whole.ofInt? k n with
    | some x => .ok x
    | none => fail (.outOfRange k (.int n))
  | .string s =>
    match (Text.readInt k.signed s.toList).bind (Whole.ofInt? k) with
    | some x => .ok x
    | none => fail (.outOfRange k (.string s))
  | j => fail (.expectedInteger k j)

/-- a floating-point number, or the name of a value that is none -/
def float? : Json → Option Float
  | .int n => some (Float.ofInt n)
  | .double x => some x
  | .atom (.single x) => some x.toFloat
  | .string s =>
    if s = "NaN" then some (0.0 / 0.0)
    else if s = "Infinity" then some (1.0 / 0.0)
    else if s = "-Infinity" then some (-1.0 / 0.0)
    else none
  | _ => none

/-- a scalar of a given type -/
def scalar (type : ScalarType) (j : Json) : Except Fault Scalar :=
  match type with
  | .boolean =>
    match j with
    | .bool b => .ok (.boolean b)
    | j => fail (.expectedBody .boolean j)
  | .int k => (integer k j).map (Scalar.int k)
  | .float =>
    match float? j with
    | some x => .ok (.float x.toFloat32)
    | none => fail (.expectedBody .float j)
  | .double =>
    match float? j with
    | some x => .ok (.double x)
    | none => fail (.expectedBody .double j)
  | .string =>
    match j with
    | .string s => .ok (.string s)
    | j => fail (.expectedBody .string j)
  | .dateTime => (dateTime j).map Scalar.dateTime
  | .guid =>
    match j with
    | .string s =>
      match Guid.ofText? s with
      | some g => .ok (.guid g)
      | none => fail (.badGuid s)
    | j => fail (.expectedBody .guid j)
  | .byteString =>
    match j with
    | .string s =>
      match Text.Base64.decode s.toList with
      | some bytes => .ok (.byteString bytes)
      | none => fail .badBase64
    | j => fail (.expectedBody .byteString j)
  | .statusCode => (statusCode j).map Scalar.statusCode

/-- the type that a reversible variant names -/
def variantType (ms : Json.Members) : Except Fault ScalarType :=
  match Json.member? ms "Type" with
  | some (.atom (.int n)) =>
    if 0 ≤ n then
      match ScalarType.ofId? n.toNat with
      | some type => .ok type
      | none => fail (.unknownTypeId n.toNat)
    else fail .noTypeId
  | _ => fail .noTypeId

/-- scalars of a given type, one for each item -/
def scalars (type : ScalarType) : List Json → Except Fault (List Variant)
  | [] => .ok []
  | j :: rest => do
    let s ← scalar type j
    let vs ← scalars type rest
    .ok (.scalar s :: vs)

/-- a variant that names its type -/
def reversible : Json → Except Fault Variant
  | .null => .ok .null
  | j => do
    let ms ← object "reversible variant" j
    let type ← variantType ms
    match Json.value? ms "Body" with
    | none => .ok .null
    | some (.array items) => (scalars type items).map (Variant.array type)
    | some body => (scalar type body).map Variant.scalar

/-- the first of Int32, Int64 and UInt64 that holds an integer -/
def bareInt (n : Int) : Scalar :=
  match Whole.ofInt? .int32 n, Whole.ofInt? .int64 n, Whole.ofInt? .uint64 n with
  | some x, _, _ => .int .int32 x
  | none, some x, _ => .int .int64 x
  | none, none, some x => .int .uint64 x
  | none, none, none => .double (Float.ofInt n)

/-- the scalar a leaf stands for; null is none -/
def bareAtom : Atom → Variant
  | .null => .null
  | .bool b => .scalar (.boolean b)
  | .int n => .scalar (bareInt n)
  | .double x => .scalar (.double x)
  | .single x => .scalar (.float x)
  | .string s => .scalar (.string s)

mutual

/-- a value without its type -/
def bare : Json → Except Fault Variant
  | .atom a => .ok (bareAtom a)
  | .array items =>
    if items.isEmpty then fail .emptyArray
    else
      match bareItems items with
      | .error e => .error e
      | .ok vs =>
        match Variant.ofItems vs with
        | .ok v => .ok v
        | .error e => fail (.notArray e)
  | .object _ => fail .structuredBare

def bareItems : List Json → Except Fault (List Variant)
  | [] => .ok []
  | j :: rest =>
    match bare j with
    | .error e => .error e
    | .ok v =>
      match bareItems rest with
      | .error e => .error e
      | .ok vs => .ok (v :: vs)

end

def variant (isReversible : Bool) (j : Json) : Except Fault Variant := if isReversible then reversible j else bare j

/-- a member, if it is there -/
def optional {α : Type} (ms : Json.Members) (name : String) (read : Json → Except Fault α) :
    Except Fault (Option α) :=
  match Json.member? ms name with
  | none => .ok none
  | some j => (read j).map some

/-- a value with its attributes -/
def dataValue (isReversible : Bool) (j : Json) : Except Fault DataValue := do
  let ms ← object "DataValue" j
  let value ← optional ms "Value" (variant isReversible)
  let status ← optional ms "Status" statusCode
  let sourceTimestamp ← optional ms "SourceTimestamp" dateTime
  let sourcePicoseconds ← optional ms "SourcePicoseconds" (uint16 "SourcePicoseconds")
  let serverTimestamp ← optional ms "ServerTimestamp" dateTime
  let serverPicoseconds ← optional ms "ServerPicoseconds" (uint16 "ServerPicoseconds")
  .ok { value := value.getD .null, status, sourceTimestamp, sourcePicoseconds, serverTimestamp, serverPicoseconds }

/-- a payload field under a field mask -/
def field (mask : FieldMask) (j : Json) : Except Fault DataValue :=
  match FieldEncoding.ofMask mask with
  | .variant => (reversible j).map DataValue.plain
  | .rawData => (bare j).map DataValue.plain
  | .dataValue isReversible => dataValue isReversible j

end OpcPubSub.Decoding
