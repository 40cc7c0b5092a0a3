/-
Values of dataset fields. A variant is null, a scalar of one of sixteen types, or an array that carries its element
type, so that an empty array has one too. The type of an array's items is checked by `Variant.ofItems` and not by the
type of variants: an encoder is handed whatever its caller built, mixed and nested arrays included.
-/
import OpcPubSub.Error
import OpcPubSub.Guid
import OpcPubSub.Status
import OpcPubSub.Time.DateTime

namespace OpcPubSub

/-- the integer types -/
inductive IntKind where
  | sbyte
  | byte
  | int16
  | uint16
  | int32
  | uint32
  | int64
  | uint64
deriving DecidableEq, Repr

namespace IntKind

def signed : IntKind → Bool
  | .sbyte | .int16 | .int32 | .int64 => true
  | .byte | .uint16 | .uint32 | .uint64 => false

def bits : IntKind → Nat
  | .sbyte | .byte => 8
  | .int16 | .uint16 => 16
  | .int32 | .uint32 => 32
  | .int64 | .uint64 => 64

def least (k : IntKind) : Int := if k.signed then -(Nat.pow 2 (k.bits - 1)) else 0

def greatest (k : IntKind) : Int := if k.signed then Nat.pow 2 (k.bits - 1) - 1 else Nat.pow 2 k.bits - 1

def name : IntKind → String
  | .sbyte => "SByte"
  | .byte => "Byte"
  | .int16 => "Int16"
  | .uint16 => "UInt16"
  | .int32 => "Int32"
  | .uint32 => "UInt32"
  | .int64 => "Int64"
  | .uint64 => "UInt64"

end IntKind

/-- an integer in the range of a kind -/
structure Whole (k : IntKind) where
  val : Int
  least_le : k.least ≤ val
  le_greatest : val ≤ k.greatest
deriving DecidableEq

/-- the integer as a value of kind `k`, if it is in range -/
def Whole.ofInt? (k : IntKind) (n : Int) : Option (Whole k) :=
  if h : k.least ≤ n ∧ n ≤ k.greatest then some ⟨n, h.1, h.2⟩ else none

/-- a 32-bit word as an unsigned integer -/
def Whole.ofUInt32 (n : UInt32) : Whole .uint32 :=
  ⟨n.toNat, Int.natCast_nonneg _, Int.le_sub_one_of_lt (Int.ofNat_lt.2 n.toNat_lt)⟩

/-- the types of scalars -/
inductive ScalarType where
  | boolean
  | int (k : IntKind)
  | float
  | double
  | string
  | dateTime
  | guid
  | byteString
  | statusCode
deriving DecidableEq, Repr

namespace ScalarType

/-- all types, in the order of their ids -/
def all : List ScalarType :=
  [.boolean, .int .sbyte, .int .byte, .int .int16, .int .uint16, .int .int32, .int .uint32, .int .int64, .int .uint64,
   .float, .double, .string, .dateTime, .guid, .byteString, .statusCode]

/-- the id of a type in documents -/
def id : ScalarType → Nat
  | .boolean => 1
  | .int .sbyte => 2
  | .int .byte => 3
  | .int .int16 => 4
  | .int .uint16 => 5
  | .int .int32 => 6
  | .int .uint32 => 7
  | .int .int64 => 8
  | .int .uint64 => 9
  | .float => 10
  | .double => 11
  | .string => 12
  | .dateTime => 13
  | .guid => 14
  | .byteString => 15
  | .statusCode => 19

def ofId? (n : Nat) : Option ScalarType := all.find? fun t => t.id == n

def name : ScalarType → String
  | .boolean => "Boolean"
  | .int k => k.name
  | .float => "Float"
  | .double => "Double"
  | .string => "String"
  | .dateTime => "DateTime"
  | .guid => "Guid"
  | .byteString => "ByteString"
  | .statusCode => "StatusCode"

end ScalarType

/-- a single value -/
inductive Scalar where
  | boolean (b : Bool)
  | int (k : IntKind) (n : Whole k)
  | float (x : Float32)
  | double (x : Float)
  | string (s : String)
  | dateTime (t : DateTime)
  | guid (g : Guid)
  | byteString (bytes : List UInt8)
  | statusCode (c : StatusCode)
deriving DecidableEq

namespace Scalar

def type : Scalar → ScalarType
  | .boolean _ => .boolean
  | .int k _ => .int k
  | .float _ => .float
  | .double _ => .double
  | .string _ => .string
  | .dateTime _ => .dateTime
  | .guid _ => .guid
  | .byteString _ => .byteString
  | .statusCode _ => .statusCode

/-- equality that compares floating-point numbers as numbers: what is not a number differs from itself, and the two
zeros are equal -/
def same : Scalar → Scalar → Bool
  | .float x, .float y => x == y
  | .double x, .double y => x == y
  | a, b => a = b

end Scalar

inductive Variant where
  | null
  | scalar (s : Scalar)
  | array (elem : ScalarType) (items : List Variant)

namespace Variant

instance : Inhabited Variant := ⟨null⟩

def isNull : Variant → Bool
  | null => true
  | _ => false

/-- the type of a scalar; null and arrays have none -/
def scalarType? : Variant → Option ScalarType
  | scalar s => some s.type
  | _ => none

/-- the type a document tags the value with: that of the elements for an array -/
def type? : Variant → Option ScalarType
  | null => none
  | scalar s => some s.type
  | array elem _ => some elem

/-- what an error calls the type of a value -/
def typeName : Variant → String
  | null => "Null"
  | scalar s => s.type.name
  | array elem _ => "Array<" ++ elem.name ++ ">"

/-- why a list of values is no array -/
inductive ArrayFault where
  | noElementType
  | notScalar
  | mixed (expected : ScalarType) (found : Variant)

def ArrayFault.fault : ArrayFault → Fault
  | .noElementType => .invalidValue "empty array needs an element type"
  | .notScalar => .invalidValue "array elements must be non-null scalars"
  | .mixed expected found => .invalidValue (s!"mixed array: expected {expected.name}, found " ++ found.typeName)

/-- the array of a non-empty list of scalars of one type, that of the first -/
def ofItems (items : List Variant) : Except ArrayFault Variant :=
  match items with
  | [] => .error .noElementType
  | first :: _ =>
    match first.scalarType? with
    | none => .error .notScalar
    | some elem =>
      match items.find? fun v => v.scalarType? ≠ some elem with
      | some v => .error (.mixed elem v)
      | none => .ok (array elem items)

/-- null, a scalar, or an array whose items are all scalars of its element type -/
def WellFormed : Variant → Prop
  | null => True
  | scalar _ => True
  | array elem items => ∀ v ∈ items, v.scalarType? = some elem

mutual

/-- equality of values, numbers compared as numbers -/
def same : Variant → Variant → Bool
  | null, null => true
  | scalar a, scalar b => a.same b
  | array s xs, array t ys => s = t && sameItems xs ys
  | _, _ => false

def sameItems : List Variant → List Variant → Bool
  | [], [] => true
  | x :: xs, y :: ys => x.same y && sameItems xs ys
  | _, _ => false

end

end Variant

end OpcPubSub
