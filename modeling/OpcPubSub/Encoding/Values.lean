/-
Writing values. A reversible variant is an object of its type id and its body, so that it reads back as the same
variant; a bare one is the body alone. 64-bit integers are strings, so that readers that keep numbers as doubles lose
nothing; so are floating-point values that are no numbers, timestamps, GUIDs and byte strings. A status code is its
number when reversible, and an object with its symbol otherwise.
-/
import OpcPubSub.Json.Writer
import OpcPubSub.Message.DataSet
import OpcPubSub.Text.Base64

namespace OpcPubSub

/-- the leaf a scalar is written as; a status code as its number -/
def Scalar.atom : Scalar → Atom
  | .boolean b => .bool b
  | .int .int64 n => .string (Text.decimal n.val)
  | .int .uint64 n => .string (Text.decimal n.val)
  | .int _ n => .int n.val
  | .float x =>
    match Number.nonFinite? .binary32 x.toBits.toNat with
    | some name => .string name
    | none => .single x
  | .double x =>
    match Number.nonFinite? .binary64 x.toBits.toNat with
    | some name => .string name
    | none => .double x
  | .string s => .string s
  | .dateTime t => .string t.text
  | .guid g => .string g.text
  | .byteString bytes => .string (String.ofList (Text.Base64.encode bytes))
  | .statusCode c => .int c.bits.toNat

namespace Write

def word (name : Option String) (n : Nat) : Write Unit := leaf name (.int n)

def dateTime (name : Option String) (t : DateTime) : Write Unit := leaf name (.string t.text)

/-- a status code in the form asked for -/
def statusAs (name : Option String) (c : StatusCode) (reversible : Bool) : Write Unit :=
  if reversible then word name c.bits.toNat
  else
    scope .object name do
      word (some "Code") c.bits.toNat
      optional c.symbol? fun symbol => leaf (some "Symbol") (.string symbol)

/-- a status code in the writer's own form -/
def status (name : Option String) (c : StatusCode) : Write Unit := fun w => statusAs name c w.reversible w

def scalar (name : Option String) (s : Scalar) (reversible : Bool) : Write Unit :=
  match s with
  | .statusCode c => statusAs name c reversible
  | s => leaf name s.atom

mutual

/-- the body of a variant -/
def body (name : Option String) (v : Variant) (reversible : Bool) : Write Unit :=
  match v with
  | .null => leaf name .null
  | .scalar s => scalar name s reversible
  | .array _ items => scope .array name (bodies items reversible)

/-- the bodies of the items of an array -/
def bodies (items : List Variant) (reversible : Bool) : Write Unit :=
  match items with
  | [] => pure ()
  | v :: rest => do
    body none v reversible
    bodies rest reversible

end

/-- a variant; null is null in either form -/
def variant (name : Option String) (v : Variant) (reversible : Bool) : Write Unit :=
  match v.type? with
  | none => leaf name .null
  | some type =>
    if reversible then
      scope .object name do
        word (some "Type") type.id
        body (some "Body") v true
    else body name v false

/-- a value and those of its attributes that are there -/
def dataValue (name : Option String) (v : DataValue) (reversible : Bool) : Write Unit :=
  scope .object name do
    variant (some "Value") v.value reversible
    optional v.status fun c => statusAs (some "Status") c reversible
    optional v.sourceTimestamp fun t => dateTime (some "SourceTimestamp") t
    optional v.sourcePicoseconds fun n => word (some "SourcePicoseconds") n.toNat
    optional v.serverTimestamp fun t => dateTime (some "ServerTimestamp") t
    optional v.serverPicoseconds fun n => word (some "ServerPicoseconds") n.toNat

def version (name : Option String) (v : ConfigurationVersion) : Write Unit :=
  scope .object name do
    word (some "MajorVersion") v.major.toNat
    word (some "MinorVersion") v.minor.toNat

def versions (name : Option String) (vs : List ConfigurationVersion) : Write Unit :=
  scope .array name (each (version none) vs)

/-- a payload field under a field mask -/
def field (name : String) (v : DataValue) (mask : FieldMask) : Write Unit :=
  match FieldEncoding.ofMask mask with
  | .variant => variant (some name) v.value true
  | .rawData => if v.value.isNull then pure () else variant (some name) v.value false
  | .dataValue reversible => dataValue (some name) (v.filter mask) reversible

end Write

end OpcPubSub
