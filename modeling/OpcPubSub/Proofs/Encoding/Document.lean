/-
The document of a message, as a tree and without a writer.

Three tables decide it, and they are told here flag by flag, apart from the tables that the encoder goes by. Two flags of
the network mask pick the outermost value: an envelope around one dataset message or an array of them, an array, or the
only dataset message itself. `HeaderField.json?` has a row for each header field: the message's own value, a default or
nothing. `DataValue.field?` is a payload value as its mask shows it: as a variant with its type, bare, or as an object
with those attributes that the mask asks for. Main results:
- `DataValue.field?_eq`: payload values are shown as `FieldEncoding.ofMask` and `DataValue.filter` have it.
- `HeaderField.json?_eq`: header fields hold what `HeaderField.slot` picks.

`reversible` is the form of a status code where none is asked for; documents are made with the reversible form unless
a writer is set up otherwise.
-/
import OpcPubSub.Message.Network
import OpcPubSub.Proofs.Json.Tree
import OpcPubSub.Number.FloatText
import OpcPubSub.Text.Base64
import OpcPubSub.Text.Decimal

namespace OpcPubSub

/-- a string, or null for none -/
def Json.orNull : Option String → Json
  | some s => .string s
  | none => .null

/-- the number alone, or an object with the symbol of a code that has one -/
def StatusCode.json (c : StatusCode) (reversible : Bool) : Json :=
  if reversible then .int c.bits.toNat
  else .object (Json.present [("Code", some (.int c.bits.toNat)), ("Symbol", c.symbol?.map Json.string)])

def ConfigurationVersion.json (v : ConfigurationVersion) : Json :=
  .object [("MajorVersion", .int v.major.toNat), ("MinorVersion", .int v.minor.toNat)]

/-- 64-bit integers are strings, as are floating-point values that are no numbers -/
def Scalar.json (reversible : Bool) : Scalar → Json
  | .boolean b => .bool b
  | .int k n => if k.bits = 64 then .string (Text.decimal n.val) else .int n.val
  | .float x =>
    match Number.nonFinite? .binary32 x.toBits.toNat with
    | some name => .string name
    | none => .atom (.single x)
  | .double x =>
    match Number.nonFinite? .binary64 x.toBits.toNat with
    | some name => .string name
    | none => .double x
  | .string s => .string s
  | .dateTime t => .string t.text
  | .guid g => .string g.text
  | .byteString bytes => .string (String.ofList (Text.Base64.encode bytes))
  | .statusCode c => c.json reversible

namespace Variant

/-- arrays are made of variants that were there before -/
@[elab_as_elim, induction_eliminator]
theorem inductionOn {P : Variant → Prop} (null : P .null) (scalar : ∀ s, P (.scalar s))
    (array : ∀ elem items, (∀ v ∈ items, P v) → P (.array elem items)) (v : Variant) : P v := by
  match v with
  | .null => exact null
  | .scalar s => exact scalar s
  | .array elem items => exact array elem items fun v _ => inductionOn null scalar array v
termination_by sizeOf v
decreasing_by
  have := List.sizeOf_lt_of_mem ‹v ∈ items›
  simp only [Variant.array.sizeOf_spec]; omega

mutual

/-- the value without its type; arrays hold whatever they were built from -/
def body (reversible : Bool) : Variant → Json
  | .null => .null
  | .scalar s => s.json reversible
  | .array _ items => .array (bodies reversible items)

def bodies (reversible : Bool) : List Variant → List Json
  | [] => []
  | v :: rest => v.body reversible :: bodies reversible rest

end

/-- the value with its type if `reversible`; null has none -/
def json (reversible : Bool) (v : Variant) : Json :=
  match v.type?, reversible with
  | none, _ => .null
  | some type, true => .object [("Type", .int type.id), ("Body", v.body true)]
  | some _, false => v.body false

theorem bodies_eq_map (reversible : Bool) (items : List Variant) :
    bodies reversible items = items.map (body reversible) := by
  induction items with
  | nil => rfl
  | cons v rest ih => rw [bodies, ih]; rfl

end Variant

/-- the value and those of its attributes that are there -/
def DataValue.rows (reversible : Bool) (v : DataValue) : List (String × Option Json) :=
  [("Value", some (v.value.json reversible)),
   ("Status", v.status.map fun c => c.json reversible),
   ("SourceTimestamp", v.sourceTimestamp.map fun t => .string t.text),
   ("SourcePicoseconds", v.sourcePicoseconds.map fun n => .int n.toNat),
   ("ServerTimestamp", v.serverTimestamp.map fun t => .string t.text),
   ("ServerPicoseconds", v.serverPicoseconds.map fun n => .int n.toNat)]

def DataValue.json (reversible : Bool) (v : DataValue) : Json := .object (Json.present (v.rows reversible))

/-- the mask asks for an attribute of values: values are shown with attributes, and its flag is set -/
def FieldMask.asks (mask flag : FieldMask) : Bool :=
  !mask.isEmpty && !mask.contains FieldMask.rawData && mask.contains flag

/-- a payload value under a field mask: with its type if nothing is set, bare and never null for raw data, or else with
the attributes that it has and that are asked for -/
def DataValue.field? (mask : FieldMask) (v : DataValue) : Option Json :=
  let typed := mask.contains FieldMask.reversible
  if mask.isEmpty then some (v.value.json true)
  else if mask.contains FieldMask.rawData then
    if v.value.isNull then none else some (v.value.json false)
  else
    some (.object (Json.present
      [("Value", some (v.value.json typed)),
       ("Status", (v.status.filter fun _ => mask.asks FieldMask.statusCode).map fun c => c.json typed),
       ("SourceTimestamp",
         (v.sourceTimestamp.filter fun _ => mask.asks FieldMask.sourceTimestamp).map fun t => .string t.text),
       ("SourcePicoseconds",
         (v.sourcePicoseconds.filter fun _ => mask.asks FieldMask.sourcePicoSeconds).map fun n => .int n.toNat),
       ("ServerTimestamp",
         (v.serverTimestamp.filter fun _ => mask.asks FieldMask.serverTimestamp).map fun t => .string t.text),
       ("ServerPicoseconds",
         (v.serverPicoseconds.filter fun _ => mask.asks FieldMask.serverPicoSeconds).map fun n => .int n.toNat)]))

/-- the fields of a payload in the order they were added -/
def Payload.members (mask : FieldMask) (p : Payload) : Json.Members :=
  Json.present (p.fields.map fun f => (f.1, f.2.field? mask))

/-- a header field: the value of the message if its flag is set, or else its default or nothing. The writer id needs no
flag. -/
def HeaderField.json? (reversible : Bool) (m : DataSetMessage) : HeaderField → Option Json
  | writerId => some (.string (Text.decimal m.writerId.toNat))
  | writerName => if m.mask.contains DataSetMask.dataSetWriterName then some (Json.orNull m.writerName) else none
  | sequenceNumber =>
    some (if m.mask.contains DataSetMask.sequenceNumber then .int m.sequenceNumber.toNat else .int 0)
  | metaDataVersion => some (if m.mask.contains DataSetMask.metaDataVersion then m.version.json else .null)
  | timestamp =>
    some (if m.mask.contains DataSetMask.timestamp then .string m.timestamp.text else .string "0001-01-01T00:00:00Z")
  | status =>
    some (if m.mask.contains DataSetMask.status then m.status.json reversible else StatusCode.json ⟨0⟩ reversible)
  | messageType => if m.mask.contains DataSetMask.messageType then some (.string m.kind.label) else none

namespace DataSetMessage

/-- the header fields in order, and the payload -/
def rows (reversible : Bool) (m : DataSetMessage) : List (String × Option Json) :=
  [("DataSetWriterId", HeaderField.writerId.json? reversible m),
   ("DataSetWriterName", HeaderField.writerName.json? reversible m),
   ("SequenceNumber", HeaderField.sequenceNumber.json? reversible m),
   ("MetaDataVersion", HeaderField.metaDataVersion.json? reversible m),
   ("Timestamp", HeaderField.timestamp.json? reversible m),
   ("Status", HeaderField.status.json? reversible m),
   ("MessageType", HeaderField.messageType.json? reversible m),
   ("Payload", some (.object (m.payload.members m.fieldMask)))]

/-- one object: the header with the payload inside, or the payload alone -/
def json (reversible withHeader : Bool) (m : DataSetMessage) : Json :=
  .object (if withHeader then Json.present (m.rows reversible) else m.payload.members m.fieldMask)

end DataSetMessage

namespace NetworkMessage

/-- the dataset messages inside an envelope; a list of none is left out -/
def inner? (reversible : Bool) (m : NetworkMessage) : Option Json :=
  let withHeader := m.mask.contains NetworkMask.dataSetMessageHeader
  match m.messages with
  | [] => none
  | first :: _ =>
    if m.mask.contains NetworkMask.singleDataSetMessage then some (first.json reversible withHeader)
    else some (.array (m.messages.map fun d => d.json reversible withHeader))

/-- the members of an envelope; what the mask leaves out, and what the message does not have, is null -/
def rows (reversible : Bool) (m : NetworkMessage) : List (String × Option Json) :=
  [("MessageId", some (.string m.messageId)),
   ("MessageType", some (.string "ua-data")),
   ("PublisherId", some (Json.orNull (m.publisherId.filter fun _ => m.mask.contains NetworkMask.publisherId))),
   ("DataSetClassId", some (Json.orNull
     ((m.dataSetClassId.filter fun _ => m.mask.contains NetworkMask.dataSetClassId).map Guid.text))),
   ("ReplyTo", some (Json.orNull (m.replyTo.filter fun _ => m.mask.contains NetworkMask.replyTo))),
   ("Messages", m.inner? reversible)]

/-- the document of a message -/
def document (reversible : Bool) (m : NetworkMessage) : Json :=
  let withHeader := m.mask.contains NetworkMask.dataSetMessageHeader
  match m.mask.contains NetworkMask.networkMessageHeader, m.mask.contains NetworkMask.singleDataSetMessage with
  | true, _ => .object (Json.present (m.rows reversible))
  | false, false => .array (m.messages.map fun d => d.json reversible withHeader)
  | false, true =>
    match m.messages with
    | [] => .object []
    | first :: _ => first.json reversible withHeader

end NetworkMessage

/-! ## The tables of the encoder -/

/-- **An attribute is asked for** only where values are shown with attributes -/
theorem FieldMask.asks_eq (mask flag : FieldMask) :
    mask.asks flag = match FieldEncoding.ofMask mask with
      | .dataValue _ => mask.contains flag
      | _ => false := by
  unfold asks FieldEncoding.ofMask
  cases mask.isEmpty <;> cases mask.contains rawData <;> simp

/-- **A payload value is shown as its mask picks it**, filtered where it has attributes -/
theorem DataValue.field?_eq (mask : FieldMask) (v : DataValue) :
    v.field? mask = match FieldEncoding.ofMask mask with
      | .variant => some (v.value.json true)
      | .rawData => if v.value.isNull then none else some (v.value.json false)
      | .dataValue reversible => some ((v.filter mask).json reversible) := by
  unfold field? FieldMask.asks FieldEncoding.ofMask
  cases mask.isEmpty with
  | true => rfl
  | false =>
    cases mask.contains FieldMask.rawData with
    | true => rfl
    | false => simp [json, rows, filter]

namespace HeaderField

/-- what a header field says of the message -/
def value (reversible : Bool) (m : DataSetMessage) : HeaderField → Json
  | writerId => .string (Text.decimal m.writerId.toNat)
  | writerName => Json.orNull m.writerName
  | sequenceNumber => .int m.sequenceNumber.toNat
  | metaDataVersion => m.version.json
  | timestamp => .string m.timestamp.text
  | status => m.status.json reversible
  | messageType => .string m.kind.label

/-- what stands for a value that is switched off, for the fields that are not left out then -/
def substitute (reversible : Bool) : HeaderField → Json
  | sequenceNumber => .int 0
  | timestamp => .string DateTime.minText
  | status => StatusCode.good.json reversible
  | _ => .null

/-- **A header field holds what its slot picks** -/
theorem json?_eq (reversible : Bool) (m : DataSetMessage) (f : HeaderField) :
    f.json? reversible m = match f.slot m.mask with
      | .value => some (f.value reversible m)
      | .default => some (f.substitute reversible)
      | .omitted => none := by
  cases f with
  | writerId => rfl
  | _ =>
    simp only [json?, slot]
    split_ifs <;> rfl

end HeaderField

theorem DataSetMessage.rows_eq (reversible : Bool) (m : DataSetMessage) :
    m.rows reversible = HeaderField.order.map (fun f => (f.name, f.json? reversible m)) ++
      [("Payload", some (.object (m.payload.members m.fieldMask)))] :=
  rfl

end OpcPubSub
