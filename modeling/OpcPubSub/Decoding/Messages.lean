/-
Reading messages under a reader's masks. Header attributes that the dataset mask leaves out keep their defaults, as do
those that are absent or null. A single dataset message at the root that is an empty object stands for no message.
-/
import OpcPubSub.Decoding.Values
import OpcPubSub.Json.Parse
import OpcPubSub.Message.Network

namespace OpcPubSub.Decoding

/-- payload fields, each added to those before it -/
def payload (mask : FieldMask) (p : Payload) : Json.Members → Except Fault Payload
  | [] => .ok p
  | (name, j) :: rest =>
    match field mask j with
    | .error e => fail (.field name e)
    | .ok v =>
      match p.insert name v with
      | .error e => .error e
      | .ok p => payload mask p rest

/-- a header attribute: its member if the mask asks for it and it is there and not null, else the default -/
def headerValue {α : Type} (mask flag : DataSetMask) (ms : Json.Members) (name : String) (default : α)
    (read : Json → Except Fault α) : Except Fault α :=
  match Json.value? ms name with
  | some j => if mask.contains flag then read j else .ok default
  | none => .ok default

def version (j : Json) : Except Fault ConfigurationVersion := do
  let ms ← object "MetaDataVersion" j
  let major ← optional ms "MajorVersion" (uint32 "MajorVersion")
  let minor ← optional ms "MinorVersion" (uint32 "MinorVersion")
  .ok ⟨major.getD 0, minor.getD 0⟩

def frameKind : Json → Except Fault FrameKind
  | .string s =>
    match FrameKind.ofLabel? s with
    | some k => .ok k
    | none => fail (.unknownFrameKind s)
  | j => fail (.expectedString "MessageType" j)

/-- a writer id from its text -/
def writerId (s : String) : Except Fault UInt16 :=
  match Text.readInt false s.toList with
  | some n => if n < UInt16.size then .ok (UInt16.ofNat n.toNat) else fail (.badWriterId s)
  | none => fail (.badWriterId s)

/-- a dataset message with an empty payload from the header in `ms` -/
def header (settings : ReaderSettings) (ms : Json.Members) : Except Fault DataSetMessage := do
  let mask := settings.dataSet
  let id ← requiredString ms HeaderField.writerId.name
  let id ← writerId id
  let writerName ←
    if mask.contains DataSetMask.dataSetWriterName then optString ms HeaderField.writerName.name else .ok none
  let sequenceNumber ← headerValue mask DataSetMask.sequenceNumber ms HeaderField.sequenceNumber.name 0
    (uint32 HeaderField.sequenceNumber.name)
  let version ← headerValue mask DataSetMask.metaDataVersion ms HeaderField.metaDataVersion.name {} version
  let timestamp ← headerValue mask DataSetMask.timestamp ms HeaderField.timestamp.name .min dateTime
  let status ← headerValue mask DataSetMask.status ms HeaderField.status.name .good statusCode
  let kind ← headerValue mask DataSetMask.messageType ms HeaderField.messageType.name .key frameKind
  .ok { writerId := id, writerName, sequenceNumber, version, timestamp, status, kind, payload := .empty, mask,
        fieldMask := settings.field }

/-- a dataset message with or without its header -/
def dataSet (settings : ReaderSettings) (withHeader : Bool) (j : Json) : Except Fault DataSetMessage := do
  let ms ← object "dataset message" j
  if withHeader then
    let m ← header settings ms
    match Json.member? ms "Payload" with
    | none => fail .missingPayload
    | some j =>
      let fields ← object "Payload" j
      let p ← payload settings.field .empty fields
      .ok { m with payload := p }
  else
    let p ← payload settings.field .empty ms
    .ok { writerId := 0, payload := p, mask := settings.dataSet, fieldMask := settings.field }

/-- dataset messages, one for each item -/
def dataSets (settings : ReaderSettings) (withHeader : Bool) : List Json → Except Fault (List DataSetMessage)
  | [] => .ok []
  | j :: rest => do
    let m ← dataSet settings withHeader j
    let ms ← dataSets settings withHeader rest
    .ok (m :: ms)

/-- the dataset messages of a layout: the only one, or all in an array -/
def messages (settings : ReaderSettings) (layout : Layout) (j : Json) : Except Fault (List DataSetMessage) :=
  if layout.single then (dataSet settings layout.dataSetHeader j).map fun m => [m]
  else
    match j with
    | .array items => dataSets settings layout.dataSetHeader items
    | j => fail (.expectedMessages j)

/-- the envelope, its messages unread -/
def envelope (settings : ReaderSettings) (ms : Json.Members) : Except Fault NetworkMessage := do
  let messageId ← requiredString ms "MessageId"
  let type ← requiredString ms "MessageType"
  if type ≠ NetworkMessage.dataMessageType then fail (.unknownMessageType type)
  let publisherId ← optString ms "PublisherId"
  let classId ← optString ms "DataSetClassId"
  let dataSetClassId ←
    match classId with
    | none => .ok none
    | some s =>
      match Guid.ofText? s with
      | some g => .ok (some g)
      | none => fail (.badClassId s)
  let replyTo ← optString ms "ReplyTo"
  .ok { messageId, publisherId, dataSetClassId, replyTo, mask := settings.network }

/-- a network message from its document -/
def network (settings : ReaderSettings) (j : Json) : Except Fault NetworkMessage := do
  let layout := Layout.ofMask settings.network
  let bare : NetworkMessage := { messageId := "", mask := settings.network }
  match layout.root with
  | .envelope =>
    let ms ← object "network message" j
    let m ← envelope settings ms
    match Json.value? ms "Messages" with
    | none => .ok m
    | some j =>
      let ds ← messages settings layout j
      .ok { m with messages := ds }
  | .singleMessage =>
    match j with
    | .object [] => .ok bare
    | j =>
      let ds ← messages settings layout j
      .ok { bare with messages := ds }
  | .array =>
    let ds ← messages settings layout j
    .ok { bare with messages := ds }

end OpcPubSub.Decoding

namespace OpcPubSub

/-- the network message that a text stands for under a reader's masks -/
def NetworkMessage.decode (settings : ReaderSettings) (text : String) : Except Fault NetworkMessage := do
  let j ← Json.parseDocument text
  Decoding.network settings j

end OpcPubSub
