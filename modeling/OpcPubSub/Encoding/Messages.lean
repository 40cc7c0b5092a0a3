/-
Writing messages. A dataset message is one object: with a header, the header fields in order and the payload as a
member of its own; without, the payload fields alone. A network message is written in the shape its mask asks for.
-/
import OpcPubSub.Encoding.Values
import OpcPubSub.Message.Network

namespace OpcPubSub

namespace Write

def payload (p : Payload) (mask : FieldMask) : Write Unit := each (fun f => field f.1 f.2 mask) p.fields

/-- one header field: the message's own value, the default, or nothing -/
def headerField (m : DataSetMessage) (f : HeaderField) : Write Unit :=
  let name := some f.name
  match f, f.slot m.mask with
  | _, .omitted => pure ()
  | .writerId, _ => leaf name (.string (Text.decimal m.writerId.toNat))
  | .writerName, _ => optString name m.writerName
  | .sequenceNumber, .value => word name m.sequenceNumber.toNat
  | .sequenceNumber, .default => word name 0
  | .metaDataVersion, .value => version name m.version
  | .metaDataVersion, .default => leaf name .null
  | .timestamp, .value => dateTime name m.timestamp
  | .timestamp, .default => dateTime name .min
  | .status, .value => status name m.status
  | .status, .default => status name .good
  | .messageType, _ => leaf name (.string m.kind.label)

/-- a dataset message with its header -/
def dataSetWithHeader (name : Option String) (m : DataSetMessage) : Write Unit :=
  scope .object name do
    each (headerField m) HeaderField.order
    scope .object (some "Payload") (payload m.payload m.fieldMask)

/-- a dataset message with or without its header -/
def dataSet (name : Option String) (header : Bool) (m : DataSetMessage) : Write Unit :=
  if header then dataSetWithHeader name m else scope .object name (payload m.payload m.fieldMask)

/-- the dataset messages of a network message: the only one, or all in an array -/
def messages (name : Option String) (layout : Layout) (ms : List DataSetMessage) : Write Unit :=
  if layout.single then optional ms.head? (dataSet name layout.dataSetHeader)
  else scope .array name (each (dataSet none layout.dataSetHeader) ms)

/-- the envelope around the messages; parts that the mask leaves out are null, and a list of no messages is left out -/
def envelope (m : NetworkMessage) (layout : Layout) : Write Unit :=
  scope .object none do
    leaf (some "MessageId") (.string m.messageId)
    leaf (some "MessageType") (.string NetworkMessage.dataMessageType)
    optString (some "PublisherId") (m.publisherId.filter fun _ => m.mask.contains NetworkMask.publisherId)
    optString (some "DataSetClassId")
      ((m.dataSetClassId.filter fun _ => m.mask.contains NetworkMask.dataSetClassId).map Guid.text)
    optString (some "ReplyTo") (m.replyTo.filter fun _ => m.mask.contains NetworkMask.replyTo)
    if m.messages.isEmpty then pure () else messages (some "Messages") layout m.messages

/-- a network message; nothing is written if it is not valid -/
def network (m : NetworkMessage) : Write Unit := fun w =>
  match m.validate with
  | .error e => .error e w
  | .ok _ =>
    let layout := Layout.ofMask m.mask
    let action : Write Unit :=
      match layout.root with
      | .envelope => envelope m layout
      | .array => messages none layout m.messages
      | .singleMessage =>
        match m.messages with
        | first :: _ => dataSet none layout.dataSetHeader first
        | [] => scope .object none (pure ())
    action w

/-- the document that an action writes on a fresh writer -/
def document (action : Write Unit) : Except Fault String :=
  match action {} with
  | .error e _ => .error e
  | .ok _ w => w.finish

end Write

/-- the document of a network message -/
def NetworkMessage.encode (m : NetworkMessage) : Except Fault String := Write.document (Write.network m)

end OpcPubSub
