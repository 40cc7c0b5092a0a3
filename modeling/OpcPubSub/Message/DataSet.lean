/-
Dataset messages: what one dataset writer reports, and two tables. The header table says, for each field of the header
in the order they are written, whether a mask makes it the message's own value, a default or nothing. The field table
says how payload values are written under a field mask.
-/
import OpcPubSub.Mask
import OpcPubSub.Message.Payload

namespace OpcPubSub

/-- key frames carry every field, delta frames those that changed -/
inductive FrameKind where
  | key
  | delta
deriving DecidableEq, Repr

namespace FrameKind

def label : FrameKind → String
  | key => "ua-keyframe"
  | delta => "ua-deltaframe"

def ofLabel? (s : String) : Option FrameKind :=
  if s = key.label then some key else if s = delta.label then some delta else none

end FrameKind

structure DataSetMessage where
  writerId : UInt16
  writerName : Option String := none
  sequenceNumber : UInt32 := 0
  version : ConfigurationVersion := {}
  timestamp : DateTime := .min
  status : StatusCode := .good
  kind : FrameKind := .key
  payload : Payload
  mask : DataSetMask := .empty
  fieldMask : FieldMask := .empty

namespace DataSetMessage

/-- equal in every part, numbers compared as numbers -/
def same (a b : DataSetMessage) : Bool :=
  a.writerId = b.writerId && a.writerName = b.writerName && a.sequenceNumber = b.sequenceNumber &&
    a.version = b.version && a.timestamp = b.timestamp && a.status = b.status && a.kind = b.kind &&
    a.payload.same b.payload && a.mask = b.mask && a.fieldMask = b.fieldMask

end DataSetMessage

/-- the fields of a dataset header -/
inductive HeaderField where
  | writerId
  | writerName
  | sequenceNumber
  | metaDataVersion
  | timestamp
  | status
  | messageType
deriving DecidableEq, Repr

/-- what the header holds for a field -/
inductive Slot where
  /-- the message's own value -/
  | value
  | default
  | omitted
deriving DecidableEq, Repr

namespace HeaderField

/-- the fields in the order they are written -/
def order : List HeaderField :=
  [writerId, writerName, sequenceNumber, metaDataVersion, timestamp, status, messageType]

def name : HeaderField → String
  | writerId => "DataSetWriterId"
  | writerName => "DataSetWriterName"
  | sequenceNumber => "SequenceNumber"
  | metaDataVersion => "MetaDataVersion"
  | timestamp => "Timestamp"
  | status => "Status"
  | messageType => "MessageType"

/-- the flag of a field and what it holds when the flag is unset; the writer id needs no flag -/
def slot (f : HeaderField) (mask : DataSetMask) : Slot :=
  let ifSet (flag : DataSetMask) (unset : Slot) : Slot := if mask.contains flag then .value else unset
  match f with
  | writerId => .value
  | writerName => ifSet DataSetMask.dataSetWriterName .omitted
  | sequenceNumber => ifSet DataSetMask.sequenceNumber .default
  | metaDataVersion => ifSet DataSetMask.metaDataVersion .default
  | timestamp => ifSet DataSetMask.timestamp .default
  | status => ifSet DataSetMask.status .default
  | messageType => ifSet DataSetMask.messageType .omitted

end HeaderField

/-- how payload values are written -/
inductive FieldEncoding where
  /-- variants that carry their type -/
  | variant
  /-- bare values, null left out -/
  | rawData
  /-- values with the attributes the mask asks for; the values carry their type if `reversible` -/
  | dataValue (reversible : Bool)
deriving DecidableEq, Repr

namespace FieldEncoding

def ofMask (mask : FieldMask) : FieldEncoding :=
  if mask.isEmpty then variant
  else if mask.contains FieldMask.rawData then rawData
  else dataValue (mask.contains FieldMask.reversible)

end FieldEncoding

namespace DataValue

/-- the value with those attributes only that the mask asks for -/
def filter (v : DataValue) (mask : FieldMask) : DataValue where
  value := v.value
  status := v.status.filter fun _ => mask.contains FieldMask.statusCode
  sourceTimestamp := v.sourceTimestamp.filter fun _ => mask.contains FieldMask.sourceTimestamp
  sourcePicoseconds := v.sourcePicoseconds.filter fun _ => mask.contains FieldMask.sourcePicoSeconds
  serverTimestamp := v.serverTimestamp.filter fun _ => mask.contains FieldMask.serverTimestamp
  serverPicoseconds := v.serverPicoseconds.filter fun _ => mask.contains FieldMask.serverPicoSeconds

end DataValue

end OpcPubSub
