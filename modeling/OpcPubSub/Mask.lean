/-
Content masks. Each of three layers (network message, dataset message, payload field) has a 32-bit mask whose flags
switch parts of the encoding on. A mask may carry bits that no flag of its layer owns: they name nothing, yet a mask
with such bits is not empty.

A flag has a name, used in configurations and when a mask is shown. `ofName` reads one name, whatever its case and
the blanks around it; `ofNames` reads a list and answers the union; `names` lists the flags of a mask in bit order.
-/
import OpcPubSub.Error
import OpcPubSub.Text.Blank

namespace OpcPubSub

/-- the layers that have a content mask -/
inductive Layer where
  | network
  | dataSet
  | field
deriving DecidableEq, Repr

/-- a content mask of layer `l` -/
structure Mask (l : Layer) where
  bits : UInt32
deriving DecidableEq, Repr

abbrev NetworkMask := Mask .network
abbrev DataSetMask := Mask .dataSet
abbrev FieldMask := Mask .field

namespace NetworkMask

def networkMessageHeader : NetworkMask := ⟨0x01⟩
def dataSetMessageHeader : NetworkMask := ⟨0x02⟩
def singleDataSetMessage : NetworkMask := ⟨0x04⟩
def publisherId : NetworkMask := ⟨0x08⟩
def dataSetClassId : NetworkMask := ⟨0x10⟩
def replyTo : NetworkMask := ⟨0x20⟩

end NetworkMask

namespace DataSetMask

/-- accepted but without effect: the writer id is always written where there is a dataset header -/
def dataSetWriterId : DataSetMask := ⟨0x01⟩
def metaDataVersion : DataSetMask := ⟨0x02⟩
def sequenceNumber : DataSetMask := ⟨0x04⟩
def timestamp : DataSetMask := ⟨0x08⟩
def status : DataSetMask := ⟨0x10⟩
def messageType : DataSetMask := ⟨0x20⟩
def dataSetWriterName : DataSetMask := ⟨0x40⟩

end DataSetMask

namespace FieldMask

def statusCode : FieldMask := ⟨0x01⟩
def sourceTimestamp : FieldMask := ⟨0x02⟩
def serverTimestamp : FieldMask := ⟨0x04⟩
def sourcePicoSeconds : FieldMask := ⟨0x08⟩
def serverPicoSeconds : FieldMask := ⟨0x10⟩
def rawData : FieldMask := ⟨0x20⟩
def reversible : FieldMask := ⟨0x40⟩

end FieldMask

/-- what an error calls the mask of a layer -/
def Layer.title : Layer → String
  | .network => "network content mask"
  | .dataSet => "dataset content mask"
  | .field => "field content mask"

namespace Mask

variable {l : Layer}

def empty : Mask l := ⟨0⟩

def isEmpty (m : Mask l) : Bool := m.bits == 0

def union (a b : Mask l) : Mask l := ⟨a.bits ||| b.bits⟩

/-- every bit of `flag` is set -/
def contains (m flag : Mask l) : Bool := m.bits &&& flag.bits == flag.bits

/-- the flags that a layer declares -/
def declared : (l : Layer) → List (Mask l)
  | .network =>
    [NetworkMask.networkMessageHeader, NetworkMask.dataSetMessageHeader, NetworkMask.singleDataSetMessage,
     NetworkMask.publisherId, NetworkMask.dataSetClassId, NetworkMask.replyTo]
  | .dataSet =>
    [DataSetMask.dataSetWriterId, DataSetMask.metaDataVersion, DataSetMask.sequenceNumber, DataSetMask.timestamp,
     DataSetMask.status, DataSetMask.messageType, DataSetMask.dataSetWriterName]
  | .field =>
    [FieldMask.statusCode, FieldMask.sourceTimestamp, FieldMask.serverTimestamp, FieldMask.sourcePicoSeconds,
     FieldMask.serverPicoSeconds, FieldMask.rawData, FieldMask.reversible]

/-- all flags of the layer -/
def all (l : Layer) : Mask l := (declared l).foldl union empty

/-- the names of a layer's flags, in bit order -/
def flags : (l : Layer) → List (String × Mask l)
  | .network =>
    [("NetworkMessageHeader", NetworkMask.networkMessageHeader),
     ("DataSetMessageHeader", NetworkMask.dataSetMessageHeader),
     ("SingleDataSetMessage", NetworkMask.singleDataSetMessage),
     ("PublisherId", NetworkMask.publisherId),
     ("DataSetClassId", NetworkMask.dataSetClassId),
     ("ReplyTo", NetworkMask.replyTo)]
  | .dataSet =>
    [("DataSetWriterId", DataSetMask.dataSetWriterId),
     ("MetaDataVersion", DataSetMask.metaDataVersion),
     ("SequenceNumber", DataSetMask.sequenceNumber),
     ("Timestamp", DataSetMask.timestamp),
     ("Status", DataSetMask.status),
     ("MessageType", DataSetMask.messageType),
     ("DataSetWriterName", DataSetMask.dataSetWriterName)]
  | .field =>
    [("StatusCode", FieldMask.statusCode),
     ("SourceTimestamp", FieldMask.sourceTimestamp),
     ("ServerTimestamp", FieldMask.serverTimestamp),
     ("SourcePicoSeconds", FieldMask.sourcePicoSeconds),
     ("ServerPicoSeconds", FieldMask.serverPicoSeconds),
     ("RawData", FieldMask.rawData),
     ("Reversible", FieldMask.reversible)]

/-- no bit but those of the layer's flags -/
def isKnown (m : Mask l) : Bool := (all l).contains m

/-- the mask without the bits that no flag owns -/
def truncate (m : Mask l) : Mask l := ⟨m.bits &&& (all l).bits⟩

/-- the names of the flags set, in bit order -/
def names (m : Mask l) : List String := ((flags l).filter fun f => m.contains f.2).map Prod.fst

/-- the flag names joined by bars; `None` for the empty mask, nothing if only unowned bits are set -/
def display (m : Mask l) : String := if m.isEmpty then "None" else "|".intercalate m.names

/-- equal but for the case of ASCII letters -/
def sameName (a b : String) : Bool := a.toList.map Char.toLower == b.toList.map Char.toLower

/-- the flag with this name -/
def ofName (l : Layer) (s : String) : Except Fault (Mask l) :=
  let name := Text.trim s
  match (flags l).find? fun f => sameName f.1 name with
  | some f => .ok f.2
  | none => .error (.badConfig (s!"unknown {l.title} flag: " ++ name))

/-- the union of the named flags; the first unknown name is the error -/
def ofNames (l : Layer) (names : List String) : Except Fault (Mask l) :=
  names.foldlM (fun m s => (ofName l s).map m.union) empty

end Mask

end OpcPubSub
