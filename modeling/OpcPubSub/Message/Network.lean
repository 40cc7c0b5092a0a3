/-
Network messages: a list of dataset messages with an envelope, and the table that says which shape of document a mask
asks for.
-/
import OpcPubSub.Message.DataSet

namespace OpcPubSub

/-- the outermost value of a document -/
inductive Root where
  /-- an envelope object with the dataset messages inside -/
  | envelope
  /-- an array of dataset messages -/
  | array
  /-- the only dataset message itself -/
  | singleMessage
deriving DecidableEq, Repr

/-- the shape of a document -/
structure Layout where
  root : Root
  single : Bool
  dataSetHeader : Bool
deriving DecidableEq, Repr

/-- the shape a mask asks for -/
def Layout.ofMask (mask : NetworkMask) : Layout :=
  let single := mask.contains NetworkMask.singleDataSetMessage
  { root :=
      if mask.contains NetworkMask.networkMessageHeader then .envelope
      else if single then .singleMessage
      else .array
    single
    dataSetHeader := mask.contains NetworkMask.dataSetMessageHeader }

/-- the masks a reader is set up with; they have to be those of the sender -/
structure ReaderSettings where
  network : NetworkMask := .empty
  dataSet : DataSetMask := .empty
  field : FieldMask := .empty
deriving DecidableEq, Repr

structure NetworkMessage where
  messageId : String
  publisherId : Option String := none
  dataSetClassId : Option Guid := none
  replyTo : Option String := none
  messages : List DataSetMessage := []
  mask : NetworkMask

namespace NetworkMessage

/-- the message type of every network message that carries data -/
def dataMessageType : String := "ua-data"

/-- single message mode carries at most one message -/
def validate (m : NetworkMessage) : Except Fault Unit :=
  if m.mask.contains NetworkMask.singleDataSetMessage ∧ 1 < m.messages.length then
    .error (.singleMessageCount m.messages.length)
  else .ok ()

/-- equal in every part, numbers compared as numbers -/
def same (a b : NetworkMessage) : Bool :=
  a.messageId = b.messageId && a.publisherId = b.publisherId && a.dataSetClassId = b.dataSetClassId &&
    a.replyTo = b.replyTo && a.messages.length = b.messages.length &&
    (a.messages.zip b.messages).all (fun (x, y) => x.same y) && a.mask = b.mask

end NetworkMessage

end OpcPubSub
