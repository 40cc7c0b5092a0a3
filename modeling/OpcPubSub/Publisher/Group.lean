/-
Writer groups at work. A group is compiled from its settings once; what changes afterwards is its cycle count and one
sequence number per writer.

A cycle first counts itself, then samples all writers, and only then takes sequence numbers, so that a cycle whose
sampling fails leaves no gap in any of them.
-/
import OpcPubSub.Config.Settings
import OpcPubSub.Message.Network
import OpcPubSub.Publisher.Signal

namespace OpcPubSub

/-- a dataset writer and the sequence number of its next message -/
structure DataSetWriter where
  id : UInt16
  name : Option String
  dataSetMask : DataSetMask
  fieldMask : FieldMask
  version : ConfigurationVersion
  sequence : UInt32 := 1
deriving DecidableEq

structure WriterGroup where
  name : String
  intervalMs : UInt64
  mask : NetworkMask
  publisherId : Option String
  dataSetClassId : Option Guid
  replyTo : Option String
  writers : List DataSetWriter
  /-- how many cycles were begun -/
  cycles : UInt64 := 0
deriving DecidableEq

/-- what the world adds to a cycle: the time, a fresh message id, and how long encoding takes -/
structure Moment where
  now : DateTime
  messageId : String
  encodeNanos : Nat := 0

namespace DataSetWriter

def ofSettings (w : Config.WriterSettings) : Except Fault DataSetWriter := do
  .ok { id := w.id
        name := w.name
        dataSetMask := ← w.dataSetMask
        fieldMask := ← w.fieldMask
        version := w.version }

/-- the writer after its next sequence number is taken; the last number is followed by zero -/
def advance (w : DataSetWriter) : DataSetWriter := { w with sequence := w.sequence + 1 }

/-- the dataset message of a payload -/
def message (w : DataSetWriter) (now : DateTime) (payload : Payload) : DataSetMessage where
  writerId := w.id
  writerName := w.name
  sequenceNumber := w.sequence
  version := w.version
  timestamp := now
  payload
  mask := w.dataSetMask
  fieldMask := w.fieldMask

end DataSetWriter

namespace WriterGroup

def ofSettings (publisherId : Option String) (g : Config.GroupSettings) : Except Fault WriterGroup := do
  .ok { name := g.name
        intervalMs := g.intervalMs
        mask := ← g.networkMask
        publisherId
        dataSetClassId := ← g.dataSetClassId
        replyTo := g.replyTo
        writers := ← g.writers.mapM DataSetWriter.ofSettings }

/-- the payloads of all writers in order; the first failure is the answer -/
def sampleAll (g : WriterGroup) (source : DataSource) : Except Fault (List Payload) :=
  g.writers.mapM fun w => source g.name w.id g.cycles

/-- the network message of one payload per writer -/
def message (g : WriterGroup) (m : Moment) (payloads : List Payload) : NetworkMessage where
  messageId := m.messageId
  publisherId := g.publisherId
  dataSetClassId := g.dataSetClassId
  replyTo := g.replyTo
  messages := (g.writers.zip payloads).map fun (w, p) => w.message m.now p
  mask := g.mask

/-- one cycle up to its message, and the group after it -/
def build (g : WriterGroup) (source : DataSource) (m : Moment) : Except Fault NetworkMessage × WriterGroup :=
  let counted := { g with cycles := g.cycles + 1 }
  match g.sampleAll source with
  | .error e => (.error e, counted)
  | .ok payloads => (.ok (g.message m payloads), { counted with writers := g.writers.map DataSetWriter.advance })

/-- the next sequence number of a writer, taken -/
def takeSequence (g : WriterGroup) (index : Nat) : Option UInt32 × WriterGroup :=
  (g.writers[index]?.map DataSetWriter.sequence, { g with writers := g.writers.modify index DataSetWriter.advance })

end WriterGroup

end OpcPubSub
