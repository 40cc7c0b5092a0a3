/-
The settings of a publisher, as a configuration file gives them. Masks are lists of flag names, addresses and the
class id are texts; what they mean is worked out by the functions here, and `Config.Validation` says when all of it
holds together.
-/
import OpcPubSub.Config.Problem
import OpcPubSub.Guid
import OpcPubSub.Mask
import OpcPubSub.Message.DataSet

namespace OpcPubSub.Config

/-- where frames go -/
inductive TransportKind where
  | udp
  | log
deriving DecidableEq, Repr

/-- how the value of a simulated field moves -/
inductive SignalKind where
  | counter
  | sine
  | toggle
  | constant
  | text
deriving DecidableEq, Repr

/-- a field of a dataset and the signal that feeds it -/
structure FieldSettings where
  name : String
  signal : SignalKind
  /-- the period of a sine -/
  periodMs : UInt64 := 60000
  /-- the amplitude of a sine -/
  amplitude : Float := 1.0
  /-- the value of a constant -/
  value : Option Float := none
  /-- the value of a text -/
  text : Option String := none
deriving DecidableEq

structure WriterSettings where
  id : UInt16
  name : Option String := none
  dataSetFlags : List String := []
  fieldFlags : List String := []
  version : ConfigurationVersion := {}
  fields : List FieldSettings := []
deriving DecidableEq

/-- a group of writers whose dataset messages share a network message -/
structure GroupSettings where
  name : String
  intervalMs : UInt64 := 1000
  networkFlags : List String := []
  classId : Option String := none
  replyTo : Option String := none
  writers : List WriterSettings := []
deriving DecidableEq

structure PublisherSettings where
  publisherId : Option String := none
  /-- where the endpoints for operators listen; nowhere if there is none -/
  opsListen : Option String := none
deriving DecidableEq

structure TransportSettings where
  kind : TransportKind
  /-- where datagrams go -/
  target : Option String := none
deriving DecidableEq

structure Settings where
  version : UInt32
  publisher : PublisherSettings := {}
  transport : TransportSettings
  groups : List GroupSettings := []
deriving DecidableEq

namespace WriterSettings

def dataSetMask (w : WriterSettings) : Except Fault DataSetMask := Mask.ofNames .dataSet w.dataSetFlags

def fieldMask (w : WriterSettings) : Except Fault FieldMask := Mask.ofNames .field w.fieldFlags

end WriterSettings

namespace GroupSettings

def networkMask (g : GroupSettings) : Except Fault NetworkMask := Mask.ofNames .network g.networkFlags

def dataSetClassId (g : GroupSettings) : Except Fault (Option Guid) :=
  match g.classId with
  | none => .ok none
  | some text =>
    match Guid.ofText? text with
    | some id => .ok (some id)
    | none => fail (.classId g.name)

end GroupSettings

namespace PublisherSettings

/-- the address of the endpoints, if there is a good one -/
def opsAddress? (p : PublisherSettings) : Option Net.SocketAddress := p.opsListen.bind Net.SocketAddress.ofText?

end PublisherSettings

namespace TransportSettings

/-- the address that datagrams go to -/
def udpTarget (t : TransportSettings) : Except Fault Net.SocketAddress :=
  match t.target with
  | none => fail .noTarget
  | some text =>
    match Net.SocketAddress.ofText? text with
    | some address => .ok address
    | none => fail (.target text)

end TransportSettings

end OpcPubSub.Config
