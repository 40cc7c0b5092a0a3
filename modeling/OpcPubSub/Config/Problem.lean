/-
What can be wrong with settings, and what the error says about it. An unknown version and an unknown flag name have
faults of their own.
-/
import OpcPubSub.Error
import OpcPubSub.Net.SocketAddress
import OpcPubSub.Text.Quoted

namespace OpcPubSub.Config

/-- what can be wrong with a field -/
inductive FieldProblem where
  | noName
  | noPeriod
  | noValue
  | noText
deriving DecidableEq, Repr

def FieldProblem.message : FieldProblem → String
  | noName => "name must not be empty"
  | noPeriod => "period_ms must be positive"
  | noValue => "constant signal needs a value"
  | noText => "text signal needs text"

inductive Problem where
  | noGroups
  | opsListen (text : String)
  | noPublisherId
  | noTarget
  | target (text : String)
  | noGroupName
  | interval (group : String)
  | classId (group : String)
  | noWriters (group : String)
  | writerCount (group : String) (count : Nat)
  | noWriterId (group : String)
  | field (group : String) (writer : UInt16) (name : String) (problem : FieldProblem)
  | repeatedField (group : String) (writer : UInt16) (name : String)
  | repeatedWriter (group : String) (writer : UInt16)
  | repeatedGroup (name : String)
deriving DecidableEq, Repr

namespace Problem

def message : Problem → String
  | noGroups => "writer_groups must not be empty"
  | opsListen text => "publisher.ops_listen " ++ Text.quoted text ++ ": " ++ Net.SocketAddress.refusal
  | noPublisherId => "publisher.publisher_id must not be empty"
  | noTarget => "transport.target is required for udp"
  | target text => "transport.target " ++ Text.quoted text ++ ": " ++ Net.SocketAddress.refusal
  | noGroupName => "writer group name must not be empty"
  | interval group => s!"writer group {group}: publishing_interval_ms must be between 10 and 3600000"
  | classId group => s!"writer group {group}: dataset_class_id"
  | noWriters group => s!"writer group {group}: writers must not be empty"
  | writerCount group count =>
    s!"writer group {group}: SingleDataSetMessage requires exactly one writer, got {count}"
  | noWriterId group => s!"writer group {group}: writer id must be non-zero"
  | field group writer name problem =>
    s!"writer group {group}, writer {writer.toNat}, field {name}: " ++ problem.message
  | repeatedField group writer name => s!"writer group {group}, writer {writer.toNat}: duplicate field {name}"
  | repeatedWriter group writer => s!"writer group {group}: duplicate writer id {writer.toNat}"
  | repeatedGroup name => s!"duplicate writer group name: {name}"

def fault (p : Problem) : Fault := .badConfig p.message

end Problem

def fail {α : Type} (p : Problem) : Except Fault α := .error p.fault

end OpcPubSub.Config
