/-
When settings hold together. Everything that starting a publisher works out from texts is tried here, so that a
publisher of valid settings always starts; and names and ids that a group or the whole configuration may use once are
checked for repetition, a repeated one after the thing itself.
-/
import OpcPubSub.Config.Settings

namespace OpcPubSub.Config

/-- each element in order passes `check`, and after that has a key that no earlier one has -/
def each {α κ : Type} [DecidableEq κ] (key : α → κ) (check : α → Except Fault Unit) (repeated : α → Problem)
    (seen : List κ) : List α → Except Fault Unit
  | [] => .ok ()
  | x :: xs => do
    check x
    if key x ∈ seen then fail (repeated x) else each key check repeated (key x :: seen) xs

namespace FieldSettings

/-- what is wrong with a field -/
def problem? (f : FieldSettings) : Option FieldProblem :=
  if f.name.isEmpty then some .noName
  else
    match f.signal with
    | .sine => if f.periodMs = 0 then some .noPeriod else none
    | .constant => if f.value.isNone then some .noValue else none
    | .text => if f.text.isNone then some .noText else none
    | .counter | .toggle => none

end FieldSettings

namespace WriterSettings

def validate (group : String) (w : WriterSettings) : Except Fault Unit := do
  if w.id = 0 then fail (.noWriterId group)
  let _ ← w.dataSetMask
  let _ ← w.fieldMask
  each FieldSettings.name
    (fun f =>
      match f.problem? with
      | some p => fail (.field group w.id f.name p)
      | none => .ok ())
    (fun f => .repeatedField group w.id f.name) [] w.fields

end WriterSettings

namespace GroupSettings

/-- the bounds of publishing intervals, in milliseconds -/
def minInterval : UInt64 := 10
def maxInterval : UInt64 := 3600000

def validate (g : GroupSettings) : Except Fault Unit := do
  if (Text.trim g.name).isEmpty then fail .noGroupName
  if g.intervalMs < minInterval ∨ maxInterval < g.intervalMs then fail (.interval g.name)
  let mask ← g.networkMask
  let _ ← g.dataSetClassId
  if g.writers.isEmpty then fail (.noWriters g.name)
  if mask.contains NetworkMask.singleDataSetMessage ∧ g.writers.length ≠ 1 then
    fail (.writerCount g.name g.writers.length)
  each WriterSettings.id (WriterSettings.validate g.name) (fun w => .repeatedWriter g.name w.id) [] g.writers

end GroupSettings

namespace PublisherSettings

def validate (p : PublisherSettings) : Except Fault Unit := do
  match p.opsListen with
  | some text => if (Net.SocketAddress.ofText? text).isNone then fail (.opsListen text)
  | none => pure ()
  if p.publisherId = some "" then fail .noPublisherId

end PublisherSettings

namespace TransportSettings

def validate (t : TransportSettings) : Except Fault Unit :=
  match t.kind with
  | .udp => t.udpTarget.map fun _ => ()
  | .log => .ok ()

end TransportSettings

namespace Settings

/-- the only version of the format -/
def supportedVersion : UInt32 := 1

def validate (s : Settings) : Except Fault Unit := do
  if s.version ≠ supportedVersion then .error .unsupportedVersion
  if s.groups.isEmpty then fail .noGroups
  s.publisher.validate
  s.transport.validate
  each GroupSettings.name GroupSettings.validate (fun g => .repeatedGroup g.name) [] s.groups

end Settings

end OpcPubSub.Config
