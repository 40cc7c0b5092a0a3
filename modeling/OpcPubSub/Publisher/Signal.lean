/-
Simulated signals. A signal is a function of the number of the publishing cycle; all of a group's signals move by the
group's interval from one cycle to the next. A data source answers with the payload of one writer at one cycle, and the
simulated one samples the signals that the settings declare.
-/
import OpcPubSub.Config.Settings
import OpcPubSub.Message.Payload

namespace OpcPubSub

/-- what answers for a writer: the payload of writer `id` of group `group` at a cycle -/
abbrev DataSource := (group : String) → (id : UInt16) → (cycle : UInt64) → Except Fault Payload

structure Signal where
  name : String
  kind : Config.SignalKind
  periodMs : UInt64
  amplitude : Float
  value : Float
  text : String
  /-- the time between two cycles -/
  intervalMs : UInt64
deriving DecidableEq

namespace Signal

/-- the signal of a field; a period of zero counts as one millisecond -/
def ofField (intervalMs : UInt64) (f : Config.FieldSettings) : Signal where
  name := f.name
  kind := f.signal
  periodMs := max f.periodMs 1
  amplitude := f.amplitude
  value := f.value.getD 0.0
  text := f.text.getD ""
  intervalMs

/-- a full turn, the double nearest to `2 π` -/
def turn : Float := Float.ofBits 0x401921FB54442D18

/-- the time since the start of the current period, computed in 64-bit words -/
def elapsedMs (s : Signal) (cycle : UInt64) : UInt64 := cycle * s.intervalMs % s.periodMs

/-- the value at a cycle: a 32-bit count of cycles, a point of the sine, whether the cycle is odd, or always the
same -/
def sample (s : Signal) (cycle : UInt64) : Scalar :=
  match s.kind with
  | .counter => .int .uint32 (.ofUInt32 cycle.toUInt32)
  | .sine =>
    let phase := (s.elapsedMs cycle).toFloat / s.periodMs.toFloat
    .double (s.amplitude * (phase * turn).sin)
  | .toggle => .boolean (cycle % 2 == 1)
  | .constant => .double s.value
  | .text => .string s.text

end Signal

/-- the signals of every writer of the settings, in order -/
def Config.Settings.signals (s : Config.Settings) : List ((String × UInt16) × List Signal) :=
  s.groups.flatMap fun g => g.writers.map fun w => ((g.name, w.id), w.fields.map (Signal.ofField g.intervalMs))

namespace Simulation

/-- a sampled value: good, and captured and served now -/
def value (now : DateTime) (v : Scalar) : DataValue where
  value := .scalar v
  status := some .good
  sourceTimestamp := some now
  serverTimestamp := some now

/-- the source that samples the declared signals at the time `now`; of two writers with one name the last counts -/
def source (s : Config.Settings) (now : DateTime) : DataSource := fun group id cycle =>
  match s.signals.reverse.lookup (group, id) with
  | some signals => Payload.ofPairs (signals.map fun x => (x.name, value now (x.sample cycle)))
  | none => .error (.internal s!"no signals for group {group} writer {id.toNat}")

end Simulation

end OpcPubSub
