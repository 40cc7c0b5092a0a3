/-
The publisher as a program. It reads the settings from a file and publishes every group at its interval, each frame as
a line of standard output. Frames are only ever printed: settings that ask for another transport are refused.
-/
import OpcPubSub.Config.Document
import OpcPubSub.Publisher.Cycle
import OpcPubSub.Publisher.Basic
import Std.Time.DateTime.Timestamp

namespace OpcPubSub.Main

/-- the file that is read when none is named -/
def defaultPath : String := "uapub.yaml"

/-- a group and the time of its next cycle, in milliseconds of a clock that never goes back -/
structure Turn where
  group : WriterGroup
  due : Nat

/-- the time of the next cycle after `now`; those missed in between are skipped -/
def Turn.next (t : Turn) (now : Nat) : Nat :=
  let interval := max t.group.intervalMs.toNat 1
  t.due + interval * ((now - t.due) / interval + 1)

/-- the turn that is due first, and the others -/
def earliest : Turn → List Turn → Turn × List Turn
  | t, [] => (t, [])
  | t, u :: rest =>
    let (first, others) := earliest u rest
    if first.due < t.due then (first, t :: others) else (t, first :: others)

/-- a random identifier of version 4 -/
def randomId : IO String := do
  let bytes ← IO.getRandomBytes 16
  let n := bytes.toList.foldl (fun n b => 256 * n + b.toNat) 0
  let n := n &&& 0xFFFFFFFFFFFF0FFF3FFFFFFFFFFFFFFF ||| 0x00000000000040008000000000000000
  return ((Guid.ofNat? n).map Guid.text).getD ""

def moment : IO Moment := do
  let nanos := (← Std.Time.Timestamp.now).toNanosecondsSinceUnixEpoch.toInt
  let now := DateTime.ofInstant ⟨nanos / 1000000000, (nanos % 1000000000).toNat⟩
  return { now, messageId := ← randomId }

def complain (e : Fault) : IO Unit := do (← IO.getStderr).putStrLn (e.code.label ++ " " ++ e.message)

/-- publish for ever -/
partial def serve (settings : Config.Settings) (metrics : Metrics.Registry) (turn : Turn) (others : List Turn) :
    IO Unit := do
  let (turn, others) := earliest turn others
  let now ← IO.monoMsNow
  if now < turn.due then IO.sleep (UInt32.ofNat (turn.due - now))
  let m ← moment
  let (result, group, metrics) := turn.group.prepare (Simulation.source settings m.now) m metrics
  let metrics ←
    match result with
    | .error e => do
      complain e
      pure metrics
    | .ok frame => do
      (← IO.getStdout).putStrLn frame.text
      (← IO.getStdout).flush
      pure (frame.settle Transport.log.name (.ok ()) metrics).2
  serve settings metrics { group, due := turn.next (← IO.monoMsNow) } others

def start (text : String) : Except Fault Publisher := do
  let settings ← Config.Settings.load text
  match settings.transport.kind with
  | .log => Publisher.ofSettings settings
  | .udp => .error (.transport "udp is not available")

end OpcPubSub.Main

open OpcPubSub OpcPubSub.Main in
def main (args : List String) : IO UInt32 := do
  let path := args.headD defaultPath
  let text ← (IO.FS.readFile path).toBaseIO
  let publisher : Except Fault Publisher :=
    match text with
    | .error e => .error (.internal s!"read config {path} failed: {e}")
    | .ok text => start text
  match publisher with
  | .error e =>
    complain e
    return 1
  | .ok p =>
    match p.groups.map fun group => (⟨group, 0⟩ : Turn) with
    | [] => return 0
    | turn :: others =>
      let now ← IO.monoMsNow
      serve p.settings p.metrics { turn with due := now } (others.map fun t => { t with due := now })
      return 0
