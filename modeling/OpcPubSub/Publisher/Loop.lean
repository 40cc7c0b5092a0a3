/-
The loop that publishes a group until it is told to stop, as a machine that events drive. The clock ticks, which
begins a cycle; the samples are there, at once or later; the transport answers, which ends a cycle; shutdown is asked
for; the loop sees that and stops, between two cycles or in the middle of one, which is then abandoned. Any order of
events is a run: which of two things that are both possible comes first is up to the run. Events that mean nothing in a
phase change nothing.
-/
import OpcPubSub.Publisher.Cycle

namespace OpcPubSub

/-- where the loop is -/
inductive Phase where
  | idle
  /-- a cycle was begun, and its samples are not there yet -/
  | sampling
  /-- this frame waits for the transport's answer -/
  | sending (frame : Frame)
  | stopped
deriving DecidableEq, Repr

inductive Event where
  /-- a cycle begins, and its samples are there at once -/
  | tick (source : DataSource) (m : Moment)
  /-- a cycle begins that has to wait for its samples -/
  | wait
  /-- the samples that were waited for -/
  | sampled (source : DataSource) (m : Moment)
  | answer (result : Except Fault Unit)
  | shutdown
  | stop

structure Loop where
  group : WriterGroup
  metrics : Metrics.Registry
  /-- the name of the transport -/
  transport : String
  phase : Phase := .idle
  /-- shutdown was asked for -/
  closing : Bool := false
  /-- the frames the transport accepted -/
  accepted : List Frame := []

namespace Loop

/-- a loop that starts -/
def start (group : WriterGroup) (metrics : Metrics.Registry) (transport : String) : Loop where
  group
  metrics := metrics.started group.name
  transport

/-- a cycle that has its samples, up to its frame -/
def prepare (l : Loop) (source : DataSource) (m : Moment) : Loop :=
  match l.group.prepare source m l.metrics with
  | (.ok frame, group, metrics) => { l with group, metrics, phase := .sending frame }
  | (.error _, group, metrics) => { l with group, metrics, phase := .idle }

/-- the group of a loop that stops: it has counted a cycle that still waits for its samples -/
def abandoned (l : Loop) : WriterGroup :=
  match l.phase with
  | .sampling => { l.group with cycles := l.group.cycles + 1 }
  | _ => l.group

def step (l : Loop) (e : Event) : Loop :=
  match e, l.phase with
  | .tick source m, .idle => l.prepare source m
  | .wait, .idle => { l with phase := .sampling }
  | .sampled source m, .sampling => l.prepare source m
  | .answer result, .sending frame =>
    { l with metrics := (frame.settle l.transport result l.metrics).2
             phase := .idle
             accepted := if result.isOk then l.accepted ++ [frame] else l.accepted }
  | .shutdown, _ => { l with metrics := l.metrics.drain, closing := true }
  | .stop, .stopped => l
  | .stop, _ =>
    if l.closing then
      { l with group := l.abandoned, metrics := l.metrics.stopped l.group.name, phase := .stopped }
    else l
  | _, _ => l

def run (l : Loop) (events : List Event) : Loop := events.foldl step l

end Loop

end OpcPubSub
