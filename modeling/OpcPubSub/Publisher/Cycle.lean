/-
Publishing cycles and what they count. A cycle samples, encodes and sends. Whatever ends it is counted once, under the
group: a failed sample or encoding with its code, a failed send with the transport, a success as a message and its
bytes. The time of encoding is observed for every message that was encoded.

A cycle has two halves, `prepare` up to the frame and `settle` from the transport's answer, because a frame may wait
for its transport.
-/
import OpcPubSub.Encoding.Messages
import OpcPubSub.Metrics.Registry
import OpcPubSub.Publisher.Group
import OpcPubSub.Publisher.Transport

namespace OpcPubSub

open Metrics (Registry)

namespace WriterGroup

/-- a cycle up to its frame: what it made of it, the group after it, and the metrics -/
def prepare (g : WriterGroup) (source : DataSource) (m : Moment) (metrics : Registry) :
    Except Fault Frame × WriterGroup × Registry :=
  match g.build source m with
  | (.error e, after) => (.error e, after, metrics.sampleFailed g.name e.code)
  | (.ok message, after) =>
    match message.encode with
    | .error e => (.error e, after, metrics.encodeFailed g.name e.code)
    | .ok text => (.ok ⟨g.name, text⟩, after, metrics.encoded g.name ⟨m.encodeNanos⟩)

end WriterGroup

/-- the length of a frame in bytes -/
def Frame.size (f : Frame) : UInt64 := UInt64.ofNat f.text.utf8ByteSize

/-- the end of a cycle whose frame a transport has answered: the length sent, or the failure -/
def Frame.settle (f : Frame) (transport : String) (answer : Except Fault Unit) (metrics : Registry) :
    Except Fault UInt64 × Registry :=
  match answer with
  | .error e => (.error e, metrics.sendFailed f.group transport)
  | .ok _ => (.ok f.size, metrics.sent f.group f.size)

/-- a group, the metrics and the transport's state, as cycles change them -/
structure Station (σ : Type) where
  group : WriterGroup
  metrics : Registry := {}
  link : σ

namespace Station

variable {σ : Type}

/-- one whole cycle -/
def publish (t : Transport σ) (source : DataSource) (m : Moment) (s : Station σ) : Except Fault UInt64 × Station σ :=
  match s.group.prepare source m s.metrics with
  | (.error e, group, metrics) => (.error e, { s with group, metrics })
  | (.ok frame, group, metrics) =>
    let (answer, link) := t.send frame s.link
    let (result, metrics) := frame.settle t.name answer metrics
    (result, { group, metrics, link })

end Station

end OpcPubSub
