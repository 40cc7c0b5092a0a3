/-
Transports: what takes finished frames away. A transport answers for each frame whether it accepted it, and may keep
a state of its own. It never sees part of a document.
-/
import OpcPubSub.Error

namespace OpcPubSub

/-- an encoded network message of a group -/
structure Frame where
  group : String
  text : String
deriving DecidableEq, Repr

structure Transport (σ : Type) where
  name : String
  send : Frame → σ → Except Fault Unit × σ

namespace Transport

/-- accepts every frame; what is done with it is the caller's affair -/
def log : Transport Unit where
  name := "log"
  send _ s := (.ok (), s)

/-- frames handed over to a receiver in the same process -/
structure Queue where
  /-- the receiver is gone -/
  closed : Bool := false
  frames : List Frame := []
deriving DecidableEq, Repr

/-- keeps frames for the receiver, and refuses them once it is gone -/
def channel : Transport Queue where
  name := "channel"
  send frame q :=
    if q.closed then (.error (.transport "channel receiver dropped"), q)
    else (.ok (), { q with frames := q.frames ++ [frame] })

end Transport

end OpcPubSub
