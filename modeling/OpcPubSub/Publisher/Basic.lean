/-
A publisher: its settings, the writer groups compiled from them in the same order, and its metrics. Settings are
validated before anything is compiled, so compiling never fails for another reason.
-/
import OpcPubSub.Config.Validation
import OpcPubSub.Metrics.Registry
import OpcPubSub.Publisher.Group

namespace OpcPubSub

structure Publisher where
  settings : Config.Settings
  groups : List WriterGroup
  metrics : Metrics.Registry := {}

namespace Publisher

/-- the groups of settings, valid or not -/
def compile (s : Config.Settings) : Except Fault (List WriterGroup) :=
  s.groups.mapM (WriterGroup.ofSettings s.publisher.publisherId)

/-- the publisher of valid settings -/
def ofSettings (s : Config.Settings) : Except Fault Publisher := do
  s.validate
  let groups ← compile s
  .ok { settings := s, groups }

/-- the publisher's own lines at the end of its metrics -/
def extraLines (p : Publisher) : List (String × UInt64) := [("uapub_writer_groups", UInt64.ofNat p.groups.length)]

/-- the metrics as monitoring reads them -/
def report (p : Publisher) : String := p.metrics.text p.extraLines

end Publisher

end OpcPubSub
