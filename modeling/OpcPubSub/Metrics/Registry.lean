/-
The metrics of a publisher. What happens to a group is counted under the group's name: a failure also under its code
or the transport that failed, a message that was sent with its bytes, and the time that encoding took.

The text that monitoring reads has the families in a fixed order, each under a line with its type, then the draining
flag and the lines of whoever asks.
-/
import OpcPubSub.Error
import OpcPubSub.Metrics.Family

namespace OpcPubSub.Metrics

structure Registry where
  messagesPublished : Counter := {}
  bytesSent : Counter := {}
  encodeErrors : Counter := {}
  sendErrors : Counter := {}
  sampleErrors : Counter := {}
  groupsRunning : Gauge := {}
  encodeDuration : Histogram := {}
  draining : Bool := false
deriving DecidableEq

/-- the labels of a group's series -/
def groupLabels (group : String) : List Label := [("group", group)]

def codeLabels (group : String) (code : Code) : List Label := [("group", group), ("code", code.label)]

def transportLabels (group transport : String) : List Label := [("group", group), ("transport", transport)]

namespace Registry

def sampleFailed (r : Registry) (group : String) (code : Code) : Registry :=
  { r with sampleErrors := r.sampleErrors.inc (codeLabels group code) }

def encodeFailed (r : Registry) (group : String) (code : Code) : Registry :=
  { r with encodeErrors := r.encodeErrors.inc (codeLabels group code) }

def encoded (r : Registry) (group : String) (time : Duration) : Registry :=
  { r with encodeDuration := r.encodeDuration.observe (groupLabels group) time }

def sendFailed (r : Registry) (group transport : String) : Registry :=
  { r with sendErrors := r.sendErrors.inc (transportLabels group transport) }

def sent (r : Registry) (group : String) (bytes : UInt64) : Registry :=
  { r with
    messagesPublished := r.messagesPublished.inc (groupLabels group)
    bytesSent := r.bytesSent.add (groupLabels group) bytes }

def started (r : Registry) (group : String) : Registry :=
  { r with groupsRunning := r.groupsRunning.inc (groupLabels group) }

def stopped (r : Registry) (group : String) : Registry :=
  { r with groupsRunning := r.groupsRunning.dec (groupLabels group) }

def drain (r : Registry) : Registry := { r with draining := true }

/-- the report line by line, with lines of the caller's own at the end -/
def lines (r : Registry) (extra : List (String × UInt64)) : List String :=
  r.messagesPublished.lines "uapub_messages_published_total" ++
    r.bytesSent.lines "uapub_bytes_sent_total" ++
    r.encodeErrors.lines "uapub_encode_errors_total" ++
    r.sendErrors.lines "uapub_send_errors_total" ++
    r.sampleErrors.lines "uapub_sample_errors_total" ++
    r.groupsRunning.lines "uapub_writer_groups_running" ++
    r.encodeDuration.lines "uapub_encode_duration_micros" ++
    ["# TYPE uapub_draining gauge", "uapub_draining " ++ if r.draining then "1" else "0"] ++
    extra.map fun (name, n) => name ++ " " ++ Text.decimal n.toNat

/-- the report; every line ends with a line feed -/
def text (r : Registry) (extra : List (String × UInt64)) : String := String.join ((r.lines extra).map (· ++ "\n"))

end Registry

end OpcPubSub.Metrics
