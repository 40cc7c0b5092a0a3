/-
Settings as YAML documents. Every section is a record: members it does not know, members given twice and required
members left out are refused, as is any text that is not one document of this form.
-/
import OpcPubSub.Config.Validation
import OpcPubSub.Yaml.Reading

namespace OpcPubSub.Config

open Yaml (Node)
open Yaml.Node (required withDefault)

def TransportKind.words : List (String × TransportKind) := [("udp", .udp), ("log", .log)]

def SignalKind.words : List (String × SignalKind) :=
  [("counter", .counter), ("sine", .sine), ("toggle", .toggle), ("constant", .constant), ("text", .text)]

def strings : Node → Option (List String) := Node.list Node.string

def optString : Node → Option (Option String) := Node.optional Node.string

def version? (n : Node) : Option ConfigurationVersion := do
  let ms ← n.members ["major", "minor"]
  some { major := ← withDefault ms "major" 0 Node.uint32
         minor := ← withDefault ms "minor" 0 Node.uint32 }

def FieldSettings.ofNode? (n : Node) : Option FieldSettings := do
  let ms ← n.members ["name", "signal", "period_ms", "amplitude", "value", "text"]
  some { name := ← required ms "name" Node.string
         signal := ← required ms "signal" (Node.word SignalKind.words)
         periodMs := ← withDefault ms "period_ms" 60000 Node.uint64
         amplitude := ← withDefault ms "amplitude" 1.0 Node.float
         value := ← withDefault ms "value" none (Node.optional Node.float)
         text := ← withDefault ms "text" none optString }

def WriterSettings.ofNode? (n : Node) : Option WriterSettings := do
  let ms ← n.members ["id", "name", "dataset_content_mask", "field_content_mask", "metadata_version", "fields"]
  some { id := ← required ms "id" Node.uint16
         name := ← withDefault ms "name" none optString
         dataSetFlags := ← withDefault ms "dataset_content_mask" [] strings
         fieldFlags := ← withDefault ms "field_content_mask" [] strings
         version := ← withDefault ms "metadata_version" {} version?
         fields := ← withDefault ms "fields" [] (Node.list FieldSettings.ofNode?) }

def GroupSettings.ofNode? (n : Node) : Option GroupSettings := do
  let ms ← n.members
    ["name", "publishing_interval_ms", "network_content_mask", "dataset_class_id", "reply_to", "writers"]
  some { name := ← required ms "name" Node.string
         intervalMs := ← withDefault ms "publishing_interval_ms" 1000 Node.uint64
         networkFlags := ← withDefault ms "network_content_mask" [] strings
         classId := ← withDefault ms "dataset_class_id" none optString
         replyTo := ← withDefault ms "reply_to" none optString
         writers := ← withDefault ms "writers" [] (Node.list WriterSettings.ofNode?) }

def PublisherSettings.ofNode? (n : Node) : Option PublisherSettings := do
  let ms ← n.members ["publisher_id", "ops_listen"]
  some { publisherId := ← withDefault ms "publisher_id" none optString
         opsListen := ← withDefault ms "ops_listen" none optString }

def TransportSettings.ofNode? (n : Node) : Option TransportSettings := do
  let ms ← n.members ["kind", "target"]
  some { kind := ← required ms "kind" (Node.word TransportKind.words)
         target := ← withDefault ms "target" none optString }

namespace Settings

def ofNode? (n : Node) : Option Settings := do
  let ms ← n.members ["version", "publisher", "transport", "writer_groups"]
  some { version := ← required ms "version" Node.uint32
         publisher := ← withDefault ms "publisher" {} PublisherSettings.ofNode?
         transport := ← required ms "transport" TransportSettings.ofNode?
         groups := ← withDefault ms "writer_groups" [] (Node.list GroupSettings.ofNode?) }

/-- the settings a text holds, valid or not -/
def ofText (text : String) : Except Fault Settings :=
  match (Node.ofText? text).bind ofNode? with
  | some s => .ok s
  | none => .error (.badConfig "invalid yaml")

/-- the settings a text holds, if they are valid -/
def load (text : String) : Except Fault Settings := do
  let s ← ofText text
  s.validate
  .ok s

end Settings

end OpcPubSub.Config
