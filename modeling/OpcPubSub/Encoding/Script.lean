/-
Scripts: runs of calls on one writer, as data. A call pushes or pops a container, writes an item under a name, opens a
scope whose body is again a script, fails with an error of its caller's own, or attempts another call and swallows its
failure.

The calls of a body stop at the first one that fails, and the scope fails with it. At the top a failing call does not
stop the script. Running a script also reports on every call: what it answered and how it left the writer, the calls
of a body before the scope around them.
-/
import OpcPubSub.Encoding.Messages

namespace OpcPubSub

/-- what can be written under a name -/
inductive Item where
  | null
  | bool (b : Bool)
  | string (s : String)
  | optString (s : Option String)
  | uint16 (n : UInt16)
  | uint32 (n : UInt32)
  | dateTime (t : DateTime)
  | status (c : StatusCode)
  | statusAs (c : StatusCode) (reversible : Bool)
  | variant (v : Variant) (reversible : Bool)
  | dataValue (v : DataValue) (reversible : Bool)
  | version (v : ConfigurationVersion)
  | versions (vs : List ConfigurationVersion)
  | dataSet (m : DataSetMessage)

/-- write an item -/
def Item.write (name : Option String) : Item → Write Unit
  | .null => Write.leaf name .null
  | .bool b => Write.leaf name (.bool b)
  | .string s => Write.leaf name (.string s)
  | .optString s => Write.optString name s
  | .uint16 n => Write.word name n.toNat
  | .uint32 n => Write.word name n.toNat
  | .dateTime t => Write.dateTime name t
  | .status c => Write.status name c
  | .statusAs c reversible => Write.statusAs name c reversible
  | .variant v reversible => Write.variant name v reversible
  | .dataValue v reversible => Write.dataValue name v reversible
  | .version v => Write.version name v
  | .versions vs => Write.versions name vs
  | .dataSet m => Write.dataSetWithHeader name m

inductive Call where
  | push (kind : Container) (name : Option String)
  | pop (kind : Container)
  | write (name : Option String) (item : Item)
  | field (name : String) (v : DataValue) (mask : FieldMask)
  | network (m : NetworkMessage)
  | scope (kind : Container) (name : Option String) (body : List Call)
  | fail (e : Fault)
  | attempt (c : Call)

/-- what a call answered, and how it left the writer -/
structure Report where
  result : Except Fault Unit
  depth : Nat
  poisoned : Bool
  stats : Stats

namespace Script

/-- an answer without the writer -/
def resultOf : EStateM.Result Fault Writer Unit → Except Fault Unit
  | .ok _ _ => .ok ()
  | .error e _ => .error e

/-- the writer after a call, whatever it answered -/
def after : EStateM.Result Fault Writer Unit → Writer
  | .ok _ w => w
  | .error _ w => w

def report (r : EStateM.Result Fault Writer Unit) : Report :=
  let w := after r
  ⟨resultOf r, w.depth, w.poisoned, w.stats⟩

mutual

/-- one call: its answer and the writer after it, and the reports on it and on the calls inside -/
def runCall (c : Call) (w : Writer) : EStateM.Result Fault Writer Unit × List Report :=
  match c with
  | .attempt c =>
    let (r, log) := runCall c w
    (.ok () (after r), log)
  | .scope kind name body =>
    let (r, log) :=
      match Write.push kind name w with
      | .error e w => (.error e w, [])
      | .ok _ w =>
        match runBody body w with
        | (.error e w, log) => (.error e { w with poisoned := true }, log)
        | (.ok _ w, log) => (Write.pop kind w, log)
    (r, log ++ [report r])
  | .push kind name =>
    let r := Write.push kind name w
    (r, [report r])
  | .pop kind =>
    let r := Write.pop kind w
    (r, [report r])
  | .write name item =>
    let r := item.write name w
    (r, [report r])
  | .field name v mask =>
    let r := Write.field name v mask w
    (r, [report r])
  | .network m =>
    let r := Write.network m w
    (r, [report r])
  | .fail e =>
    let r : EStateM.Result Fault Writer Unit := .error e w
    (r, [report r])

/-- the calls of a body, up to the first that fails -/
def runBody (cs : List Call) (w : Writer) : EStateM.Result Fault Writer Unit × List Report :=
  match cs with
  | [] => (.ok () w, [])
  | c :: rest =>
    match runCall c w with
    | (.error e w, log) => (.error e w, log)
    | (.ok _ w, log) =>
      let (r, log') := runBody rest w
      (r, log ++ log')

end

/-- a whole script; failing calls do not stop it -/
def run (cs : List Call) (w : Writer) : Writer × List Report :=
  cs.foldl (fun (w, log) c =>
    let (r, log') := runCall c w
    (after r, log ++ log')) (w, [])

end Script

end OpcPubSub
