/-
JSON documents as trees. An object is its members in document order, so that order and repeated names can be spoken
about. A leaf is an `Atom`; numbers keep the kind they have in the text: integers, and floating-point numbers of the
two widths that are written.
-/

namespace OpcPubSub

/-- the leaves of a document -/
inductive Atom where
  | null
  | bool (b : Bool)
  | int (n : Int)
  | double (x : Float)
  | single (x : Float32)
  | string (s : String)
deriving DecidableEq

inductive Json where
  | atom (a : Atom)
  | array (items : List Json)
  | object (members : List (String × Json))

namespace Json

@[match_pattern] abbrev null : Json := .atom .null
@[match_pattern] abbrev bool (b : Bool) : Json := .atom (.bool b)
@[match_pattern] abbrev int (n : Int) : Json := .atom (.int n)
@[match_pattern] abbrev double (x : Float) : Json := .atom (.double x)
@[match_pattern] abbrev string (s : String) : Json := .atom (.string s)

instance : Inhabited Json := ⟨null⟩

/-- the members of an object -/
abbrev Members := List (String × Json)

/-- the first member with this name -/
def member? (ms : Members) (name : String) : Option Json := (ms.find? fun m => m.1 == name).map Prod.snd

/-- the first member with this name, unless it is null -/
def value? (ms : Members) (name : String) : Option Json :=
  match member? ms name with
  | some .null => none
  | found => found

def isNull : Json → Bool
  | .null => true
  | _ => false

end Json

end OpcPubSub
