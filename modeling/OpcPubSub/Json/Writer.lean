/-
A JSON writer: a machine that is told one value at a time and keeps the text written so far and the containers that
are open, with the number of members each has.

Its rules: inside an object every value has a name; inside an array and at the root none has; the document has one
root value; a container is closed as what it was opened. A call that breaks a rule changes nothing but `poisoned`, and
a poisoned writer answers every later call with an error and never hands out its text.

Calls are actions of the monad `Write`, which keeps the writer when a call fails. `scope` opens a container, runs a
body and closes it; a body that fails poisons the writer.
-/
import OpcPubSub.Error
import OpcPubSub.Json.Render
import OpcPubSub.Text.Quoted

namespace OpcPubSub

inductive Container where
  | object
  | array
deriving DecidableEq, Repr

namespace Container

def name : Container → String
  | object => "Object"
  | array => "Array"

/-- the bracket that starts a container -/
def opening : Container → String
  | object => "\x7b"
  | array => "["

/-- the bracket that ends a container -/
def closing : Container → String
  | object => "\x7d"
  | array => "]"

end Container

/-- how a writer can be driven against its rules -/
inductive Misuse where
  /-- a call after an earlier error -/
  | poisoned
  /-- the text of a poisoned writer was asked for -/
  | abandoned
  | leftOpen (count : Nat)
  | emptyDocument
  | closedAs (asked opened : Container)
  | nothingOpen (asked : Container)
  | secondRoot
  | nameAtRoot (name : String)
  | nameMissing
  | nameInArray (name : String)
deriving DecidableEq, Repr

namespace Misuse

def message : Misuse → String
  | poisoned => "writer poisoned by an earlier error"
  | abandoned => "document abandoned after an earlier error"
  | leftOpen n => s!"{n} container(s) left open"
  | emptyDocument => "empty document"
  | closedAs asked opened => "pop " ++ asked.name ++ " while " ++ opened.name ++ " is open"
  | nothingOpen asked => "pop " ++ asked.name ++ " with nothing open"
  | secondRoot => "document already has a root value"
  | nameAtRoot n => "field name " ++ Text.quoted n ++ " at document root"
  | nameMissing => "field name required inside an object"
  | nameInArray n => "field name " ++ Text.quoted n ++ " inside an array"

def fault (m : Misuse) : Fault := .writer m.message

end Misuse

/-- an open container and how many members it has so far -/
structure OpenContainer where
  kind : Container
  size : Nat
deriving DecidableEq, Repr

/-- how often containers were opened and closed, and how deep they were nested at most -/
structure Stats where
  opens : Nat := 0
  closes : Nat := 0
  maxDepth : Nat := 0
deriving DecidableEq, Repr

structure Writer where
  out : String := ""
  /-- the open containers, the innermost first -/
  stack : List OpenContainer := []
  rootWritten : Bool := false
  poisoned : Bool := false
  /-- the form of status codes when none is asked for -/
  reversible : Bool := true
  stats : Stats := {}
deriving DecidableEq, Repr

namespace Writer

def depth (w : Writer) : Nat := w.stack.length

/-- the writer with separator and name of one more value written, if a value may stand here under this name -/
def place (w : Writer) (name : Option String) : Except Misuse Writer :=
  if w.poisoned then .error .poisoned
  else
    match w.stack, name with
    | [], name =>
      if w.rootWritten then .error .secondRoot
      else
        match name with
        | some n => .error (.nameAtRoot n)
        | none => .ok { w with rootWritten := true }
    | ⟨.object, _⟩ :: _, none => .error .nameMissing
    | ⟨.array, _⟩ :: _, some n => .error (.nameInArray n)
    | ⟨.object, size⟩ :: rest, some n =>
      .ok { w with out := w.out ++ (if size = 0 then "" else ",") ++ (Json.quote n ++ ":"),
                   stack := ⟨.object, size + 1⟩ :: rest }
    | ⟨.array, size⟩ :: rest, none =>
      .ok { w with out := w.out ++ (if size = 0 then "" else ","), stack := ⟨.array, size + 1⟩ :: rest }

/-- one more leaf -/
def leaf (w : Writer) (name : Option String) (a : Atom) : Except Misuse Writer :=
  match w.place name with
  | .error m => .error m
  | .ok w => .ok { w with out := w.out ++ a.text }

/-- one more container, open -/
def push (w : Writer) (kind : Container) (name : Option String) : Except Misuse Writer :=
  match w.place name with
  | .error m => .error m
  | .ok w =>
    .ok { w with out := w.out ++ kind.opening,
                 stack := ⟨kind, 0⟩ :: w.stack,
                 stats := { w.stats with opens := w.stats.opens + 1,
                                         maxDepth := max w.stats.maxDepth (w.stack.length + 1) } }

/-- the innermost container closed -/
def pop (w : Writer) (kind : Container) : Except Misuse Writer :=
  if w.poisoned then .error .poisoned
  else
    match w.stack with
    | [] => .error (.nothingOpen kind)
    | inner :: rest =>
      if inner.kind = kind then
        .ok { w with out := w.out ++ kind.closing, stack := rest,
                     stats := { w.stats with closes := w.stats.closes + 1 } }
      else .error (.closedAs kind inner.kind)

/-- the finished document -/
def finish (w : Writer) : Except Fault String :=
  if w.poisoned then .error Misuse.abandoned.fault
  else if w.stack ≠ [] then .error (Misuse.leftOpen w.stack.length).fault
  else if ¬w.rootWritten then .error Misuse.emptyDocument.fault
  else .ok w.out

end Writer

/-- actions on a writer -/
abbrev Write (α : Type) := EStateM Fault Writer α

namespace Write

/-- a call that moves the writer on or, if it breaks a rule, poisons it -/
def call (f : Writer → Except Misuse Writer) : Write Unit := fun w =>
  match f w with
  | .ok w => .ok () w
  | .error m => .error m.fault { w with poisoned := true }

def leaf (name : Option String) (a : Atom) : Write Unit := call fun w => w.leaf name a

def push (kind : Container) (name : Option String) : Write Unit := call fun w => w.push kind name

def pop (kind : Container) : Write Unit := call fun w => w.pop kind

/-- a container around what `body` writes -/
def scope (kind : Container) (name : Option String) (body : Write Unit) : Write Unit := fun w =>
  match push kind name w with
  | .error e w => .error e w
  | .ok _ w =>
    match body w with
    | .error e w => .error e { w with poisoned := true }
    | .ok _ w => pop kind w

/-- an action only if there is something to act on -/
def optional {α : Type} (v : Option α) (f : α → Write Unit) : Write Unit :=
  match v with
  | some x => f x
  | none => pure ()

/-- an action for each element, in order -/
def each {α : Type} (f : α → Write Unit) : List α → Write Unit
  | [] => pure ()
  | x :: xs => do
    f x
    each f xs

/-- a string, or null for none -/
def optString (name : Option String) (s : Option String) : Write Unit :=
  leaf name (match s with
    | some s => .string s
    | none => .null)

end Write

end OpcPubSub
