/-
YAML documents as trees. A scalar knows whether it was plain, because a quoted one is never taken for a number or for
the absence of a value. A missing value is the empty plain scalar. The keys of a mapping are any nodes, in document
order, and may be repeated.

A text is one document: tokens after it other than document ends are refused.
-/
import OpcPubSub.Yaml.Token

namespace OpcPubSub.Yaml

inductive Node where
  | scalar (text : String) (plain : Bool)
  | sequence (items : List Node)
  | mapping (entries : List (Node × Node))

namespace Node

/-- what stands for a missing key, item or value -/
def missing : Node := scalar "" true

instance : Inhabited Node := ⟨missing⟩

/-- what a reader found, and the tokens after it -/
abbrev Read (α : Type) := Option (α × List Token)

/-- the first token is one of these -/
def nextIn (stops : List Token) (ts : List Token) : Bool := ts.head?.any (· ∈ stops)

mutual

/-- a node. `block` allows block collections, `loose` a block sequence that is no further right than its key and so
has no start and end of its own. `fuel` is spent on every call; a token costs at most three units. -/
def read (fuel : Nat) (block loose : Bool) (ts : List Token) : Read Node :=
  match fuel with
  | 0 => none
  | fuel + 1 =>
    match ts with
    | .scalar text plain :: rest => some (scalar text plain, rest)
    | .flowSequenceStart :: rest => (readFlowItems fuel true rest).map fun (items, rest) => (sequence items, rest)
    | .flowMappingStart :: rest => (readFlowEntries fuel true rest).map fun (entries, rest) => (mapping entries, rest)
    | .blockSequenceStart :: rest =>
      if block then (readBlockItems fuel rest).map fun (items, rest) => (sequence items, rest) else none
    | .blockMappingStart :: rest =>
      if block then (readBlockEntries fuel rest).map fun (entries, rest) => (mapping entries, rest) else none
    | .blockEntry :: rest =>
      if loose then (readLooseItems fuel (.blockEntry :: rest)).map fun (items, rest) => (sequence items, rest)
      else none
    | _ => none

/-- a node, or a missing one in front of one of these tokens -/
def readOr (fuel : Nat) (stops : List Token) (block loose : Bool) (ts : List Token) : Read Node :=
  match fuel with
  | 0 => none
  | fuel + 1 => if nextIn stops ts then some (missing, ts) else read fuel block loose ts

/-- the items of a block sequence and its end -/
def readBlockItems (fuel : Nat) (ts : List Token) : Read (List Node) :=
  match fuel with
  | 0 => none
  | fuel + 1 =>
    match ts with
    | .blockEntry :: rest =>
      match readOr fuel [.blockEntry, .blockEnd] true false rest with
      | none => none
      | some (item, rest) => (readBlockItems fuel rest).map fun (items, rest) => (item :: items, rest)
    | .blockEnd :: rest => some ([], rest)
    | _ => none

/-- the items of a block sequence that has no end of its own -/
def readLooseItems (fuel : Nat) (ts : List Token) : Read (List Node) :=
  match fuel with
  | 0 => none
  | fuel + 1 =>
    match ts with
    | .blockEntry :: rest =>
      match readOr fuel [.blockEntry, .key, .value, .blockEnd] true false rest with
      | none => none
      | some (item, rest) => (readLooseItems fuel rest).map fun (items, rest) => (item :: items, rest)
    | rest => some ([], rest)

/-- the entries of a block mapping and its end -/
def readBlockEntries (fuel : Nat) (ts : List Token) : Read (List (Node × Node)) :=
  match fuel with
  | 0 => none
  | fuel + 1 =>
    let stops := [Token.key, .value, .blockEnd]
    match ts with
    | .key :: rest =>
      match readOr fuel stops true true rest with
      | none => none
      | some (key, .value :: rest) =>
        match readOr fuel stops true true rest with
        | none => none
        | some (value, rest) => (readBlockEntries fuel rest).map fun (entries, rest) => ((key, value) :: entries, rest)
      | some (key, rest) => (readBlockEntries fuel rest).map fun (entries, rest) => ((key, missing) :: entries, rest)
    | .blockEnd :: rest => some ([], rest)
    | _ => none

/-- the items of a flow sequence and its bracket; a comma before each, the first excepted if `first`. An item may be
a mapping of one entry without braces. -/
def readFlowItems (fuel : Nat) (first : Bool) (ts : List Token) : Read (List Node) :=
  match fuel with
  | 0 => none
  | fuel + 1 =>
    let start : Option (List Token) :=
      match first, ts with
      | true, ts => some ts
      | false, .flowEntry :: rest => some rest
      | false, .flowSequenceEnd :: rest => some (.flowSequenceEnd :: rest)
      | false, _ => none
    match start with
    | none => none
    | some (.flowSequenceEnd :: rest) => some ([], rest)
    | some (.key :: rest) =>
      match readPair fuel rest with
      | none => none
      | some (entry, rest) =>
        (readFlowItems fuel false rest).map fun (items, rest) => (mapping [entry] :: items, rest)
    | some ts =>
      match read fuel false false ts with
      | none => none
      | some (item, rest) => (readFlowItems fuel false rest).map fun (items, rest) => (item :: items, rest)

/-- an entry without braces inside a flow sequence. Where the key is missing the token in its place is lost. -/
def readPair (fuel : Nat) (ts : List Token) : Read (Node × Node) :=
  match fuel with
  | 0 => none
  | fuel + 1 =>
    let key : Read Node :=
      if nextIn [.value, .flowEntry, .flowSequenceEnd] ts then some (missing, ts.drop 1) else read fuel false false ts
    match key with
    | none => none
    | some (key, .value :: rest) =>
      (readOr fuel [.flowEntry, .flowSequenceEnd] false false rest).map fun (value, rest) => ((key, value), rest)
    | some (key, rest) => some ((key, missing), rest)

/-- the entries of a flow mapping and its brace; a comma before each, the first excepted if `first`. An entry that is
not announced as a key has no value. -/
def readFlowEntries (fuel : Nat) (first : Bool) (ts : List Token) : Read (List (Node × Node)) :=
  match fuel with
  | 0 => none
  | fuel + 1 =>
    let start : Option (List Token) :=
      match first, ts with
      | true, ts => some ts
      | false, .flowEntry :: rest => some rest
      | false, .flowMappingEnd :: rest => some (.flowMappingEnd :: rest)
      | false, _ => none
    match start with
    | none => none
    | some (.flowMappingEnd :: rest) => some ([], rest)
    | some (.key :: rest) =>
      match readOr fuel [.value, .flowEntry, .flowMappingEnd] false false rest with
      | none => none
      | some (key, .value :: rest) =>
        match readOr fuel [.flowEntry, .flowMappingEnd] false false rest with
        | none => none
        | some (value, rest) =>
          (readFlowEntries fuel false rest).map fun (entries, rest) => ((key, value) :: entries, rest)
      | some (key, rest) =>
        (readFlowEntries fuel false rest).map fun (entries, rest) => ((key, missing) :: entries, rest)
    | some ts =>
      match read fuel false false ts with
      | none => none
      | some (key, rest) =>
        (readFlowEntries fuel false rest).map fun (entries, rest) => ((key, missing) :: entries, rest)

end

/-- the node of a document, its start mark optional, and the tokens after it; a text without tokens is a missing
node -/
def readDocument (fuel : Nat) (ts : List Token) : Read Node :=
  match ts with
  | [] => some (missing, [])
  | .documentStart :: [] => some (missing, [])
  | .documentStart :: rest => readOr fuel [.documentStart, .documentEnd] true false rest
  | ts => read fuel true false ts

/-- a whole text as one document -/
def ofText? (text : String) : Option Node :=
  match tokens? text with
  | none => none
  | some ts =>
    match readDocument (3 * ts.length + 3) ts with
    | some (node, rest) => if rest.all (· == .documentEnd) then some node else none
    | none => none

end Node

end OpcPubSub.Yaml
