/-
Scalars of a YAML text: plain ones and those in single or double quotes. White space inside a scalar is kept if it is
on one line. White space that goes over the end of a line is folded: one line break becomes a space, more lose the
first of them, and the spaces beside them go.
-/
import OpcPubSub.Text.Hex
import OpcPubSub.Yaml.Spot

namespace OpcPubSub.Yaml

/-- white space inside a scalar -/
inductive Gap where
  /-- spaces and tabs on one line -/
  | within (spaces : List Char)
  /-- over the end of a line: the first line break, none if it is escaped, and those after it -/
  | across (first later : List Char)
deriving DecidableEq, Repr

namespace Gap

def none : Gap := within []

def isNone (g : Gap) : Bool := g == none

def isAcross : Gap → Bool
  | within _ => false
  | across _ _ => true

/-- with one more character of white space -/
def push (g : Gap) (c : Char) : Gap :=
  match g, isBreak c with
  | within spaces, false => within (spaces ++ [c])
  | within _, true => across [c] []
  | across first later, false => across first later
  | across first later, true => across first (later ++ [c])

/-- what a scalar keeps of white space -/
def folded : Gap → List Char
  | within spaces => spaces
  | across ['\n'] [] => [' ']
  | across ['\n'] later => later
  | across first later => first ++ later

end Gap

/-- the characters that are punctuation inside flow collections -/
def isFlowIndicator (c : Char) : Bool := c == ',' || c == '[' || c == ']' || c == '\x7b' || c == '\x7d'

/-- a colon inside a flow collection may not stand before one of these -/
def isColonClash (c : Char) : Bool := isFlowIndicator c || c == '?'

/-- the first character satisfies `p` -/
def nextIs (p : Char → Bool) : List Spot → Bool
  | [] => false
  | s :: _ => p s.char

/-- the rest of a plain scalar after `gap`: its characters, whether white space over the end of a line follows it, and
the text after that. In block context it ends left of column `least`. -/
def readPlain (flow : Bool) (least : Nat) (gap : Gap) (spots : List Spot) : Option (List Char × Bool × List Spot) :=
  match spots with
  | [] => some ([], gap.isAcross, [])
  | s :: rest =>
    if isWhite s.char then
      if gap.isAcross ∧ s.char = '\t' ∧ s.column < least then none
      else readPlain flow least (gap.push s.char) rest
    else if ¬gap.isNone ∧ (¬flow ∧ s.column < least ∨ isDocumentMark spots ∨ s.char = '#') then
      some ([], gap.isAcross, spots)
    else if flow ∧ s.char = ':' ∧ nextIs isColonClash rest then none
    else if s.char = ':' ∧ whiteNext rest ∨ flow ∧ isFlowIndicator s.char then some ([], gap.isAcross, spots)
    else (readPlain flow least .none rest).map fun (text, after) => (gap.folded ++ s.char :: text, after)

/-- what a backslash in double quotes stands for -/
inductive Escape where
  | char (c : Char)
  /-- so many hexadecimal digits that name a code point -/
  | digits (count : Nat)

def Escape.ofChar? (c : Char) : Option Escape :=
  match c with
  | '0' => some (.char '\x00')
  | 'a' => some (.char '\x07')
  | 'b' => some (.char '\x08')
  | 't' => some (.char '\t')
  | '\t' => some (.char '\t')
  | 'n' => some (.char '\n')
  | 'v' => some (.char '\x0b')
  | 'f' => some (.char '\x0c')
  | 'r' => some (.char '\r')
  | 'e' => some (.char '\x1b')
  | ' ' => some (.char ' ')
  | '"' => some (.char '"')
  | '/' => some (.char '/')
  | '\\' => some (.char '\\')
  | 'N' => some (.char '\x85')
  | '_' => some (.char '\xa0')
  | 'L' => some (.char '\u2028')
  | 'P' => some (.char '\u2029')
  | 'x' => some (.digits 2)
  | 'u' => some (.digits 4)
  | 'U' => some (.digits 8)
  | _ => none

/-- the character of a code point that is one -/
def charOf? (n : Nat) : Option Char := if n.isValidChar then some (Char.ofNat n) else none

/-- the rest of a single-quoted scalar after `gap`, and the text after its quote; a quote inside is written twice -/
def readSingle (gap : Gap) (spots : List Spot) : Option (List Char × List Spot) :=
  let put (c : Char) (r : Option (List Char × List Spot)) : Option (List Char × List Spot) :=
    r.map fun (text, after) => (gap.folded ++ c :: text, after)
  match spots with
  | [] => none
  | s :: rest =>
    if isWhite s.char then readSingle (gap.push s.char) rest
    else if isDocumentMark spots then none
    else if s.char = '\x27' then
      match rest with
      | q :: rest' => if q.char = '\x27' then put '\x27' (readSingle .none rest') else some (gap.folded, q :: rest')
      | [] => some (gap.folded, [])
    else put s.char (readSingle .none rest)

/-- the rest of a double-quoted scalar after `gap`, and the text after its quote. `code` is a code point whose digits
are being read: how many are still to come, and the value of those read. -/
def readDouble (code : Option (Nat × Nat)) (gap : Gap) (spots : List Spot) : Option (List Char × List Spot) :=
  let put (cs : List Char) (r : Option (List Char × List Spot)) : Option (List Char × List Spot) :=
    r.map fun (text, after) => (gap.folded ++ cs ++ text, after)
  match spots with
  | [] => none
  | s :: rest =>
    match code with
    | some (count, value) =>
      match Text.hexValue s.char with
      | none => none
      | some d =>
        let value := 16 * value + d
        if 1 < count then readDouble (some (count - 1, value)) gap rest
        else
          match charOf? value with
          | none => none
          | some c => put [c] (readDouble none .none rest)
    | none =>
      if isWhite s.char then readDouble none (gap.push s.char) rest
      else if isDocumentMark spots then none
      else if s.char = '"' then some (gap.folded, rest)
      else if s.char = '\\' then
        match rest with
        | [] => none
        | e :: rest' =>
          if isBreak e.char then put [] (readDouble none (.across [] []) rest')
          else
            match Escape.ofChar? e.char with
            | none => none
            | some (.char c) => put [c] (readDouble none .none rest')
            | some (.digits count) => readDouble (some (count, 0)) gap rest'
      else put [s.char] (readDouble none .none rest)

end OpcPubSub.Yaml
