/-
The characters of a YAML text with their places. A line break is one character, however it is written: a line feed, a
carriage return, both together or the next-line character count as a line feed; the separators U+2028 and U+2029 break
lines too and stay what they are. Control characters but tab and the line breaks are refused. A byte order mark may
start a text.
-/

namespace OpcPubSub.Yaml

/-- a character and where it stands: how many characters, and how many lines, are before it, and how many characters
of its own line -/
structure Spot where
  char : Char
  index : Nat
  line : Nat
  column : Nat
deriving DecidableEq, Repr

def isBreak (c : Char) : Bool := c == '\n' || c == '\u2028' || c == '\u2029'

def isSpace (c : Char) : Bool := c == ' ' || c == '\t'

def isWhite (c : Char) : Bool := isSpace c || isBreak c

/-- what a text may hold -/
def isPermitted (c : Char) : Bool :=
  let n := c.toNat
  n == 0x09 || n == 0x0A || n == 0x0D || (0x20 ≤ n && n ≤ 0x7E) || n == 0x85 || (0xA0 ≤ n && n ≤ 0xFFFD) || 0x10000 ≤ n

/-- the characters of a text that starts at this place -/
def place (index line column : Nat) : List Char → List Spot
  | [] => []
  | '\r' :: '\n' :: cs => ⟨'\n', index, line, column⟩ :: place (index + 2) (line + 1) 0 cs
  | c :: cs =>
    if c = '\n' ∨ c = '\r' ∨ c = '\x85' then ⟨'\n', index, line, column⟩ :: place (index + 1) (line + 1) 0 cs
    else if isBreak c then ⟨c, index, line, column⟩ :: place (index + 1) (line + 1) 0 cs
    else ⟨c, index, line, column⟩ :: place (index + 1) line (column + 1) cs

/-- a whole text; a byte order mark at its start takes up a column -/
def spots? (text : String) : Option (List Spot) :=
  let cs := text.toList
  if cs.all isPermitted then
    match cs with
    | '\ufeff' :: cs => some (place 1 0 1 cs)
    | cs => some (place 0 0 0 cs)
  else none

/-- white space or the end of the text comes next -/
def whiteNext : List Spot → Bool
  | [] => true
  | s :: _ => isWhite s.char

/-- three times `c` at the start of a line, alone -/
def isMark (c : Char) : List Spot → Bool
  | x :: y :: z :: rest => x.column == 0 && x.char == c && y.char == c && z.char == c && whiteNext rest
  | _ => false

/-- the mark that starts a document or the one that ends it -/
def isDocumentMark (spots : List Spot) : Bool := isMark '-' spots || isMark '.' spots

end OpcPubSub.Yaml
