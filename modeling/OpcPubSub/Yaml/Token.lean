/-
Tokens of a YAML text. Block collections have no brackets of their own: where a line starts further right than the
block around it a new block begins, and where one starts further left blocks end, and both become tokens here.

A key is recognised late, by the colon after it. So wherever one may start its place is kept as a candidate, one for
the block context and one for each open flow collection; a colon turns the candidate into a key, in front of the
tokens scanned since. A candidate expires with its line or after 1024 characters. In a block mapping, where every
entry has to be a key, a candidate that expires is an error.

Read are block and flow collections, plain and quoted scalars, comments and the two document marks. Anchors, aliases,
tags, block scalars and directives are refused.
-/
import OpcPubSub.Yaml.Scalar

namespace OpcPubSub.Yaml

inductive Token where
  | documentStart
  | documentEnd
  | blockSequenceStart
  | blockMappingStart
  | blockEnd
  | flowSequenceStart
  | flowSequenceEnd
  | flowMappingStart
  | flowMappingEnd
  | blockEntry
  | flowEntry
  | key
  | value
  | scalar (text : String) (plain : Bool)
deriving DecidableEq, Repr

/-- a place where a key may have started -/
structure Candidate where
  /-- how many tokens are before it -/
  tokens : Nat
  /-- nothing but a key may stand here -/
  required : Bool
  spot : Spot

/-- the candidate at a later place: none once it has expired, unless it is required -/
def Candidate.keep (now : Spot) : Option Candidate → Option (Option Candidate)
  | none => some none
  | some c =>
    if c.spot.line < now.line ∨ c.spot.index + 1024 < now.index then if c.required then none else some none
    else some (some c)

structure Scanner where
  tokens : Array Token := #[]
  /-- columns of the open blocks, the innermost first -/
  blocks : List Nat := []
  keyAllowed : Bool := true
  candidate : Option Candidate := none
  /-- the candidates around the open flow collections, the innermost first -/
  outer : List (Option Candidate) := []

namespace Scanner

def inFlow (s : Scanner) : Bool := !s.outer.isEmpty

def emit (s : Scanner) (t : Token) : Scanner := { s with tokens := s.tokens.push t }

/-- the scanner without its candidate, if that is not required -/
def dropCandidate (s : Scanner) : Option Scanner :=
  if s.candidate.any Candidate.required then none else some { s with candidate := none }

/-- the candidates that are still good at this place -/
def expire (s : Scanner) (now : Spot) : Option Scanner := do
  some { s with candidate := ← Candidate.keep now s.candidate, outer := ← s.outer.mapM (Candidate.keep now) }

/-- a new candidate, where a key is allowed -/
def offerKey (s : Scanner) (now : Spot) : Option Scanner :=
  if s.keyAllowed then do
    let s ← s.dropCandidate
    some { s with candidate := some ⟨s.tokens.size, !s.inFlow && s.blocks.head? == some now.column, now⟩ }
  else some s

/-- a block begins with token `t` in front of token number `position`, if `column` is further right than the block
around it -/
def openBlock (s : Scanner) (column position : Nat) (t : Token) : Scanner :=
  if s.inFlow ∨ s.blocks.head?.any (column ≤ ·) then s
  else { s with blocks := column :: s.blocks, tokens := s.tokens.insertIdxIfInBounds position t }

/-- the blocks that are further right than `column` end -/
def closeBlocks (s : Scanner) (column : Nat) : Scanner :=
  if s.inFlow then s
  else
    let ended := s.blocks.takeWhile (column < ·)
    { s with blocks := s.blocks.drop ended.length,
             tokens := s.tokens ++ (List.replicate ended.length Token.blockEnd).toArray }

/-- all blocks end -/
def closeAll (s : Scanner) : Scanner :=
  if s.inFlow then s
  else { s with blocks := [], tokens := s.tokens ++ (List.replicate s.blocks.length Token.blockEnd).toArray }

def documentMark (s : Scanner) (t : Token) : Option Scanner := do
  let s ← s.closeAll.dropCandidate
  some ({ s with keyAllowed := false }.emit t)

def openFlow (s : Scanner) (now : Spot) (t : Token) : Option Scanner := do
  let s ← s.offerKey now
  some ({ s with outer := s.candidate :: s.outer, candidate := none, keyAllowed := true }.emit t)

def closeFlow (s : Scanner) (t : Token) : Option Scanner := do
  let s ← s.dropCandidate
  let s : Scanner :=
    match s.outer with
    | [] => s
    | c :: rest => { s with candidate := c, outer := rest }
  some ({ s with keyAllowed := false }.emit t)

def flowEntry (s : Scanner) : Option Scanner := do
  let s ← s.dropCandidate
  some ({ s with keyAllowed := true }.emit .flowEntry)

/-- a block collection goes on, or begins, where a key could start -/
def enterBlock (s : Scanner) (now : Spot) (t : Token) : Option Scanner :=
  if s.inFlow then some s else if s.keyAllowed then some (s.openBlock now.column s.tokens.size t) else none

def blockEntry (s : Scanner) (now : Spot) : Option Scanner := do
  let s ← (← s.enterBlock now .blockSequenceStart).dropCandidate
  some ({ s with keyAllowed := true }.emit .blockEntry)

/-- a key that is announced -/
def key (s : Scanner) (now : Spot) : Option Scanner := do
  let s ← (← s.enterBlock now .blockMappingStart).dropCandidate
  some ({ s with keyAllowed := !s.inFlow }.emit .key)

/-- the colon before a value -/
def value (s : Scanner) (now : Spot) : Option Scanner :=
  match s.candidate with
  | some c =>
    let s := { s with tokens := s.tokens.insertIdxIfInBounds c.tokens .key }
    let s := s.openBlock c.spot.column c.tokens .blockMappingStart
    some ({ s with candidate := none, keyAllowed := false }.emit .value)
  | none => do
    let s ← s.enterBlock now .blockMappingStart
    some ({ s with keyAllowed := !s.inFlow }.emit .value)

/-- a scalar; a key may follow one that ended with its line -/
def scalar (s : Scanner) (text : List Char) (plain keyAfter : Bool) : Scanner :=
  { s with keyAllowed := keyAfter }.emit (.scalar (String.ofList text) plain)

/-- the least column of a plain scalar's further lines -/
def plainColumn (s : Scanner) : Nat :=
  match s.blocks with
  | [] => 0
  | column :: _ => column + 1

/-- the characters that start no plain scalar -/
def isIndicator (c : Char) : Bool :=
  c ∈ ['-', '?', ':', ',', '[', ']', '\x7b', '\x7d', '#', '&', '*', '!', '|', '>', '\x27', '"', '%', '@', '\x60']

/-- a plain scalar may start here: not at white space, which can only be a tab where a key may stand -/
def startsPlain (s : Scanner) (now : Spot) (rest : List Spot) : Bool :=
  (!isIndicator now.char && !isWhite now.char) || (now.char == '-' && !nextIs isSpace rest) ||
    (!s.inFlow && (now.char == '?' || now.char == ':') && !whiteNext rest)

/-- one token, of which `now` is the first character, and the text after it -/
def fetch (s : Scanner) (now : Spot) (rest : List Spot) : Option (Scanner × List Spot) :=
  let spots := now :: rest
  let one (s : Option Scanner) : Option (Scanner × List Spot) := s.map (·, rest)
  if isMark '-' spots then (s.documentMark .documentStart).map (·, rest.drop 2)
  else if isMark '.' spots then (s.documentMark .documentEnd).map (·, rest.drop 2)
  else if now.char = '[' then one (s.openFlow now .flowSequenceStart)
  else if now.char = '\x7b' then one (s.openFlow now .flowMappingStart)
  else if now.char = ']' then one (s.closeFlow .flowSequenceEnd)
  else if now.char = '\x7d' then one (s.closeFlow .flowMappingEnd)
  else if now.char = ',' then one s.flowEntry
  else if now.char = '-' ∧ whiteNext rest then one (s.blockEntry now)
  else if now.char = '?' ∧ (s.inFlow ∨ whiteNext rest) then one (s.key now)
  else if now.char = ':' ∧ (s.inFlow ∨ whiteNext rest) then one (s.value now)
  else if now.char = '\x27' then do
    let s ← s.offerKey now
    let (text, rest) ← readSingle .none rest
    some (s.scalar text false false, rest)
  else if now.char = '"' then do
    let s ← s.offerKey now
    let (text, rest) ← readDouble none .none rest
    some (s.scalar text false false, rest)
  else if s.startsPlain now rest then do
    let s ← s.offerKey now
    let (text, lineEnded, rest) ← readPlain s.inFlow s.plainColumn .none spots
    some (s.scalar text true lineEnded, rest)
  else none

/-- the text after white space and comments, and whether a key may start there. A new line allows one in block
context; a tab counts as white space only where none may start. -/
def skip (flow : Bool) (comment keyAllowed : Bool) : List Spot → List Spot × Bool
  | [] => ([], keyAllowed)
  | s :: rest =>
    if isBreak s.char then skip flow false (keyAllowed || !flow) rest
    else if comment then skip flow true keyAllowed rest
    else if s.char = ' ' ∨ s.char = '\t' ∧ (flow ∨ ¬keyAllowed) then skip flow false keyAllowed rest
    else if s.char = '#' then skip flow true keyAllowed rest
    else (s :: rest, keyAllowed)

/-- the tokens of a text, on top of those scanned so far; every round takes at least a character -/
def run (fuel : Nat) (s : Scanner) (spots : List Spot) : Option Scanner :=
  match fuel with
  | 0 => none
  | fuel + 1 =>
    let (spots, keyAllowed) := skip s.inFlow false s.keyAllowed spots
    let s := { s with keyAllowed }
    match spots with
    | [] => s.closeAll.dropCandidate
    | now :: rest =>
      match (s.expire now).bind fun s => (s.closeBlocks now.column).fetch now rest with
      | none => none
      | some (s, rest) => run fuel s rest

end Scanner

/-- the tokens of a text -/
def tokens? (text : String) : Option (List Token) := do
  let spots ← spots? text
  let s ← Scanner.run (spots.length + 1) {} spots
  some s.tokens.toList

end OpcPubSub.Yaml
