/-
Reading documents. The grammar is JSON's, with blanks between tokens and at both ends; containers may be nested 127
deep. Strings may not hold control characters below U+0020, and an escaped surrogate has to be one half of a pair.

An object that repeats a name is refused as soon as the second name has been read, whatever follows; anything wrong
before that is a syntax error. So the name reported is the first repetition met in the text.
-/
import OpcPubSub.Error
import OpcPubSub.Json.Numeral
import OpcPubSub.Text.Hex

namespace OpcPubSub.Json

/-- why a text is no document -/
inductive Refusal where
  | malformed
  /-- an object names a member twice -/
  | repeated (name : String)
deriving DecidableEq, Repr

def Refusal.fault : Refusal → Fault
  | .malformed => .decode "invalid json"
  | .repeated name => .duplicateField name

/-- the answer of a reader: what it read and the text after it -/
abbrev Read (α : Type) := Except Refusal (α × List Char)

/-- the text after blanks -/
def skipBlanks : List Char → List Char
  | c :: cs => if c = ' ' ∨ c = '\t' ∨ c = '\n' ∨ c = '\r' then skipBlanks cs else c :: cs
  | [] => []

/-- the UTF-16 unit that four hexadecimal digits stand for -/
def unit? (a b c d : Char) : Option Nat :=
  match Text.readHex 4 0 [a, b, c, d] with
  | some (n, _) => some n
  | none => none

/-- the character a one-letter escape stands for -/
def simpleEscape? (c : Char) : Option Char :=
  if c = '"' then some '"'
  else if c = '\\' then some '\\'
  else if c = '/' then some '/'
  else if c = 'b' then some '\x08'
  else if c = 'f' then some '\x0c'
  else if c = 'n' then some '\n'
  else if c = 'r' then some '\r'
  else if c = 't' then some '\t'
  else none

def isHighSurrogate (n : Nat) : Bool := 0xD800 ≤ n && n < 0xDC00

def isLowSurrogate (n : Nat) : Bool := 0xDC00 ≤ n && n < 0xE000

/-- one character of a string: plain, or an escape with its backslash; `none` at the closing quote, at a control
character and at an escape that stands for nothing -/
def readChar : List Char → Option (Char × List Char)
  | '\\' :: 'u' :: a :: b :: c :: d :: rest =>
    match unit? a b c d with
    | none => none
    | some n =>
      if isLowSurrogate n then none
      else if isHighSurrogate n then
        match rest with
        | '\\' :: 'u' :: e :: f :: g :: h :: rest =>
          match unit? e f g h with
          | none => none
          | some m =>
            if isLowSurrogate m then some (Char.ofNat (0x10000 + (n - 0xD800) * 0x400 + (m - 0xDC00)), rest) else none
        | _ => none
      else some (Char.ofNat n, rest)
  | '\\' :: c :: rest => (simpleEscape? c).map fun e => (e, rest)
  | c :: rest => if c = '"' ∨ c = '\\' ∨ c.toNat < 0x20 then none else some (c, rest)
  | [] => none

theorem readChar_length {cs rest : List Char} {c : Char} (h : readChar cs = some (c, rest)) :
    rest.length < cs.length := by
  unfold readChar at h
  split at h
  · split at h
    · simp at h
    · split at h
      · simp at h
      · split at h
        · split at h
          · split at h
            · simp at h
            · split at h
              · simp only [Option.some.injEq, Prod.mk.injEq] at h
                rw [← h.2]; simp only [List.length_cons]; omega
              · simp at h
          · simp at h
        · simp only [Option.some.injEq, Prod.mk.injEq] at h
          rw [← h.2]; simp only [List.length_cons]; omega
  · simp only [Option.map_eq_some_iff, Prod.mk.injEq] at h
    obtain ⟨_, _, _, h⟩ := h
    rw [← h]; simp only [List.length_cons]; omega
  · split at h
    · simp at h
    · simp only [Option.some.injEq, Prod.mk.injEq] at h
      rw [← h.2]; simp
  · simp at h

/-- the characters up to the closing quote, and the text after it -/
def readString (cs : List Char) : Option (List Char × List Char) :=
  match cs with
  | '"' :: rest => some ([], rest)
  | cs =>
    match _h : readChar cs with
    | none => none
    | some (c, rest) =>
      match readString rest with
      | none => none
      | some (s, rest) => some (c :: s, rest)
termination_by cs.length
decreasing_by exact readChar_length _h

/-- the text after a word, if it starts with the word -/
def dropWord : List Char → List Char → Option (List Char)
  | [], cs => some cs
  | _ :: _, [] => none
  | w :: ws, c :: cs => if w = c then dropWord ws cs else none

/-- a leaf that is no string -/
def readWord (cs : List Char) : Read Json :=
  match dropWord ['n', 'u', 'l', 'l'] cs, dropWord ['t', 'r', 'u', 'e'] cs, dropWord ['f', 'a', 'l', 's', 'e'] cs with
  | some rest, _, _ => .ok (.null, rest)
  | _, some rest, _ => .ok (.bool true, rest)
  | _, _, some rest => .ok (.bool false, rest)
  | none, none, none =>
    match scan cs with
    | none => .error .malformed
    | some (n, rest) =>
      match n.value? with
      | none => .error .malformed
      | some a => .ok (.atom a, rest)

mutual

/-- one value at the front of a text, blanks before it allowed, inside at most `depth` further containers. `fuel` is
spent on every call; a character costs at most two units. -/
def readValue (fuel depth : Nat) (cs : List Char) : Read Json :=
  match fuel with
  | 0 => .error .malformed
  | fuel + 1 =>
    match skipBlanks cs with
    | '[' :: rest =>
      match depth with
      | 0 => .error .malformed
      | depth + 1 =>
        match skipBlanks rest with
        | ']' :: rest => .ok (.array [], rest)
        | rest =>
          match readItems fuel depth rest with
          | .error e => .error e
          | .ok (items, rest) => .ok (.array items, rest)
    | '\x7b' :: rest =>
      match depth with
      | 0 => .error .malformed
      | depth + 1 =>
        match skipBlanks rest with
        | '\x7d' :: rest => .ok (.object [], rest)
        | rest =>
          match readMembers fuel depth [] rest with
          | .error e => .error e
          | .ok (members, rest) => .ok (.object members, rest)
    | '"' :: rest =>
      match readString rest with
      | none => .error .malformed
      | some (s, rest) => .ok (.string (String.ofList s), rest)
    | cs => readWord cs

/-- one or more items and the closing bracket -/
def readItems (fuel depth : Nat) (cs : List Char) : Read (List Json) :=
  match fuel with
  | 0 => .error .malformed
  | fuel + 1 =>
    match readValue fuel depth cs with
    | .error e => .error e
    | .ok (item, rest) =>
      match skipBlanks rest with
      | ']' :: rest => .ok ([item], rest)
      | ',' :: rest =>
        match readItems fuel depth rest with
        | .error e => .error e
        | .ok (items, rest) => .ok (item :: items, rest)
      | _ => .error .malformed

/-- one or more members and the closing brace; `seen` are the names the object has already -/
def readMembers (fuel depth : Nat) (seen : List String) (cs : List Char) : Read (List (String × Json)) :=
  match fuel with
  | 0 => .error .malformed
  | fuel + 1 =>
    match skipBlanks cs with
    | '"' :: rest =>
      match readString rest with
      | none => .error .malformed
      | some (s, rest) =>
        let name := String.ofList s
        if name ∈ seen then .error (.repeated name)
        else
          match skipBlanks rest with
          | ':' :: rest =>
            match readValue fuel depth rest with
            | .error e => .error e
            | .ok (v, rest) =>
              match skipBlanks rest with
              | '\x7d' :: rest => .ok ([(name, v)], rest)
              | ',' :: rest =>
                match readMembers fuel depth (name :: seen) rest with
                | .error e => .error e
                | .ok (members, rest) => .ok ((name, v) :: members, rest)
              | _ => .error .malformed
          | _ => .error .malformed
    | _ => .error .malformed

end

/-- how deep containers may be nested -/
def maxDepth : Nat := 127

/-- a whole text as one document -/
def parse (text : String) : Except Refusal Json :=
  let cs := text.toList
  match readValue (2 * cs.length + 2) maxDepth cs with
  | .error e => .error e
  | .ok (j, rest) => if (skipBlanks rest).isEmpty then .ok j else .error .malformed

/-- a whole text as one document, its refusal as a fault -/
def parseDocument (text : String) : Except Fault Json := (parse text).mapError Refusal.fault

end OpcPubSub.Json
