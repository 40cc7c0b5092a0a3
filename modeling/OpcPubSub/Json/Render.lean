/-
The compact text of a document: no blanks, members in order, commas only between members, strings escaped. Control
characters below U+0020 have a short escape or a four-digit one; all other characters but the quote and the backslash
stand for themselves.
-/
import OpcPubSub.Json.Tree
import OpcPubSub.Number.FloatText
import OpcPubSub.Text.Hex

namespace OpcPubSub.Json

/-- one character inside a JSON string -/
def escapeChar (c : Char) : List Char :=
  if c = '"' then ['\\', '"']
  else if c = '\\' then ['\\', '\\']
  else if c = '\n' then ['\\', 'n']
  else if c = '\r' then ['\\', 'r']
  else if c = '\t' then ['\\', 't']
  else if c = '\x08' then ['\\', 'b']
  else if c = '\x0c' then ['\\', 'f']
  else if c.toNat < 0x20 then '\\' :: 'u' :: Text.hexDigits 4 c.toNat
  else [c]

/-- a string with its quotes -/
def quote (s : String) : String := String.ofList ('"' :: s.toList.flatMap escapeChar ++ ['"'])

end OpcPubSub.Json

namespace OpcPubSub

/-- the text of a leaf -/
def Atom.text : Atom → String
  | .null => "null"
  | .bool true => "true"
  | .bool false => "false"
  | .int n => Text.decimal n
  | .double x => String.ofList (Number.doubleText x)
  | .single x => String.ofList (Number.singleText x)
  | .string s => Json.quote s

end OpcPubSub

namespace OpcPubSub.Json

mutual

/-- the compact text of a document -/
def render : Json → String
  | .atom a => a.text
  | .array items => "[" ++ renderItems true items ++ "]"
  | .object members => "\x7b" ++ renderMembers true members ++ "\x7d"

/-- items with a comma before each, the first excepted if `first` -/
def renderItems : Bool → List Json → String
  | _, [] => ""
  | first, j :: rest => (if first then "" else ",") ++ j.render ++ renderItems false rest

/-- members with a comma before each, the first excepted if `first` -/
def renderMembers : Bool → List (String × Json) → String
  | _, [] => ""
  | first, (name, j) :: rest =>
    (if first then "" else ",") ++ (quote name ++ ":" ++ j.render) ++ renderMembers false rest

end

end OpcPubSub.Json
