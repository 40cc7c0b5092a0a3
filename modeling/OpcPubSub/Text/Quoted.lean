/-
Quoted texts in error messages: double quotes around the text, backslash escapes for the quote, the backslash, tab,
line feed, carriage return and the null character, and the code point in braces for characters of no shape of their
own.
-/
import OpcPubSub.Text.Hidden

namespace OpcPubSub.Text

/-- one character inside quotes -/
def quotedChar (c : Char) : List Char :=
  if c == '"' then ['\\', '"']
  else if c == '\\' then ['\\', '\\']
  else if c == '\t' then ['\\', 't']
  else if c == '\n' then ['\\', 'n']
  else if c == '\r' then ['\\', 'r']
  else if c == '\x00' then ['\\', '0']
  else if isHidden c then ['\\', 'u', '{'] ++ Nat.toDigits 16 c.toNat ++ ['}']
  else [c]

/-- the text `s` between quotes, as error messages show it -/
def quoted (s : String) : String := String.ofList ('"' :: s.toList.flatMap quotedChar ++ ['"'])

end OpcPubSub.Text
