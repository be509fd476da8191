import Switchboard.Json.Value
import Switchboard.Number.Shortest
import Switchboard.Text.Quoted

/-!
# Writing JSON

The compact text of a value: no blanks, members in the order they are
listed, integers in decimal, other numbers in their shortest form. In a
string a quote, a backslash and every control character below the space
is escaped, by the short escape where there is one; all else is written
as it is.
-/

namespace Switchboard.Json

/-- How one character is written inside a string. -/
def escapeChar (c : Char) : List Char :=
  if c = '"' then ['\\', '"']
  else if c = '\\' then ['\\', '\\']
  else if c = '\n' then ['\\', 'n']
  else if c = '\r' then ['\\', 'r']
  else if c = '\t' then ['\\', 't']
  else if c = '\x08' then ['\\', 'b']
  else if c = '\x0c' then ['\\', 'f']
  else if c.toNat < 32 then
    ['\\', 'u', '0', '0', Text.hexDigit (c.toNat / 16), Text.hexDigit (c.toNat % 16)]
  else [c]

/-- The characters of a string value, quotes included. -/
def stringChars (s : String) : List Char := '"' :: s.toList.flatMap escapeChar ++ ['"']

mutual

/-- The characters of a value. -/
def chars : Json → List Char
  | null => ['n', 'u', 'l', 'l']
  | bool true => ['t', 'r', 'u', 'e']
  | bool false => ['f', 'a', 'l', 's', 'e']
  | int n => Number.intChars n
  | float x => if x.isInfinite || x == .nan then ['n', 'u', 'l', 'l'] else x.text.toList
  | str s => stringChars s
  | arr items => '[' :: itemChars items ++ [']']
  | obj members => '\x7b' :: memberChars members ++ ['\x7d']

/-- The characters of the items of an array, with commas between them. -/
def itemChars : List Json → List Char
  | [] => []
  | [v] => chars v
  | v :: rest => chars v ++ ',' :: itemChars rest

/-- The characters of the members of an object, with commas between them. -/
def memberChars : List (String × Json) → List Char
  | [] => []
  | [(n, v)] => stringChars n ++ ':' :: chars v
  | (n, v) :: rest => stringChars n ++ ':' :: chars v ++ ',' :: memberChars rest

end

/-- The compact text of a value. -/
def text (v : Json) : String := String.ofList (chars v)

end Switchboard.Json
