import Switchboard.Json.Writer

/-!
# Describing JSON values for diagnosis

Unlike the JSON text of a value, its description names the kind of every
part.
-/

namespace Switchboard.Json

mutual

/-- The description of a value. -/
def describe : Json → String
  | null => "Null"
  | bool true => "Bool(true)"
  | bool false => "Bool(false)"
  | int n => "Number(" ++ Number.intText n ++ ")"
  | float x => "Number(" ++ x.text ++ ")"
  | str s => "String(" ++ Text.quoted s ++ ")"
  | arr items => "Array [" ++ String.intercalate ", " (describeItems items) ++ "]"
  | obj members => "Object \x7b" ++ String.intercalate ", " (describeMembers members) ++ "\x7d"

/-- The descriptions of the items of an array. -/
def describeItems : List Json → List String
  | [] => []
  | v :: rest => describe v :: describeItems rest

/-- The descriptions of the members of an object. -/
def describeMembers : List (String × Json) → List String
  | [] => []
  | (n, v) :: rest => (Text.quoted n ++ ": " ++ describe v) :: describeMembers rest

end

end Switchboard.Json
