import Switchboard.Setting.Basic
import Switchboard.Text.Blank
import Switchboard.Text.Escaped
import Switchboard.Text.Split

/-!
# Settings from variables

Variables of the environment are names with texts. Those whose names begin
with a given text are settings: the rest of the name, in lower case, is
cut at dots and double underscores into a chain of names.

The text of a variable is read as a setting by `ofText`: `true` and
`false`, numbers, quoted texts, characters between apostrophes, lists in
brackets, tables in braces. A text that is nothing of the kind stands for
itself.
-/

namespace Switchboard.Setting

open Switchboard.Text (after?)

/-- White space between the words of a setting. -/
def isGap (c : Char) : Bool := c == ' ' || c == '\t' || c == '\n' || c == '\r' || c == '\x0c'

/-- Whether a character belongs to a word. -/
def isWordChar (c : Char) : Bool :=
  !(c == ',' || c == '\x7b' || c == '\x7d' || c == '[' || c == ']')

/-- Whether a character belongs to a name that is not quoted. -/
def isNameChar (c : Char) : Bool := c.isAlphanum || c == '_' || c == '-'

/-- The text without the gaps at its beginning. -/
def skipGaps (cs : List Char) : List Char := cs.dropWhile isGap

/-- Reads a quoted text, behind its first quote, in at most `fuel` steps. -/
def readQuoted : Nat → List Char → Option (List Char × List Char)
  | 0, _ => none
  | _, [] => none
  | fuel + 1, c :: cs =>
    let goOn (c : Char) (cs : List Char) :=
      (readQuoted fuel cs).map fun (read, rest) => (c :: read, rest)
    if c = '"' then some ([], cs)
    else if c = '\\' then (Text.readEscape? cs).bind fun (c, cs) => goOn c cs
    else if (c.toNat < 32 ∧ c ≠ '\t') ∨ c.toNat = 127 then none
    else goOn c cs

/-- Reads a decimal number with a point: a sign, digits around the point,
an exponent. -/
def readFloat? (cs : List Char) : Option Number.Binary64 :=
  let (negative, cs) := match cs with
    | '-' :: cs => (true, cs)
    | '+' :: cs => (false, cs)
    | cs => (false, cs)
  let whole := cs.takeWhile Number.isDigit
  match cs.dropWhile Number.isDigit with
  | '.' :: cs =>
    let places := cs.takeWhile Number.isDigit
    let rest := cs.dropWhile Number.isDigit
    let exponent := match rest with
      | [] => some 0
      | e :: rest => if e = 'e' ∨ e = 'E' then Number.readInt? rest else none
    if whole.isEmpty && places.isEmpty then none
    else exponent.map fun e =>
      Number.Binary64.ofDecimal negative (Number.value (whole ++ places)) (e - places.length)
  | _ => none

/-- What a word stands for: a number, or itself. -/
def ofWord (cs : List Char) : Setting :=
  let word := Text.trim (String.ofList cs)
  let cs := word.toList
  match if cs.contains '.' then readFloat? cs else none with
  | some x => float x
  | none =>
    match Number.readInt? cs with
    | some n =>
      if Number.fitsUInt64 n && cs.head? != some '-' then natural n.toNat
      else if Number.fitsInt64 n then integer n
      else text word
    | none => text word

mutual

/-- Reads a setting and the gaps around it, in at most `fuel` steps. -/
def readValue : Nat → List Char → Option (Setting × List Char)
  | 0, _ => none
  | fuel + 1, cs =>
    let cs := skipGaps cs
    let found : Option (Setting × List Char) :=
      match after? "true".toList cs, after? "false".toList cs with
      | some rest, _ => some (bool true, rest)
      | _, some rest => some (bool false, rest)
      | _, _ =>
        match cs with
        | '[' :: rest =>
          (readItemsOf fuel rest).map fun (items, rest) => (list items, rest)
        | '\x7b' :: rest =>
          (readEntriesOf fuel rest).map fun (entries, rest) => (table (Json.ordered entries), rest)
        | '"' :: rest =>
          (readQuoted (rest.length + 1) rest).map fun (s, rest) => (text (String.ofList s), rest)
        | '\'' :: c :: '\'' :: rest => some (character c, rest)
        | '\'' :: _ => none
        | cs => some (ofWord (cs.takeWhile isWordChar), cs.dropWhile isWordChar)
    found.map fun (s, rest) => (s, skipGaps rest)

/-- Reads the items of a list behind its bracket. -/
def readItemsOf : Nat → List Char → Option (List Setting × List Char)
  | 0, _ => none
  | _, ']' :: rest => some ([], rest)
  | fuel + 1, cs =>
    match readValue fuel cs with
    | none => none
    | some (s, ',' :: rest) =>
      (readItemsOf fuel rest).map fun (items, rest) => (s :: items, rest)
    | some (s, ']' :: rest) => some ([s], rest)
    | some _ => none

/-- Reads the entries of a table behind its brace. -/
def readEntriesOf : Nat → List Char → Option (List (String × Setting) × List Char)
  | 0, _ => none
  | fuel + 1, cs =>
    match cs with
    | '\x7d' :: rest => some ([], rest)
    | cs =>
      let cs := skipGaps cs
      let name : Option (List Char × List Char) :=
        match cs with
        | '"' :: rest => readQuoted (rest.length + 1) rest
        | cs =>
          if (cs.takeWhile isNameChar).isEmpty then none
          else some (cs.takeWhile isNameChar, cs.dropWhile isNameChar)
      match name.map fun (name, rest) => (name, skipGaps rest) with
      | some (name, '=' :: rest) =>
        match readValue fuel rest with
        | none => none
        | some (s, ',' :: rest) =>
          (readEntriesOf fuel rest).map fun (es, rest) => ((String.ofList name, s) :: es, rest)
        | some (s, '\x7d' :: rest) => some ([(String.ofList name, s)], rest)
        | some _ => none
      | _ => none

end

/-- **The setting a text stands for.** -/
def ofText (s : String) : Setting :=
  match readValue (2 * s.length + 2) s.toList with
  | some (v, []) => v
  | _ => text s

/-- The lower case of an ASCII letter; other characters stay. -/
def lowerAscii (c : Char) : Char := if 'A' ≤ c ∧ c ≤ 'Z' then Char.ofNat (c.toNat + 32) else c

/-- A text with dots in place of double underscores. -/
def dotted : List Char → List Char
  | '_' :: '_' :: cs => '.' :: dotted cs
  | c :: cs => c :: dotted cs
  | [] => []

/-- The chain of names in the name of a setting. It ends before the first
name that is empty. -/
def chainOf (name : List Char) : List String :=
  ((Text.splitOn '.' name).takeWhile fun part => !part.isEmpty).map String.ofList

/-- What the names of variables begin with, apart from case. -/
structure VariableRule where
  begins : String
  /-- A name that is none of a setting. -/
  ignored : String

/-- The name of a setting that the name of a variable gives, in lower
case and with dots between its parts. -/
def VariableRule.settingName? (r : VariableRule) (name : String) : Option (List Char) :=
  let lower (s : String) : List Char := s.toList.map lowerAscii
  match after? (lower r.begins) (lower (Text.trim name)) with
  | none => none
  | some rest =>
    let found := (Text.trim (String.ofList (dotted rest))).toList
    if found.isEmpty ∨ rest = lower r.ignored then none else some found

/-- What one variable says. A variable without any name must be a table. -/
def ofVariable? (name : List Char) (value : String) : Option Setting :=
  match nested (chainOf name) (ofText value) with
  | table entries => some (table entries)
  | _ => none

/-- **What variables say**, later ones laid over earlier ones; nothing if
a variable without any name is no table. -/
def ofVariables? (r : VariableRule) (environment : List (String × String)) : Option Setting :=
  let named := environment.filterMap fun (name, value) =>
    (r.settingName? name).map fun found => (found, value)
  (named.mapM fun (name, value) => ofVariable? name value).map layered

end Switchboard.Setting
