import Switchboard.Toml.Draft
import Switchboard.Toml.Scalar

/-!
# Reading TOML

`Toml.read?` takes a whole document and gives the setting it stands for,
or nothing if it breaks a rule. A document is a list of lines: blank ones,
comments, assignments and headers. Values may hold further values to a
depth below 80, and a dotted name has fewer than 80 parts.
-/

namespace Switchboard.Toml

open Switchboard.Number (isDigit)

/-- How deep values may be inside each other, and how many parts a dotted
name may have: fewer than this. -/
def depthLimit : Nat := 80

/-- The text behind a comment, without its end of line, if there is one
here. -/
def skipComment : List Char → List Char
  | '#' :: cs => cs.dropWhile fun c => !isControl c
  | cs => cs

/-- The text behind blanks, comments and ends of lines. -/
def skipGap : Nat → List Char → List Char
  | 0, cs => cs
  | fuel + 1, cs =>
    let cs := skipSpaces cs
    match newline? (skipComment cs) with
    | some rest => skipGap fuel rest
    | none => cs

/-- The text behind the rest of a line, which holds at most a comment. -/
def endLine? (cs : List Char) : Option (List Char) :=
  let cs := skipComment (skipSpaces cs)
  if cs.isEmpty then some [] else newline? cs

/-! ## Names -/

/-- Whether a character may stand in a name without quotes. -/
def isBareChar (c : Char) : Bool :=
  ('a' ≤ c && c ≤ 'z') || ('A' ≤ c && c ≤ 'Z') || isDigit c || c == '_' || c == '-'

/-- Reads one part of a name. -/
def readPart (cs : List Char) : Option (String × List Char) :=
  match cs with
  | '"' :: cs => (readBasic (cs.length + 1) cs).map fun (s, rest) => (String.ofList s, rest)
  | '\'' :: cs => (readLiteral cs).map fun (s, rest) => (String.ofList s, rest)
  | cs =>
    let name := cs.takeWhile isBareChar
    if name.isEmpty then none else some (String.ofList name, cs.dropWhile isBareChar)

/-- Reads the parts of a name with dots between them, and the blanks
around them. -/
def readParts : Nat → List Char → Option (List String × List Char)
  | 0, _ => none
  | fuel + 1, cs => do
    let (part, cs) ← readPart (skipSpaces cs)
    match skipSpaces cs with
    | '.' :: cs =>
      let (parts, cs) ← readParts fuel cs
      some (part :: parts, cs)
    | cs => some ([part], cs)

/-- **Reads a dotted name.** -/
def readName (cs : List Char) : Option (List String × List Char) := readParts (depthLimit - 1) cs

/-! ## Values -/

mutual

/-- Reads a value that stands inside so many others, in at most `fuel`
steps. -/
def readValue (fuel depth : Nat) (cs : List Char) : Option (Setting × List Char) :=
  match fuel with
  | 0 => none
  | fuel + 1 =>
    match cs with
    | '[' :: cs => if depth + 1 < depthLimit then readItems fuel (depth + 1) cs else none
    | '\x7b' :: cs =>
      if depth + 1 < depthLimit then
        match skipSpaces cs with
        | '\x7d' :: rest => some (Setting.empty, rest)
        | cs => readEntries fuel (depth + 1) .empty cs
      else none
    | cs => readScalar cs

/-- Reads the items of a list behind its bracket. -/
def readItems (fuel depth : Nat) (cs : List Char) : Option (Setting × List Char) :=
  match fuel with
  | 0 => none
  | fuel + 1 =>
    match skipGap cs.length cs with
    | ']' :: rest => some (.list [], rest)
    | cs => do
      let (s, cs) ← readValue fuel depth cs
      match skipGap cs.length cs with
      | ',' :: cs =>
        match ← readItems fuel depth cs with
        | (.list items, rest) => some (.list (s :: items), rest)
        | _ => none
      | ']' :: rest => some (.list [s], rest)
      | _ => none

/-- Reads the entries of a table on one line, behind those already read. -/
def readEntries (fuel depth : Nat) (d : Draft) (cs : List Char) :
    Option (Setting × List Char) :=
  match fuel with
  | 0 => none
  | fuel + 1 => do
    let (name, cs) ← readName cs
    let cs ← readChar '=' cs
    let (s, cs) ← readValue fuel depth (skipSpaces cs)
    let d ← d.assign name s
    match skipSpaces cs with
    | ',' :: cs => readEntries fuel depth d cs
    | '\x7d' :: rest => some (d.setting, rest)
    | _ => none

end

/-! ## Lines -/

/-- A document as far as it is read: its tables, and the name of the table
that lines add to. -/
structure Progress where
  draft : Draft
  current : List String

namespace Progress

/-- Gives a value to a name in the current table. -/
def assign (p : Progress) (name : List String) (s : Setting) : Option Progress :=
  (p.draft.change .implied (Draft.assign name s) p.current).map fun d => { p with draft := d }

/-- Opens the table a header names. -/
def openTable (p : Progress) (isItem : Bool) (name : List String) : Option Progress :=
  (p.draft.openTable isItem name).map fun d => ⟨d, name⟩

end Progress

/-- Reads a line that is not blank, and gives the text behind it. -/
def readLine (p : Progress) (cs : List Char) : Option (Progress × List Char) :=
  match cs with
  | '[' :: '[' :: cs => do
    let (name, cs) ← readName cs
    let cs ← readChar ']' cs
    let cs ← readChar ']' cs
    let cs ← endLine? cs
    (p.openTable true name).map fun p => (p, cs)
  | '[' :: cs => do
    let (name, cs) ← readName cs
    let cs ← readChar ']' cs
    let cs ← endLine? cs
    (p.openTable false name).map fun p => (p, cs)
  | cs => do
    let (name, cs) ← readName cs
    let cs ← readChar '=' cs
    let (s, cs) ← readValue (2 * cs.length + 2) 0 (skipSpaces cs)
    let cs ← endLine? cs
    (p.assign name s).map fun p => (p, cs)

/-- Reads lines, in at most `fuel` steps. -/
def readDocument : Nat → Progress → List Char → Option Progress
  | 0, _, _ => none
  | fuel + 1, p, cs =>
    let cs := skipSpaces cs
    if cs.isEmpty then some p
    else
      match endLine? cs with
      | some rest => readDocument fuel p rest
      | none => (readLine p cs).bind fun (p, rest) => readDocument fuel p rest

/-- **The setting a TOML document stands for.** A byte order mark at its
beginning is passed over. -/
def read? (s : String) : Option Setting :=
  let cs := match s.toList with
    | '\ufeff' :: cs => cs
    | cs => cs
  (readDocument (cs.length + 1) ⟨.empty, []⟩ cs).map fun p => p.draft.setting

end Switchboard.Toml
