import Switchboard.Reading
import Switchboard.Setting.Basic

/-!
# Reading settings

Settings as a notation for typed data. An error says where in the setting
it arose: the names, and the positions in lists, that lead there.

A record is read from a table, where unknown names are passed over, or
from a list that gives the first fields in their order.
-/

namespace Switchboard

/-- What is wrong with a setting. -/
inductive SettingFault where
  /-- The setting is of another kind. -/
  | wrongKind (found expected : String)
  /-- A choice was given a name that is none of its options. -/
  | unknownOption (found : String) (options : List String)
  /-- A source could not be read at all. -/
  | unreadable
deriving DecidableEq, Repr

/-- What is wrong with a setting, and where. -/
structure SettingError where
  place : List String
  fault : SettingFault
deriving DecidableEq, Repr

namespace SettingFault

/-- The name of a fault. -/
def kind : SettingFault → String
  | wrongKind _ _ => "InvalidType"
  | unknownOption _ _ => "UnknownVariant"
  | unreadable => "Message"

/-- Several options in a message. -/
def optionList : List String → String
  | [] => "there are no variants"
  | [a] => "`" ++ a ++ "`"
  | [a, b] => "`" ++ a ++ "` or `" ++ b ++ "`"
  | options => "one of " ++ String.intercalate ", " (options.map fun o => "`" ++ o ++ "`")

/-- The message of a fault, if it has one that does not hang on the source. -/
def message? : SettingFault → Option String
  | wrongKind found expected => some ("invalid type: found " ++ found ++ ", expected " ++ expected)
  | unknownOption found options =>
    some ("unknown variant: found `" ++ found ++ "`, expected `" ++ optionList options ++ "`")
  | unreadable => none

end SettingFault

namespace SettingError

/-- An error seen from one step further out. -/
def inside (name : String) (e : SettingError) : SettingError :=
  { e with place := name :: e.place }

/-- The place of an error as a text. -/
def placeText (e : SettingError) : String := String.intercalate "." e.place

end SettingError

namespace Setting

/-- The result of reading a setting. -/
abbrev Read (α : Type) := Except SettingError α

/-- The setting is of another kind. -/
def mismatch {α : Type} (s : Setting) (expected : String) : Read α :=
  .error ⟨[], .wrongKind s.describe expected⟩

/-- Reads what stands under a name. -/
def readAt {α : Type} (name : String) (r : Read α) : Read α := r.mapError (·.inside name)

/-- Reads the items of a list, the first of them at a position. -/
def readItems {α : Type} (read : Setting → Read α) : Nat → List Setting → Read (List α)
  | _, [] => .ok []
  | i, s :: rest => do
    let a ← readAt (Number.natText i) (read s)
    let as ← readItems read (i + 1) rest
    return a :: as

/-- Reads the entries of a table. -/
def readEntries {α : Type} (read : Setting → Read α) :
    List (String × Setting) → Read (List (String × α))
  | [] => .ok []
  | (name, s) :: rest => do
    let a ← readAt name (read s)
    let as ← readEntries read rest
    return (name, a) :: as

/-- Fills a record from the entries of a table. -/
def fillByName {α : Type} (set : String → Setting → α → Read α) (fields : List String) :
    List (String × Setting) → α → Read α
  | [], a => .ok a
  | (name, s) :: rest, a =>
    if fields.contains name then do
      let a ← readAt name (set name s a)
      fillByName set fields rest a
    else fillByName set fields rest a

/-- Fills a record from the items of a list, the first of them at a
position. -/
def fillByPosition {α : Type} (set : String → Setting → α → Read α) :
    Nat → List String → List Setting → α → Read α
  | i, field :: fields, s :: rest, a => do
    let a ← readAt (Number.natText i) (set field s a)
    fillByPosition set (i + 1) fields rest a
  | _, _, _, a => .ok a

/-- Reads the name of a choice. A table stands for its first name, which
must not have a value. -/
def readChoice (title : String) (options : List String) (s : Setting) : Read String :=
  let known (name : String) : Read String :=
    if options.contains name then .ok name else .error ⟨[], .unknownOption name options⟩
  match s with
  | text name => known name
  | table [] => s.mismatch "enum"
  | table ((name, below) :: _) => readAt name (do
      let name ← known name
      match below with
      | absent => return name
      | below => below.mismatch "unit")
  | s => s.mismatch ("enum " ++ title)

/-- **Settings as a notation.** -/
def reading : Reading Setting SettingError where
  bool := fun
    | bool b => .ok b
    | s => s.mismatch "a boolean"
  path := fun s =>
    match s.text? with
    | some p => .ok p
    | none => s.mismatch "path string"
  choice := readChoice
  optional := fun read s =>
    match s with
    | absent => .ok none
    | s => (read s).map some
  list := fun read s =>
    match s with
    | list items => readItems read 0 items
    | s => s.mismatch "a sequence"
  table := fun read s =>
    match s with
    | table entries => readEntries read entries
    | s => s.mismatch "a map"
  record := fun title fields start set s =>
    match s with
    | table entries => fillByName set fields entries start
    | list items => fillByPosition set 0 fields items start
    | s => s.mismatch ("struct " ++ title)

end Setting

end Switchboard
