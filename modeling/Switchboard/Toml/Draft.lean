import Switchboard.Setting.Basic

/-!
# TOML documents under construction

The lines of a TOML document add to tables that earlier lines have begun,
and the rules say which tables are still open to them. So a `Draft`
remembers how each table came about: by a header or a brace (`defined`),
on the way to a table named in a header (`implied`), or by a dotted name
(`dotted`).

* A header may define a table that is only implied, and no other one.
* A dotted name may go through tables that are not defined, and adds to a
  table that is dotted itself.
* A plain name adds to the table of the last header.

Once the document ends, the difference is forgotten (`Draft.setting`).
-/

namespace Switchboard.Toml

/-- How a table came about. -/
inductive Standing where
  | defined
  | implied
  | dotted
deriving DecidableEq, Repr

/-- A part of a document under construction. -/
inductive Draft where
  | value (s : Setting)
  | table (standing : Standing) (entries : List (String × Draft))
  /-- A list of tables, each from a header of its own; the last one first. -/
  | tables (latest : Draft) (earlier : List Draft)
deriving Inhabited

namespace Draft

/-- A defined table without entries. -/
def empty : Draft := table .defined []

/-- **Changes the part at the end of a chain of names.** Tables on the way
that do not exist come about as `made` says, and of several tables of one
name the last one is meant. -/
def change (made : Standing) (f : Draft → Option Draft) : List String → Draft → Option Draft
  | [], d => f d
  | _ :: _, value _ => none
  | name :: names, tables latest earlier =>
    (change made f (name :: names) latest).map fun d => tables d earlier
  | name :: names, table standing entries =>
    let below := (Json.member? name entries).getD (table made [])
    let isOpen : Bool := match below with
      | table .defined _ => made != .dotted
      | _ => true
    if isOpen then
      (change made f names below).map fun d => table standing (Json.insertMember name d entries)
    else none
termination_by names d => (names.length, sizeOf d)

/-- Adds an entry to a table; a name may be given once. -/
def addEntry (name : String) (s : Setting) (isDotted : Bool) : Draft → Option Draft
  | table standing entries =>
    if (standing == .dotted) != isDotted then none
    else
      match Json.member? name entries with
      | some _ => none
      | none => some (table standing (Json.insertMember name (value s) entries))
  | tables (table _ entries) earlier =>
    if isDotted then none
    else
      match Json.member? name entries with
      | some _ => none
      | none => some (tables (table .defined (Json.insertMember name (value s) entries)) earlier)
  | _ => none

/-- **Gives a value to a dotted name.** -/
def assign (path : List String) (s : Setting) (d : Draft) : Option Draft :=
  match path.reverse with
  | [] => none
  | name :: way => d.change .dotted (addEntry name s (!way.isEmpty)) way.reverse

/-- Defines a table inside another one. -/
def defineTable (name : String) : Draft → Option Draft
  | table standing entries =>
    let defined : Option Draft := match Json.member? name entries with
      | none => some empty
      | some (table .implied es) => some (table .defined es)
      | some _ => none
    defined.map fun d => table standing (Json.insertMember name d entries)
  | tables latest earlier => (defineTable name latest).map fun d => tables d earlier
  | value _ => none

/-- Adds a table to a list of tables inside another one. -/
def defineItem (name : String) : Draft → Option Draft
  | table standing entries =>
    let defined : Option Draft := match Json.member? name entries with
      | none => some (tables empty [])
      | some (tables latest earlier) => some (tables empty (latest :: earlier))
      | some _ => none
    defined.map fun d => table standing (Json.insertMember name d entries)
  | tables latest earlier => (defineItem name latest).map fun d => tables d earlier
  | value _ => none

/-- **Opens the table a header names**, or a further one of a list. -/
def openTable (isItem : Bool) (path : List String) (d : Draft) : Option Draft :=
  match path.reverse with
  | [] => none
  | name :: way =>
    let define := if isItem then defineItem name else defineTable name
    d.change .implied define way.reverse

mutual

/-- **The setting a finished draft stands for.** -/
def setting : Draft → Setting
  | value s => s
  | table _ entries => .table (entrySettings entries)
  | tables latest earlier => .list ((setting latest :: itemSettings earlier).reverse)

/-- The settings several drafts stand for. -/
def itemSettings : List Draft → List Setting
  | [] => []
  | d :: rest => setting d :: itemSettings rest

/-- The settings that named drafts stand for. -/
def entrySettings : List (String × Draft) → List (String × Setting)
  | [] => []
  | (name, d) :: rest => (name, setting d) :: entrySettings rest

end

end Draft

end Switchboard.Toml
