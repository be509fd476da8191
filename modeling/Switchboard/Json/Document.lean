import Switchboard.Json.Value

/-!
# JSON documents, as far as they can be read

A program that takes typed data from a JSON text reads it from left to
right and stops at the first thing that is wrong, be it the shape of a
value or the grammar of the text. So a text is read into a `Document`: a
tree of what stands in it, up to the place where the grammar breaks, which
is a node of its own.

Some texts can be passed over though they cannot be read – a string with
half of a surrogate pair, a number beyond every magnitude. A `broken` node
says both: what is wrong for a program that wants the value, and what, if
anything, for one that only wants to get past it. Where a node cannot be
passed, nothing follows it.

`Document.whole` reads a document as a plain value.
-/

namespace Switchboard.Json

/-- What is wrong with the grammar of a text. -/
inductive Fault where
  /-- Something stands there that must not. -/
  | malformed
  /-- The text ends too early. -/
  | cutShort
deriving DecidableEq, Repr

/-- A JSON text as far as it can be read. -/
inductive Document where
  | null
  | bool (b : Bool)
  | int (n : Int)
  | float (x : Number.Binary64)
  | str (s : String)
  /-- The items read, and the fault if the array is never closed. -/
  | arr (items : List Document) (fault : Option Fault)
  /-- The members read, and what stands in the place of a further name if
  the object is never closed. A name can be impossible to read, too. -/
  | obj (members : List (Except Fault String × Document)) (stray : Option Document)
  /-- A value that cannot be read, or cannot even be passed over. -/
  | broken (reading : Fault) (passing : Option Fault)

namespace Document

/-- The text breaks here for every purpose. -/
def stop (f : Fault) : Document := broken f (some f)

/-- The fault of what stands in the place of a name. -/
def strayFault : Document → Fault
  | broken f _ => f
  | _ => .malformed

mutual

/-- The fault met by passing over a document without reading it. -/
def passFault : Document → Option Fault
  | arr items fault => (passFaults items).or fault
  | obj members stray =>
    (passFaultMembers members).or (stray.map strayFault)
  | broken _ passing => passing
  | _ => none

/-- The first fault met by passing over several documents. -/
def passFaults : List Document → Option Fault
  | [] => none
  | d :: rest => (passFault d).or (passFaults rest)

/-- The first fault met by passing over members. -/
def passFaultMembers : List (Except Fault String × Document) → Option Fault
  | [] => none
  | (_, d) :: rest => (passFault d).or (passFaultMembers rest)

end

mutual

/-- **A document as a plain value.** Nesting is allowed to a depth of
`room`. Members are put in order of their names, the last of each name
staying. -/
def whole (room : Nat) : Document → Except Fault Json
  | null => .ok .null
  | bool b => .ok (.bool b)
  | int n => .ok (.int n)
  | float x => .ok (.float x)
  | str s => .ok (.str s)
  | arr items fault =>
    if room = 0 then .error .malformed
    else match wholeItems (room - 1) items, fault with
      | .error f, _ => .error f
      | .ok _, some f => .error f
      | .ok vs, none => .ok (.arr vs)
  | obj members stray =>
    if room = 0 then .error .malformed
    else match wholeMembers (room - 1) members, stray with
      | .error f, _ => .error f
      | .ok _, some d => .error d.strayFault
      | .ok ms, none => .ok (.obj (ordered ms))
  | broken f _ => .error f

/-- Several documents as plain values. -/
def wholeItems (room : Nat) : List Document → Except Fault (List Json)
  | [] => .ok []
  | d :: rest =>
    match whole room d with
    | .error f => .error f
    | .ok v => match wholeItems room rest with
      | .error f => .error f
      | .ok vs => .ok (v :: vs)

/-- Members as plain values, in the order of the text. -/
def wholeMembers (room : Nat) :
    List (Except Fault String × Document) → Except Fault (List (String × Json))
  | [] => .ok []
  | (name, d) :: rest =>
    match name with
    | .error f => .error f
    | .ok n => match whole room d with
      | .error f => .error f
      | .ok v => match wholeMembers room rest with
        | .error f => .error f
        | .ok ms => .ok ((n, v) :: ms)

end

mutual

/-- The document that holds a plain value. -/
def ofJson : Json → Document
  | .null => null
  | .bool b => bool b
  | .int n => int n
  | .float x => float x
  | .str s => str s
  | .arr items => arr (ofItems items) none
  | .obj members => obj (ofMembers members) none

/-- The documents that hold several plain values. -/
def ofItems : List Json → List Document
  | [] => []
  | v :: rest => ofJson v :: ofItems rest

/-- The members that hold several plain values. -/
def ofMembers : List (String × Json) → List (Except Fault String × Document)
  | [] => []
  | (n, v) :: rest => (.ok n, ofJson v) :: ofMembers rest

end

end Document

end Switchboard.Json
