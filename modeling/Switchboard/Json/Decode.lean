import Switchboard.Json.Reader
import Switchboard.Json.Writer

/-!
# Taking typed data from a document

A decoder is a function from a `View` – a document and the depth of
nesting still allowed below it – to a value or a `DecodeError`. It looks
at the parts of the document in the order of the text, so of several
defects the first one is reported, whether the grammar is broken there or
a value has the wrong shape.

A record is read from an object, where unknown names are passed over and
a name given twice is an error, or from an array that lists the first
fields in their order. A choice among names is read from a string, or from
an object that has the name as its only member, with no value.
-/

namespace Switchboard.Json

/-- Why no value could be taken from a text. -/
inductive DecodeError where
  /-- The grammar of the text is broken. -/
  | grammar (f : Fault)
  /-- The text is well formed up to a value that has the wrong shape. -/
  | shape (message : String)
deriving DecidableEq, Repr

/-- A document and the depth of nesting still allowed below it. -/
structure View where
  doc : Document
  room : Nat

/-- The result of a decoder. -/
abbrev Decoded (α : Type) := Except DecodeError α

namespace DecodeError

/-- The options of a choice, as the text of a refusal lists them. -/
def optionList : List String → String
  | [] => "there are no variants"
  | [a] => "expected `" ++ a ++ "`"
  | [a, b] => "expected `" ++ a ++ "` or `" ++ b ++ "`"
  | options => "expected one of " ++
      String.intercalate ", " (options.map fun o => "`" ++ o ++ "`")

/-- A choice was given a name that is none of its options. -/
def unknownOption (name : String) (options : List String) : DecodeError :=
  shape ("unknown variant `" ++ name ++ "`, " ++ optionList options)

/-- A record was given a field twice. -/
def duplicateField (name : String) : DecodeError := shape ("duplicate field `" ++ name ++ "`")

/-- A record lacks a field. -/
def missingField (name : String) : DecodeError := shape ("missing field `" ++ name ++ "`")

/-- A value has a wrong kind; `found` describes it. -/
def wrongKind (found expected : String) : DecodeError :=
  shape ("invalid type: " ++ found ++ ", expected " ++ expected)

/-- A value has the right kind, but is out of range. -/
def outOfRange (found expected : String) : DecodeError :=
  shape ("invalid value: " ++ found ++ ", expected " ++ expected)

/-- A list has a wrong length. -/
def wrongLength (found : Nat) (expected : String) : DecodeError :=
  shape ("invalid length " ++ Number.natText found ++ ", expected " ++ expected)

end DecodeError

namespace Document

/-- How a value is called in a message. -/
def describe : Document → Except Fault String
  | null => .ok "null"
  | bool true => .ok "boolean `true`"
  | bool false => .ok "boolean `false`"
  | int n => .ok ("integer `" ++ Number.intText n ++ "`")
  | float x => .ok ("floating point `" ++ x.text ++ "`")
  | str s => .ok ("string " ++ Text.quoted s)
  | arr _ _ => .ok "sequence"
  | obj _ _ => .ok "map"
  | broken f _ => .error f

end Document

namespace View

/-- The value has a wrong kind – or it cannot be read at all. -/
def mismatch {α : Type} (v : View) (expected : String) : Decoded α :=
  match v.doc.describe with
  | .ok found => .error (.wrongKind found expected)
  | .error f => .error (.grammar f)

/-- Fails if there is a fault. -/
def check : Option Fault → Decoded Unit
  | none => .ok ()
  | some f => .error (.grammar f)

/-- Reads a truth value. -/
def bool (v : View) : Decoded Bool :=
  match v.doc with
  | .bool b => .ok b
  | _ => v.mismatch "a boolean"

/-- Reads a text, called `expected` in the message. -/
def textAs (expected : String) (v : View) : Decoded String :=
  match v.doc with
  | .str s => .ok s
  | _ => v.mismatch expected

/-- Reads a text. -/
def text (v : View) : Decoded String := v.textAs "a string"

/-- Reads an integer for which `fits` holds. -/
def intAs (expected : String) (fits : Int → Bool) (v : View) : Decoded Int :=
  match v.doc with
  | .int n =>
    if fits n then .ok n
    else .error (.outOfRange ("integer `" ++ Number.intText n ++ "`") expected)
  | _ => v.mismatch expected

/-- Reads the absence of a value. -/
def unit (v : View) : Decoded Unit :=
  match v.doc with
  | .null => .ok ()
  | _ => v.mismatch "unit"

/-- Reads a value or its absence. -/
def optional {α : Type} (f : View → Decoded α) (v : View) : Decoded (Option α) :=
  match v.doc with
  | .null => .ok none
  | _ => (f v).map some

/-- The room inside a container that is entered. -/
def enter (v : View) : Decoded Nat :=
  if v.room = 0 then .error (.grammar .malformed) else .ok (v.room - 1)

/-- Reads a list. -/
def list {α : Type} (f : View → Decoded α) (v : View) : Decoded (List α) :=
  match v.doc with
  | .arr items fault => do
    let room ← v.enter
    let vs ← items.mapM fun d => f ⟨d, room⟩
    check fault
    pure vs
  | _ => v.mismatch "a sequence"

/-- Reads a name. -/
def nameOf (name : Except Fault String) : Decoded String :=
  match name with
  | .ok n => .ok n
  | .error f => .error (.grammar f)

/-- Reads the members of an object in the order of the text. -/
def members {α : Type} (expected : String) (f : String → View → Decoded α) (v : View) :
    Decoded (List (String × α)) :=
  match v.doc with
  | .obj ms stray => do
    let room ← v.enter
    let out ← ms.mapM fun (name, d) => do
      let n ← nameOf name
      let w ← f n ⟨d, room⟩
      pure (n, w)
    check (stray.map (·.strayFault))
    pure out
  | _ => v.mismatch expected

/-- Fills a record from the first items of an array, one item a field. -/
def fillByPosition {α : Type} (set : String → View → α → Decoded α) (room : Nat) :
    List String → List Document → Option Fault → α → Decoded α
  | _, [], fault, a => do check fault; pure a
  | [], _ :: _, _, _ => .error (.grammar .malformed)
  | field :: fields, d :: rest, fault, a => do
    let a ← set field ⟨d, room⟩ a
    fillByPosition set room fields rest fault a

/-- Fills a record from the members of an object; `seen` lists the fields
already given. -/
def fillByName {α : Type} (set : String → View → α → Decoded α) (room : Nat)
    (fields : List String) :
    List String → List (Except Fault String × Document) → α → Decoded α
  | _, [], a => pure a
  | seen, (name, d) :: rest, a => do
    let n ← nameOf name
    if fields.contains n then
      if seen.contains n then .error (.duplicateField n)
      else
        let a ← set n ⟨d, room⟩ a
        fillByName set room fields (n :: seen) rest a
    else
      check d.passFault
      fillByName set room fields seen rest a

/-- **Reads a record** named `name`, whose fields all have a value in
`start`; `set` reads one field. -/
def record {α : Type} (name : String) (fields : List String) (start : α)
    (set : String → View → α → Decoded α) (v : View) : Decoded α :=
  match v.doc with
  | .arr items fault => do
    let room ← v.enter
    fillByPosition set room fields items fault start
  | .obj ms stray => do
    let room ← v.enter
    let a ← fillByName set room fields [] ms start
    check (stray.map (·.strayFault))
    pure a
  | _ => v.mismatch ("struct " ++ name)

/-- Reads the name of a choice. -/
def optionName (options : List String) (v : View) : Decoded String :=
  match v.doc with
  | .str s => if options.contains s then .ok s else .error (.unknownOption s options)
  | _ => v.mismatch "variant identifier"

/-- **Reads a choice** among names without values. -/
def choice (options : List String) (v : View) : Decoded String :=
  match v.doc with
  | .str _ => v.optionName options
  | .obj ms stray => do
    let room ← v.enter
    match ms, stray with
    | [], some d => do
      let _ ← optionName options ⟨d, room⟩
      .error (.grammar .malformed)
    | [], none => .error (.grammar .malformed)
    | (name, d) :: more, _ => do
      let n ← nameOf name
      let n ← optionName options ⟨.str n, room⟩
      unit ⟨d, room⟩
      match more, stray with
      | [], none => pure n
      | [], some (.broken f _) => .error (.grammar f)
      | _, _ => .error (.grammar .malformed)
  | .broken f _ => .error (.grammar f)
  | _ => .error (.grammar .malformed)

end View

/-- **Takes a value from a whole text.** What follows the value must be
blank. -/
def decode {α : Type} (f : View → Decoded α) (s : String) : Decoded α :=
  match Document.ofText s with
  | (d, trailing) => do
    let a ← f ⟨d, 127⟩
    View.check trailing
    pure a

/-- Takes a value from a plain JSON value. -/
def decodeValue {α : Type} (f : View → Decoded α) (v : Json) : Decoded α :=
  f ⟨.ofJson v, 127⟩

end Switchboard.Json
