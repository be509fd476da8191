import Switchboard.Id

/-!
# Messages

A message is a list of segments: pieces of text, mentions, and references
to faces, emoji and images. Messages are composed and concatenated like
lists, `plainText` is what their text segments say, and `display` is how
the whole message looks to a reader.

## The JSON form

A message is the array of its segments. A segment is an object whose
member `type` names its kind, next to the member of that kind: `text` of a
text, `target` of a mention, `id` of a face, an emoji or an image.

Reading takes any order of the members and ignores members with other
names. The kind decides how the others are read, and may come last, so
the members are read as they stand first. A segment may also be an array
of its kind and its field.
-/

namespace Switchboard

/-- A piece of a message. -/
inductive Segment where
  | text (text : String)
  /-- A mention of one user. -/
  | mention (target : Id)
  /-- A mention of everyone. -/
  | mentionAll
  | face (id : Id)
  | emoji (id : Id)
  | image (id : Id)
deriving DecidableEq

/-- A message: a list of segments. -/
structure Message where
  segments : List Segment
deriving DecidableEq

namespace Segment

/-- The name of a kind of segments. -/
def kind : Segment → String
  | text _ => "text"
  | mention _ => "at"
  | mentionAll => "at_all"
  | face _ => "face"
  | emoji _ => "emoji"
  | image _ => "image"

/-- The names of all kinds. -/
def kinds : List String := ["text", "at", "at_all", "face", "emoji", "image"]

/-- What a segment says, if it is a text. -/
def text? : Segment → Option String
  | text s => some s
  | _ => none

/-- How a segment looks to a reader. -/
def display : Segment → String
  | text s => s
  | mention target => "@" ++ target.text
  | mentionAll => "@all"
  | face id => "[Face: " ++ id.text ++ "]"
  | emoji id => "[Emoji: " ++ id.text ++ "]"
  | image id => "[Image: " ++ id.text ++ "]"

/-- The member a segment has next to its kind. -/
def field : Segment → List (String × Json)
  | text s => [("text", .str s)]
  | mention target => [("target", target.toJson)]
  | mentionAll => []
  | face id => [("id", id.toJson)]
  | emoji id => [("id", id.toJson)]
  | image id => [("id", id.toJson)]

/-- The JSON form of a segment. -/
def toJson (s : Segment) : Json := .obj (("type", .str s.kind) :: s.field)

/-- How the field of a kind is read: its name, the name of the kind in
messages, and the reader. A mention of everyone has no field. -/
def fieldReader (kind : String) : Option (String × String × (Json.View → Json.Decoded Segment)) :=
  if kind = "text" then some ("text", "Text", fun v => v.text.map text)
  else if kind = "at" then some ("target", "At", fun v => (Id.read v).map mention)
  else if kind = "face" then some ("id", "Face", fun v => (Id.read v).map face)
  else if kind = "emoji" then some ("id", "Emoji", fun v => (Id.read v).map emoji)
  else if kind = "image" then some ("id", "Image", fun v => (Id.read v).map image)
  else none

/-- The members that are neither unreadable nor the kind, in order, and
the kind if it is given. -/
def splitMembers (room : Nat) : Option String → List (Except Json.Fault String × Json.Document) →
    Json.Decoded (Option String × List (String × Json.Document))
  | kind, [] => .ok (kind, [])
  | kind, (name, d) :: rest => do
    let n ← Json.View.nameOf name
    if n = "type" then
      if kind.isSome then .error (.duplicateField "type")
      else
        let k ← Json.View.optionName kinds ⟨d, room⟩
        splitMembers room (some k) rest
    else
      match d.whole room with
      | .error f => .error (.grammar f)
      | .ok _ =>
        let (kind, others) ← splitMembers room kind rest
        pure (kind, (n, d) :: others)

/-- Reads the field of a segment among its members. -/
def readField (name : String) (read : Json.View → Json.Decoded Segment) (room : Nat) :
    Option Segment → List (String × Json.Document) → Json.Decoded Segment
  | some s, [] => .ok s
  | none, [] => .error (.missingField name)
  | found, (n, d) :: rest =>
    if n = name then
      if found.isSome then .error (.duplicateField name)
      else match read ⟨d, room⟩ with
        | .error e => .error e
        | .ok s => readField name read room (some s) rest
    else readField name read room found rest

/-- Reads the field of a segment that is given as an array. -/
def readPositional (kind : String) (room : Nat) (items : List Json.Document) :
    Json.Decoded Segment :=
  match fieldReader kind, items with
  | none, [] => .ok mentionAll
  | none, items => .error (.wrongLength items.length "0 elements in sequence")
  | some (_, title, _), [] =>
    .error (.wrongLength 0 ("struct variant Segment::" ++ title ++ " with 1 element"))
  | some (_, _, read), d :: rest =>
    match read ⟨d, room⟩ with
    | .error e => .error e
    | .ok s =>
      if rest.isEmpty then .ok s
      else .error (.wrongLength items.length "1 element in sequence")

/-- **Reads a segment.** -/
def read (v : Json.View) : Json.Decoded Segment :=
  match v.doc with
  | .obj members stray => do
    let room ← v.enter
    let (kind, others) ← splitMembers room none members
    Json.View.check (stray.map (·.strayFault))
    match kind with
    | none => .error (.missingField "type")
    | some kind =>
      match fieldReader kind with
      | none => pure mentionAll
      | some (name, _, read) => readField name read room none others
  | .arr items fault => do
    let room ← v.enter
    match items with
    | [] => do
      Json.View.check fault
      .error (.missingField "type")
    | d :: rest => do
      let kind ← Json.View.optionName kinds ⟨d, room⟩
      match Json.Document.wholeItems room rest with
      | .error f => .error (.grammar f)
      | .ok _ => do
        Json.View.check fault
        readPositional kind room rest
  | _ => v.mismatch "internally tagged enum Segment"

end Segment

namespace Message

/-- The message without segments. -/
def empty : Message := ⟨[]⟩

instance : Inhabited Message := ⟨empty⟩

/-- A message of one text. -/
def ofText (s : String) : Message := ⟨[.text s]⟩

/-- The message with one more segment at its end. -/
def push (m : Message) (s : Segment) : Message := ⟨m.segments ++ [s]⟩

/-- One message after another. -/
def append (a b : Message) : Message := ⟨a.segments ++ b.segments⟩

instance : Append Message := ⟨append⟩

/-- What the text segments of a message say. -/
def plainText (m : Message) : String := String.join (m.segments.filterMap Segment.text?)

/-- How a message looks to a reader. -/
def display (m : Message) : String := String.join (m.segments.map Segment.display)

/-- The JSON form of a message. -/
def toJson (m : Message) : Json := .arr (m.segments.map Segment.toJson)

/-- The JSON text of a message. -/
def toText (m : Message) : String := m.toJson.text

/-- Reads a message. -/
def read (v : Json.View) : Json.Decoded Message := (v.list Segment.read).map Message.mk

/-- **Reads a message from a JSON text.** It is read whole or not at all. -/
def ofJsonText (s : String) : Json.Decoded Message := Json.decode read s

/-- The message of an error met by `ofJsonText`, given the error's own. -/
def malformedMessage (reason : String) : String := "malformed message: " ++ reason

@[simp] theorem segments_append (a b : Message) :
    (a ++ b).segments = a.segments ++ b.segments := rfl

@[simp] theorem segments_push (m : Message) (s : Segment) :
    (m.push s).segments = m.segments ++ [s] := rfl

end Message

end Switchboard
