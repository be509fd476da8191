import Switchboard.Json.Decode

/-!
# Priorities

A priority is a signed word of 32 bits. Lower priorities come first, and
entries of one priority keep the order in which they were added.
-/

namespace Switchboard

/-- A priority; lower ones come first. -/
structure Priority where
  value : Int
  inRange : Number.fitsInt32 value = true
deriving DecidableEq

namespace Priority

/-- Before everything else. -/
def first : Priority := ⟨-0x80000000, by decide⟩

/-- Before the normal tier. -/
def high : Priority := ⟨-100, by decide⟩

/-- The tier of what has no priority of its own. -/
def normal : Priority := ⟨0, by decide⟩

/-- After the normal tier. -/
def low : Priority := ⟨100, by decide⟩

/-- After everything else. -/
def last : Priority := ⟨0x7fffffff, by decide⟩

instance : Inhabited Priority := ⟨normal⟩

/-- The priority with a given value. -/
def ofInt? (n : Int) : Option Priority :=
  if h : Number.fitsInt32 n = true then some ⟨n, h⟩ else none

/-- The priority with a name. -/
def ofName? (name : String) : Option Priority :=
  ([("FIRST", first), ("HIGH", high), ("NORMAL", normal), ("LOW", low), ("LAST", last),
    ("default", default)].find? (·.1 == name)).map (·.2)

/-- Whether a priority comes before another or with it. -/
def le (a b : Priority) : Bool := a.value ≤ b.value

/-- The text of a priority. -/
def text (p : Priority) : String := Number.intText p.value

/-- The text of a priority for diagnosis. -/
def describe (p : Priority) : String := "Priority(" ++ p.text ++ ")"

/-- Reads a priority. -/
def read (v : Json.View) : Json.Decoded Priority :=
  match v.intAs "i32" Number.fitsInt32 with
  | .error e => .error e
  | .ok n => .ok ((ofInt? n).getD normal)

/-- A priority is written as its value. -/
def toJson (p : Priority) : Json := .int p.value

end Priority

end Switchboard
