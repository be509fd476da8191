import Switchboard.Json.Value

/-!
# Attributes

A map that holds at most one value of each kind. Kinds are names, values
are JSON. Two such maps take part in a dispatch: one that lives as long as
the dispatch, and one that all dispatches of a hub share.
-/

namespace Switchboard

/-- At most one value of each kind. -/
structure Attributes where
  entries : List (String × Json)

namespace Attributes

/-- The map without values. -/
def empty : Attributes := ⟨[]⟩

/-- The value of a kind. -/
def get? (a : Attributes) (kind : String) : Option Json := Json.member? kind a.entries

/-- Whether a kind has a value. -/
def contains (a : Attributes) (kind : String) : Bool := (a.get? kind).isSome

/-- Gives a kind a value, in place of any other. -/
def set (a : Attributes) (kind : String) (v : Json) : Attributes :=
  ⟨Json.insertMember kind v a.entries⟩

/-- Removes the value of a kind. -/
def erase (a : Attributes) (kind : String) : Attributes :=
  ⟨a.entries.filter fun e => e.1 != kind⟩

/-- The value of a kind, which is first set to `v` if there is none. -/
def ensure (a : Attributes) (kind : String) (v : Json) : Json × Attributes :=
  match a.get? kind with
  | some w => (w, a)
  | none => (v, a.set kind v)

/-- The number of values. -/
def size (a : Attributes) : Nat := a.entries.length

/-- The text of a map for diagnosis. -/
def describe (a : Attributes) : String :=
  "Attributes \x7b len: " ++ Number.natText a.size ++ " \x7d"

@[simp] theorem get?_empty (kind : String) : empty.get? kind = none := rfl

@[simp] theorem get?_set_self (a : Attributes) (kind : String) (v : Json) :
    (a.set kind v).get? kind = some v := Json.member?_insertMember_self kind v a.entries

@[simp] theorem get?_erase_self (a : Attributes) (kind : String) :
    (a.erase kind).get? kind = none := by
  simp [get?, erase, Json.member?]

end Attributes

end Switchboard
