import Switchboard.Number.Binary64
import Switchboard.Number.Decimal

/-!
# JSON values

A JSON number is an integer that fits 64 bits, signed or unsigned, or a
number with a binary point; `Json.ofInt` is the only maker of integers
that the reader uses, so an integer outside both ranges never arises from
a text.

An object is the list of its members as written. Objects that act as
maps are built with `Json.insert`, which keeps the names in increasing
order and each name once.
-/

namespace Switchboard

/-- A JSON value. -/
inductive Json where
  | null
  | bool (b : Bool)
  | int (n : Int)
  | float (x : Number.Binary64)
  | str (s : String)
  | arr (items : List Json)
  | obj (members : List (String × Json))
deriving Inhabited

namespace Json

/-- Puts a member into a list in increasing order of names, in place of
a member of the same name. -/
def insertMember {α : Type} (name : String) (v : α) : List (String × α) → List (String × α)
  | [] => [(name, v)]
  | (n, w) :: rest =>
    if name < n then (name, v) :: (n, w) :: rest
    else if name = n then (name, v) :: rest
    else (n, w) :: insertMember name v rest

/-- The members in increasing order of names; of two members of one name
the later one stays. -/
def ordered {α : Type} (members : List (String × α)) : List (String × α) :=
  members.foldl (fun acc (n, v) => insertMember n v acc) []

/-- The value of the first member with a name. -/
def member? {α : Type} (name : String) (members : List (String × α)) : Option α :=
  (members.find? fun m => m.1 == name).map (·.2)

/-- The value a name has in an object. -/
def get? (name : String) : Json → Option Json
  | obj members => member? name members
  | _ => none

/-- The text of a string value. -/
def str? : Json → Option String
  | str s => some s
  | _ => none

/-- The value of an integer. -/
def int? : Json → Option Int
  | int n => some n
  | _ => none

/-- The items of an array. -/
def arr? : Json → Option (List Json)
  | arr items => some items
  | _ => none

/-- A text or nothing. -/
def ofText? : Option String → Json
  | some s => str s
  | none => null

mutual

/-- Changes all texts that are values. -/
def mapTexts (f : String → String) : Json → Json
  | str s => str (f s)
  | arr items => arr (mapItemTexts f items)
  | obj members => obj (mapMemberTexts f members)
  | v => v

/-- Changes the texts among several values. -/
def mapItemTexts (f : String → String) : List Json → List Json
  | [] => []
  | v :: rest => mapTexts f v :: mapItemTexts f rest

/-- Changes the texts among the values of members. -/
def mapMemberTexts (f : String → String) : List (String × Json) → List (String × Json)
  | [] => []
  | (name, v) :: rest => (name, mapTexts f v) :: mapMemberTexts f rest

end

/-- Looking up the name just inserted finds its value. -/
theorem member?_insertMember_self {α : Type} (name : String) (v : α)
    (members : List (String × α)) : member? name (insertMember name v members) = some v := by
  induction members with
  | nil => simp [member?, insertMember]
  | cons m rest ih =>
    obtain ⟨n, w⟩ := m
    simp only [insertMember]
    split
    · simp [member?]
    · split
      · simp [member?]
      · next hn =>
        have hne : (n == name) = false := beq_false_of_ne fun h => hn h.symm
        simpa [member?, List.find?_cons, hne] using ih

/-- Inserting a name changes what no other name finds. -/
theorem member?_insertMember_of_ne {α : Type} {name other : String} (h : other ≠ name) (v : α)
    (members : List (String × α)) :
    member? other (insertMember name v members) = member? other members := by
  induction members with
  | nil => simp [member?, insertMember, Ne.symm h]
  | cons m rest ih =>
    obtain ⟨n, w⟩ := m
    have hname : (name == other) = false := beq_false_of_ne (Ne.symm h)
    simp only [insertMember]
    split
    · simp [member?, List.find?_cons, hname]
    · split
      · next hn => subst hn; simp [member?, hname]
      · simp only [member?, List.find?_cons] at ih ⊢
        cases hc : (n == other) <;> simp [ih]

end Json

end Switchboard
