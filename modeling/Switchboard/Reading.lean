import Switchboard.Json.Decode

/-!
# Ways of reading typed data

A schema – which fields there are, what kind of value each takes – says
nothing about the notation of the data. A `Reading` is what a notation
offers to a schema: how it yields a truth value, a path, a choice, a list,
a table and a record. A schema is then written once, for all readings.
-/

namespace Switchboard

/-- How typed data is taken from values of type `V`, with errors of type
`E`. -/
structure Reading (V E : Type) where
  bool : V → Except E Bool
  path : V → Except E String
  /-- One of several names; the first argument says what they are. -/
  choice : String → List String → V → Except E String
  optional : {α : Type} → (V → Except E α) → V → Except E (Option α)
  list : {α : Type} → (V → Except E α) → V → Except E (List α)
  /-- Named values, in the order in which they are found. -/
  table : {α : Type} → (V → Except E α) → V → Except E (List (String × α))
  /-- A record with a name and fields. Every field has a value from the
  start, and the last argument reads one of them. -/
  record : {α : Type} → String → List String → α → (String → V → α → Except E α) → V → Except E α

/-- JSON as a notation. -/
def Json.reading : Reading Json.View Json.DecodeError where
  bool := View.bool
  path := View.textAs "path string"
  choice := fun _ options v => v.choice options
  optional := fun read v => v.optional read
  list := fun read v => v.list read
  table := fun read v => v.members "a map" fun _ v => read v
  record := fun name fields start set v => v.record name fields start set

end Switchboard
