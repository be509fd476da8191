import Switchboard.Json.Decode
import Switchboard.Text.Blank

/-!
# Bot records

A record describes the account of one bot. Nothing is asked of it but that
it names its component, the part of the program that knows what to do with
the account; all else is for the component to read.
-/

namespace Switchboard

/-- The description of a bot's account. -/
structure BotRecord where
  /-- The name of the record, as a rule that of its file. -/
  name : String
  component : String
  /-- Everything the record says, in the order of the names. -/
  data : List (String × Json)

/-- Why there is no record, or nothing to be read from it. -/
inductive RecordError where
  /-- The content breaks a rule; the reason may be left to the reader. -/
  | malformed (name : String) (reason : Option String)
  | missingComponent (name : String)
  /-- A file or a directory cannot be read. -/
  | unreadable (path : String)
deriving DecidableEq, Repr

namespace RecordError

/-- The message of an error, as far as it does not hang on where the
record is kept. -/
def message? : RecordError → Option String
  | malformed name reason => reason.map fun r => "Malformed bot record '" ++ name ++ "': " ++ r
  | missingComponent name => some ("Bot record '" ++ name ++ "' has no 'component' field")
  | unreadable _ => none

end RecordError

namespace BotRecord

/-- The component that data names: a text that is not blank. -/
def componentOf? (data : List (String × Json)) : Option String :=
  match Json.member? "component" data with
  | some (.str s) => if Text.isBlank s then none else some s
  | _ => none

/-- **The record with this data**, if it names its component. -/
def ofData (name : String) (data : List (String × Json)) : Except RecordError BotRecord :=
  match componentOf? data with
  | some component => .ok ⟨name, component, data⟩
  | none => .error (.missingComponent name)

/-- The record in one line. -/
def display (r : BotRecord) : String := r.name ++ "(component=" ++ r.component ++ ")"

/-- Reads typed data from a record. What is wrong with a value is said by
`reason`. -/
def read {α : Type} (decode : Json → Json.Decoded α) (r : BotRecord) : Except RecordError α :=
  match decode (.obj r.data) with
  | .ok a => .ok a
  | .error (.shape reason) => .error (.malformed r.name (some reason))
  | .error (.grammar _) => .error (.malformed r.name none)

/-- What data makes a record is what names a component. -/
theorem ofData_eq_ok_iff {name : String} {data : List (String × Json)} {r : BotRecord} :
    ofData name data = .ok r ↔
      ∃ c, Json.member? "component" data = some (.str c) ∧ Text.isBlank c = false ∧
        r = ⟨name, c, data⟩ := by
  unfold ofData componentOf?
  split
  · next component h =>
    split at h
    · next s hs =>
      split at h
      · simp at h
      · next hb =>
        obtain rfl : s = component := by simpa using h
        constructor
        · intro hr; exact ⟨s, hs, by simpa using hb, by simpa [eq_comm] using hr⟩
        · rintro ⟨c, hc, _, rfl⟩
          obtain rfl : s = c := by simpa [hs] using hc
          rfl
    · simp at h
  · next h =>
    constructor
    · intro hr; simp at hr
    · rintro ⟨c, hc, hb, rfl⟩
      simp [hc, hb] at h

end BotRecord

/-- An account that is a number and a secret. -/
structure Account where
  code : Nat
  token : String
deriving DecidableEq, Repr

namespace Account

/-- Reads an account. Both fields must be given. -/
def read (v : Json.View) : Json.Decoded Account := do
  let start : Option Nat × Option String := (none, none)
  let (code, token) ← v.record "Account" ["code", "token"] start
    fun name v (code, token) =>
      if name = "code" then (v.intAs "u64" Number.fitsUInt64).map fun n => (some n.toNat, token)
      else v.text.map fun s => (code, some s)
  match code, token with
  | none, _ => .error (.missingField "code")
  | _, none => .error (.missingField "token")
  | some code, some token => .ok ⟨code, token⟩

/-- The account a record describes. -/
def ofRecord (r : BotRecord) : Except RecordError Account := r.read (Json.decodeValue read)

/-- The JSON form of an account. -/
def toJson (a : Account) : Json := .obj [("code", .int a.code), ("token", .str a.token)]

end Account

end Switchboard
