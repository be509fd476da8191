import Switchboard.Text.Lowercase

/-!
# Profiles

A profile names the circumstances a station works in. Two of them are well
known and have short names, too; names do not depend on case.
-/

namespace Switchboard

/-- The circumstances a station works in. -/
inductive Profile where
  | development
  | production
  | custom (name : String)
deriving DecidableEq, Repr

namespace Profile

instance : Inhabited Profile := ⟨development⟩

/-- The name of a profile. -/
def name : Profile → String
  | development => "development"
  | production => "production"
  | custom name => name

/-- The kind of a profile. -/
def kind : Profile → String
  | development => "Development"
  | production => "Production"
  | custom _ => "Custom"

/-- **The profile with a name.** -/
def ofName (s : String) : Profile :=
  let s := Text.lower s
  if s = "production" ∨ s = "prod" then production
  else if s = "development" ∨ s = "dev" then development
  else custom s

/-- The profile that a variable of the environment names. -/
def ofVariables (environment : List (String × String)) : Profile :=
  match environment.find? (·.1 == "CHIME_PROFILE") with
  | some (_, value) => ofName value
  | none => development

end Profile

end Switchboard
