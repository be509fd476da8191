import Switchboard.Script.Basic

/-!
# What scripts remember

Scripts keep a journal of what they note. They remember, too, which
identifiers were drawn for their listeners and interceptors, since these
cannot be foreseen: the `n`-th of them goes by the name `#n`. And they
remember the sessions that were opened under a name.

Every listener that scripts build has a number, so a listener found in the
registry can be told from another one that was built under the same
identifier.
-/

namespace Switchboard.Script

/-- A session that was opened under a name. Its time is counted from the
first look at it. -/
structure NamedSession where
  id : Id
  milliseconds : Option Nat
  since : Option Nat

/-- What scripts remember. -/
structure Memory where
  /-- What was noted, the newest first. -/
  journal : List Json
  /-- The identifiers drawn for listeners and interceptors, in order. -/
  drawn : List Id
  /-- The identifiers of the listeners built, the newest first, with their
  numbers. -/
  built : List (Id × Nat)
  sessions : List (String × NamedSession)

/-- Supplied code that must not wait, given as a script. -/
abbrev Asking := Program (requests Code Memory)

/-- Supplied code that may wait, given as a script. -/
abbrev Acting := Program (userCalls Code Memory)

namespace Memory

/-- The memory of scripts that have not run. -/
def fresh : Memory := ⟨[], [], [], []⟩

/-- The name of the drawn identifier at a position. -/
def nameAt (i : Nat) : String := "#" ++ Number.natText (i + 1)

/-- The drawn identifiers with their names. -/
def names (m : Memory) : List (Id × String) := m.drawn.mapIdx fun i id => (id, nameAt i)

/-- The identifier meant by a name of a drawn one, or by itself. -/
def resolve (m : Memory) (id : Id) : Id :=
  ((m.names.find? (·.2 == id.text)).map (·.1)).getD id

/-- A text in which the drawn identifiers are replaced by their names, and
any other one of the first `count` identifiers by a mark. -/
def rename (m : Memory) (count : Nat) (s : String) : String :=
  let s := m.names.foldl (fun s (id, name) => s.replace id.text name) s
  (List.range count).foldl (fun s i => s.replace (Id.ofEntropy i).text "#") s

/-- Puts something into the journal. -/
def note (m : Memory) (v : Json) : Memory := { m with journal := v :: m.journal }

/-- The session opened under a name. -/
def session? (m : Memory) (name : String) : Option NamedSession :=
  (m.sessions.find? (·.1 == name)).map (·.2)

/-- Forgets the session opened under a name. -/
def forgetSession (m : Memory) (name : String) : Memory :=
  { m with sessions := m.sessions.filter (·.1 != name) }

/-- Remembers a session under a name. -/
def keepSession (m : Memory) (name : String) (s : NamedSession) : Memory :=
  { m.forgetSession name with sessions := (name, s) :: (m.forgetSession name).sessions }

end Memory

/-- What is remembered. -/
def remembered : Asking Memory := .request .memory

/-- Changes what is remembered. -/
def alter (f : Memory → Memory) : Asking Unit :=
  remembered.bind fun m => .request (.setMemory (f m))

/-- Puts something into the journal. -/
def note (v : Json) : Asking Unit := alter (·.note v)

/-- Makes a report of results. -/
def reporting (f : Handles → Json) : Asking Json :=
  (Program.request .handles).bind fun t => .done (f t)

/-- Draws an identifier that gets a name. -/
def drawNamed : Asking Id := do
  let id : Id ← Program.request .drawId
  alter fun m => { m with drawn := m.drawn ++ [id] }
  return id

/-- The given identifier, or else a drawn one. -/
def givenOrDrawn : Option Id → Asking Id
  | some id => .done id
  | none => drawNamed

/-- The number of the next listener, which is built under an identifier. -/
def numberFor (id : Id) : Asking Nat := do
  let m ← remembered
  let number := m.built.length
  alter fun m => { m with built := (id, number) :: m.built }
  return number

end Switchboard.Script
