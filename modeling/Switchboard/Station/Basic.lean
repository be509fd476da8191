import Switchboard.Config.Loader
import Switchboard.Hub.Plan
import Switchboard.Record.Loader

/-!
# Stations

A station is a hub with what keeps it busy: a configuration, the records
of bots, and the **registrars** that log bots in. A registrar is supplied
code with a name; whoever is offered a record either registers a bot, or
says that the record is meant for another component, or fails.
-/

namespace Switchboard

/-- Code that registers bots. -/
structure Registrar (β : Type) where
  name : String
  run : β
deriving DecidableEq

/-- Why a registrar registers no bot. -/
inductive RegisterError where
  /-- The record is meant for another component. -/
  | mismatch (expected got : String)
  | failed (reason : String)
deriving DecidableEq, Repr

namespace RegisterError

/-- The message of an error. -/
def message : RegisterError → String
  | mismatch expected got =>
    "component mismatch: expected '" ++ expected ++ "', got '" ++ got ++ "'"
  | failed reason => "registration failed: " ++ reason

end RegisterError

/-- A bot that was registered. -/
structure RegisteredBot where
  id : Id
  component : String
  /-- The name of its record. -/
  record : String
  /-- The name of the registrar. -/
  registrar : String
deriving DecidableEq

namespace RegisteredBot

/-- The bot in one line. -/
def display (b : RegisteredBot) : String :=
  "Bot(component=" ++ b.component ++ ", id=" ++ b.id.text ++ ") via " ++ b.registrar

end RegisteredBot

/-- What can go wrong with a station. -/
inductive StationError where
  | config (e : Config.LoadError)
  | registry (e : RegistryError)
  | record (e : RecordError)
  | register (registrar record : String) (reason : String)

namespace StationError

/-- The message about a hub that cannot be built. -/
def registryMessage (e : RegistryError) : String :=
  "Failed to build listener manager: " ++ e.message

/-- The message about a bot that cannot be registered. -/
def registerMessage (registrar record reason : String) : String :=
  "Registrar '" ++ registrar ++ "' failed to register '" ++ record ++ "': " ++
    (RegisterError.failed reason).message

end StationError

/-- **A station**, apart from its hub. -/
structure Station (β : Type) where
  config : Config
  loader : RecordLoader
  /-- What the station sees of the world. -/
  surroundings : Config.Surroundings
  /-- The registrars, in the order in which they were added. -/
  registrars : List (Registrar β)
  /-- The bots registered so far. -/
  bots : List RegisteredBot
  running : Bool

namespace Station

variable {β σ : Type}

/-- The files once the log is set up: a log that goes to a file has one. -/
def withLogFile (c : LoggingConfig) (w : Config.Surroundings) : Config.Surroundings :=
  match c.output, c.filePath with
  | .file, some p =>
    if w.leads p ∨ Path.fileName? p = none then w
    else { w with files := w.files.write w.directory p (.file []) }
  | _, _ => w

/-- **A station with a configuration**, and the hub it serves. The
configuration says how the dispatches of the hub go. -/
def ofConfig (c : Config) (plan : HubPlan β) (loader : RecordLoader) (w : Config.Surroundings)
    (memory : σ) : Except StationError (Station β × Hub β σ) :=
  match { plan with settings := c.dispatch }.build memory with
  | .ok hub => .ok (⟨c, loader, withLogFile c.logging w, [], [], false⟩, hub)
  | .error e => .error (.registry e)

/-- Where a station looks for its configuration if nothing else is said:
in the current directory. -/
def defaultSources (w : Config.Surroundings) : Config.Sources :=
  { Config.Sources.ofSurroundings w with searched := [w.directoryPath] }

/-- A station whose configuration is to be loaded first. -/
def load (s : Config.Sources) (plan : HubPlan β) (loader : RecordLoader)
    (w : Config.Surroundings) (memory : σ) : Except StationError (Station β × Hub β σ) :=
  match Config.load s w with
  | .ok c => ofConfig c plan loader w memory
  | .error e => .error (.config e)

end Station

end Switchboard
