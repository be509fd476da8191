import Switchboard.Config.Logging
import Switchboard.Dispatch.Basic
import Switchboard.Setting.Reading

/-!
# Configuration

What a station is configured with: its log, how it dispatches events, and
where it finds the records of its bots. Every part has a default, so a
source that says nothing gives a configuration to work with.

`Config.read` takes a configuration from any notation; `Config.ofJson` and
`Config.ofSetting` are the two in use.
-/

namespace Switchboard

/-- Where the records of bots are, and whether they are loaded at the
start. -/
structure BotsConfig where
  autoLoad : Bool
  directories : List String
deriving DecidableEq, Repr

namespace BotsConfig

/-- Bots are loaded from one directory. -/
def default : BotsConfig := ⟨true, ["bots"]⟩

instance : Inhabited BotsConfig := ⟨default⟩

/-- Reads the configuration of bots. -/
def read {V E : Type} (r : Reading V E) : V → Except E BotsConfig :=
  r.record "BotsConfig" ["auto_load", "directories"] default fun name v c =>
    if name = "auto_load" then (r.bool v).map fun b => { c with autoLoad := b }
    else (r.list r.path v).map fun ds => { c with directories := ds }

/-- The JSON form of the configuration of bots. -/
def toJson (c : BotsConfig) : Json :=
  .obj [("auto_load", .bool c.autoLoad), ("directories", .arr (c.directories.map .str))]

end BotsConfig

/-- **The configuration of a station.** -/
structure Config where
  logging : LoggingConfig
  dispatch : DispatchSettings
  bots : BotsConfig
deriving DecidableEq, Repr

namespace Config

/-- The configuration of a station about which nothing is said. -/
def default : Config := ⟨.default, .default, .default⟩

instance : Inhabited Config := ⟨default⟩

/-- Reads a configuration. -/
def read {V E : Type} (r : Reading V E) : V → Except E Config :=
  r.record "ChimeConfig" ["logging", "dispatch", "bots"] default fun name v c =>
    if name = "logging" then (LoggingConfig.read r v).map fun x => { c with logging := x }
    else if name = "dispatch" then
      (DispatchSettings.read r v).map fun x => { c with dispatch := x }
    else (BotsConfig.read r v).map fun x => { c with bots := x }

/-- The JSON form of a configuration. -/
def toJson (c : Config) : Json :=
  .obj [("bots", c.bots.toJson), ("dispatch", c.dispatch.toJson), ("logging", c.logging.toJson)]

/-- The setting that says all of a configuration. -/
def toSetting (c : Config) : Setting := .ofJson c.toJson

/-- The configuration in a JSON value. -/
def ofJson (v : Json) : Json.Decoded Config := Json.decodeValue (read Json.reading) v

/-- The configuration a JSON text stands for. -/
def ofText (s : String) : Json.Decoded Config := Json.decode (read Json.reading) s

/-- The configuration a setting says. -/
def ofSetting (s : Setting) : Setting.Read Config := read Setting.reading s

end Config

end Switchboard
