import Switchboard.Report
import Switchboard.Station.Basic

/-!
# Reports on stations

The JSON forms of configurations that cannot be loaded, of records, of
bots, and of what goes wrong with a station.
-/

namespace Switchboard

namespace Json.DecodeError

/-- The report of an error of taking data from a JSON text. The kind of
the error is `name`, and its message is put behind `before`. -/
def report (name before : String) : Json.DecodeError → Json
  | .grammar f =>
    let category := match f with
      | .malformed => "syntax"
      | .cutShort => "eof"
    .obj [("error", .str name), ("category", .str category)]
  | .shape m =>
    .obj [("error", .str name), ("category", .str "data"), ("message", .str (before ++ m))]

end Json.DecodeError

namespace ConfigFault

/-- The report of what is wrong with a configuration. -/
def report (f : ConfigFault) : Json :=
  .obj [("error", .str "Validation"), ("message", .str f.message)]

end ConfigFault

namespace Config

/-- The report of a configuration that is well formed: what it says, its
level of the log, and whether it is valid. -/
def report (c : Config) : Json :=
  let level := c.logging.level
  .obj [("config", c.toJson), ("level", .arr [.str level.name, .str level.capitals]),
    ("valid", match c.fault? with
      | none => .str "ok"
      | some f => f.report)]

namespace LoadError

/-- The report of an error. -/
def report : LoadError → Json
  | fileNotFound path =>
    .obj [("error", .str "FileNotFound"), ("path", .str path),
      ("message", .str ("Configuration file not found: " ++ path))]
  | unsupportedFormat ending =>
    .obj [("error", .str "UnsupportedFormat"),
      ("message", .str ("Unsupported or disabled configuration file format: ." ++ ending))]
  | namelessVariable =>
    .obj [("error", .str "Panic"), ("message", .str "key is non-empty: must have dict")]
  | setting e =>
    .obj ([("error", .str "Extract"), ("kind", .str e.fault.kind), ("path", .str e.placeText)] ++
      (e.fault.message?.map fun m => ("message", .str m)).toList)
  | invalid f => f.report

end LoadError

/-- The report of a configuration that was to be loaded. -/
def reportLoaded : Except LoadError Config → Json
  | .ok c => .obj [("config", c.toJson)]
  | .error e => e.report

end Config

namespace Profile

/-- The report of a profile. -/
def report (p : Profile) : Json :=
  .obj [("kind", .str p.kind), ("name", .str p.name), ("display", .str p.name),
    ("default", .bool (p == default))]

end Profile

namespace RecordError

/-- The report of an error. -/
def report (e : RecordError) : Json :=
  let about := match e with
    | malformed name _ => [("error", Json.str "Malformed"), ("name", .str name)]
    | missingComponent _ => [("error", .str "MissingComponent")]
    | unreadable path => [("error", .str "Io"), ("path", .str path)]
  .obj (about ++ (e.message?.map fun m => ("message", Json.str m)).toList)

end RecordError

namespace BotRecord

/-- The report of a record, with the account it describes. -/
def report (r : BotRecord) : Json :=
  let account := match Account.ofRecord r with
    | .ok a => a.toJson
    | .error e => e.report
  .obj [("name", .str r.name), ("component", .str r.component), ("data", .obj r.data),
    ("display", .str r.display), ("account", account)]

end BotRecord

/-- The report of a record that was to be made. -/
def reportRecord : Except RecordError BotRecord → Json
  | .ok r => r.report
  | .error e => e.report

/-- The report of the records of a directory. -/
def reportRecords : Except RecordError (List BotRecord) → Json
  | .ok rs => .obj [("records", .arr (rs.map BotRecord.report))]
  | .error e => e.report

/-- The report of the record in a file, if there is one. -/
def reportFile : Except RecordError (Option BotRecord) → Json
  | .ok r => .obj [("record", (r.map BotRecord.report).getD .null)]
  | .error e => e.report

namespace RecordLoader

/-- The report of a content that is to be decoded by the name of its file. -/
def reportDecoded (l : RecordLoader) (name : String) (bytes : List UInt8) : Json :=
  match l.decoderFor? name with
  | none => .obj [("decoder", .null), ("decoders", .str l.describe)]
  | some d => .obj [("decoder", .str d.name), ("record", reportRecord (d.decode name bytes))]

end RecordLoader

namespace Hub

/-- The report of a hub: what it holds, and how its dispatches go. -/
def report {β σ : Type} (h : Hub β σ) : Json :=
  .obj [("listeners", h.registry.snapshot.report),
    ("interceptors", .ofNat h.registry.snapshot.interceptorCount),
    ("sessions", .ofNat h.sessions.size), ("global", .ofNat h.shared.size),
    ("settings", h.settings.toJson)]

end Hub

namespace RegisteredBot

/-- The report of a bot. -/
def report (b : RegisteredBot) : Json :=
  .obj [("id", b.id.toJson), ("component", .str b.component), ("record", .str b.record),
    ("registrar", .str b.registrar), ("display", .str b.display)]

end RegisteredBot

namespace StationError

/-- The report of an error. -/
def report : StationError → Json
  | config e => e.report
  | registry e =>
    .obj [("error", .str "Registry"), ("message", .str (registryMessage e)), ("source", e.report)]
  | record e => e.report
  | register who name reason =>
    .obj [("error", .str "Register"), ("registrar", .str who), ("record", .str name),
      ("message", .str (registerMessage who name reason))]

/-- The report of what some work of a station has led to. -/
def reportOr {α : Type} (f : α → Json) : Except StationError α → Json
  | .ok a => f a
  | .error e => e.report

end StationError

/-- The report of bots. -/
def reportBots (bots : List RegisteredBot) : Json := .arr (bots.map RegisteredBot.report)

end Switchboard
