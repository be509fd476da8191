import Switchboard.Reading
import Switchboard.Setting.Basic
import Switchboard.Text.Quoted

/-!
# Configuration of the log

What is logged (a level, and levels for single modules), how it is
written, and where. Each type has a reader over any `Reading` and a JSON
form, in which a field that says nothing has its default.
-/

namespace Switchboard

/-- How important an entry of the log is. -/
inductive LogLevel where
  | trace
  | debug
  | info
  | warn
  | error
deriving DecidableEq, Repr, Inhabited

namespace LogLevel

/-- All levels, the least important one first. -/
def all : List LogLevel := [trace, debug, info, warn, error]

/-- The name of a level. -/
def name : LogLevel → String
  | trace => "trace"
  | debug => "debug"
  | info => "info"
  | warn => "warn"
  | error => "error"

/-- The name of a level in capitals. -/
def capitals : LogLevel → String
  | trace => "TRACE"
  | debug => "DEBUG"
  | info => "INFO"
  | warn => "WARN"
  | error => "ERROR"

/-- The description of a level for diagnosis. -/
def describe : LogLevel → String
  | trace => "Level(Trace)"
  | debug => "Level(Debug)"
  | info => "Level(Info)"
  | warn => "Level(Warn)"
  | error => "Level(Error)"

/-- The level with a name. -/
def ofName? (s : String) : Option LogLevel := all.find? (·.name == s)

/-- Reads a level. -/
def read {V E : Type} (r : Reading V E) (v : V) : Except E LogLevel :=
  (r.choice "LogLevel" (all.map name) v).map fun s => (ofName? s).getD info

end LogLevel

/-- How entries of the log are written. -/
inductive LogFormat where
  | compact
  | full
  | pretty
  | json
deriving DecidableEq, Repr, Inhabited

namespace LogFormat

/-- All formats. -/
def all : List LogFormat := [compact, full, pretty, json]

/-- The name of a format. -/
def name : LogFormat → String
  | compact => "compact"
  | full => "full"
  | pretty => "pretty"
  | json => "json"

/-- The description of a format for diagnosis. -/
def describe : LogFormat → String
  | compact => "Compact"
  | full => "Full"
  | pretty => "Pretty"
  | json => "Json"

/-- The format with a name. -/
def ofName? (s : String) : Option LogFormat := all.find? (·.name == s)

/-- Reads a format. -/
def read {V E : Type} (r : Reading V E) (v : V) : Except E LogFormat :=
  (r.choice "LogFormat" (all.map name) v).map fun s => (ofName? s).getD compact

end LogFormat

/-- Where the log goes. -/
inductive LogOutput where
  | stdout
  | stderr
  | file
deriving DecidableEq, Repr, Inhabited

namespace LogOutput

/-- All outputs. -/
def all : List LogOutput := [stdout, stderr, file]

/-- The name of an output. -/
def name : LogOutput → String
  | stdout => "stdout"
  | stderr => "stderr"
  | file => "file"

/-- The description of an output for diagnosis. -/
def describe : LogOutput → String
  | stdout => "Stdout"
  | stderr => "Stderr"
  | file => "File"

/-- The output with a name. -/
def ofName? (s : String) : Option LogOutput := all.find? (·.name == s)

/-- Reads an output. -/
def read {V E : Type} (r : Reading V E) (v : V) : Except E LogOutput :=
  (r.choice "LogOutput" (all.map name) v).map fun s => (ofName? s).getD stdout

end LogOutput

/-- Which events in the life of a dispatch are logged. -/
structure SpanEvents where
  new : Bool
  enter : Bool
  exit : Bool
  close : Bool
deriving DecidableEq, Repr, Inhabited

namespace SpanEvents

/-- No events. -/
def none : SpanEvents := ⟨false, false, false, false⟩

/-- The beginning and the end. -/
def lifecycle : SpanEvents := ⟨true, false, false, true⟩

/-- All events. -/
def full : SpanEvents := ⟨true, true, true, true⟩

/-- Reads the events, which are not logged unless it is said. -/
def read {V E : Type} (r : Reading V E) : V → Except E SpanEvents :=
  r.record "SpanEventConfig" ["new", "enter", "exit", "close"] none fun name v e =>
    (r.bool v).map fun b =>
      if name = "new" then { e with new := b }
      else if name = "enter" then { e with enter := b }
      else if name = "exit" then { e with exit := b }
      else { e with close := b }

/-- The JSON form of the events. -/
def toJson (e : SpanEvents) : Json :=
  .obj [("close", .bool e.close), ("enter", .bool e.enter), ("exit", .bool e.exit),
    ("new", .bool e.new)]

/-- The description of the events for diagnosis. -/
def describe (e : SpanEvents) : String :=
  let flag (name : String) (b : Bool) : String := name ++ ": " ++ if b then "true" else "false"
  "SpanEvents \x7b " ++ flag "new" e.new ++ ", " ++ flag "enter" e.enter ++ ", " ++
    flag "exit" e.exit ++ ", " ++ flag "close" e.close ++ " \x7d"

end SpanEvents

/-- **The configuration of the log.** -/
structure LoggingConfig where
  level : LogLevel
  format : LogFormat
  output : LogOutput
  filePath : Option String
  threadIds : Bool
  fileLocation : Bool
  spanEvents : SpanEvents
  /-- Levels of single modules, in the order of their names. -/
  filters : List (String × LogLevel)
deriving DecidableEq, Repr

namespace LoggingConfig

/-- The log of a program that is not configured. -/
def default : LoggingConfig := ⟨.info, .compact, .stdout, none, false, false, .none, []⟩

instance : Inhabited LoggingConfig := ⟨default⟩

/-- The names of the fields. -/
def fields : List String :=
  ["level", "format", "output", "file_path", "thread_ids", "file_location", "span_events",
    "filters"]

/-- Reads one field. -/
def readField {V E : Type} (r : Reading V E) (name : String) (v : V) (c : LoggingConfig) :
    Except E LoggingConfig :=
  if name = "level" then (LogLevel.read r v).map fun x => { c with level := x }
  else if name = "format" then (LogFormat.read r v).map fun x => { c with format := x }
  else if name = "output" then (LogOutput.read r v).map fun x => { c with output := x }
  else if name = "file_path" then (r.optional r.path v).map fun x => { c with filePath := x }
  else if name = "thread_ids" then (r.bool v).map fun x => { c with threadIds := x }
  else if name = "file_location" then (r.bool v).map fun x => { c with fileLocation := x }
  else if name = "span_events" then (SpanEvents.read r v).map fun x => { c with spanEvents := x }
  else (r.table (LogLevel.read r) v).map fun x => { c with filters := Json.ordered x }

/-- Reads the configuration of the log. -/
def read {V E : Type} (r : Reading V E) : V → Except E LoggingConfig :=
  r.record "LoggingConfig" fields default (readField r)

/-- The JSON form of the configuration. -/
def toJson (c : LoggingConfig) : Json :=
  .obj [("file_location", .bool c.fileLocation), ("file_path", Json.ofText? c.filePath),
    ("filters", .obj (c.filters.map fun (name, level) => (name, .str level.name))),
    ("format", .str c.format.name), ("level", .str c.level.name), ("output", .str c.output.name),
    ("span_events", c.spanEvents.toJson), ("thread_ids", .bool c.threadIds)]

end LoggingConfig

end Switchboard
