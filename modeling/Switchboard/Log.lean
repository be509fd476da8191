import Switchboard.Config.Logging

/-!
# Setting up the log

A `LogSetup` says how the log of a program is to be. It starts from
nothing or from a configuration, and is then changed piece by piece. Apart
from levels for modules it holds **directives**, which are texts.
-/

namespace Switchboard

namespace LogLevel

/-- The directive by which a module has a level of its own. -/
def directive (module : String) (l : LogLevel) : String := module ++ "=" ++ l.name

end LogLevel

/-- How the log of a program is to be. -/
structure LogSetup where
  level : LogLevel
  directives : List String
  spanEvents : SpanEvents
  format : LogFormat
  output : LogOutput
  /-- Entries name the module they come from. -/
  withTarget : Bool
  withThreadIds : Bool
  withFile : Bool
  withLine : Bool
  filePath : Option String
deriving DecidableEq, Repr

namespace LogSetup

/-- The log of a program about which nothing is said. -/
def default : LogSetup :=
  ⟨.info, [], .none, .compact, .stdout, true, false, false, false, none⟩

instance : Inhabited LogSetup := ⟨default⟩

/-- **The log a configuration asks for.** -/
def ofConfig (c : LoggingConfig) : LogSetup where
  level := c.level
  directives := c.filters.map fun (module, level) => level.directive module
  spanEvents := c.spanEvents
  format := c.format
  output := c.output
  withTarget := true
  withThreadIds := c.threadIds
  withFile := c.fileLocation
  withLine := c.fileLocation
  filePath := c.filePath

/-- A change of a setup. -/
inductive Change where
  | level (l : LogLevel)
  /-- Adds a directive. -/
  | directive (s : String)
  | spanEvents (e : SpanEvents)
  | format (f : LogFormat)
  | output (o : LogOutput)
  | target (b : Bool)
  | threadIds (b : Bool)
  /-- Whether entries name the file and the line they come from. -/
  | fileLocation (b : Bool)
  | filePath (p : String)

/-- Makes a change. -/
def apply (s : LogSetup) : Change → LogSetup
  | .level l => { s with level := l }
  | .directive d => { s with directives := s.directives ++ [d] }
  | .spanEvents e => { s with spanEvents := e }
  | .format f => { s with format := f }
  | .output o => { s with output := o }
  | .target b => { s with withTarget := b }
  | .threadIds b => { s with withThreadIds := b }
  | .fileLocation b => { s with withFile := b, withLine := b }
  | .filePath p => { s with filePath := some p }

/-- A path in quotes. Unlike in other texts, an apostrophe is escaped. -/
def quotedPath (p : String) : String :=
  String.ofList ('"' :: (p.toList.flatMap fun c =>
    if c = '\'' then ['\\', '\''] else Text.quoteChar c) ++ ['"'])

/-- The description of a setup for diagnosis. -/
def describe (s : LogSetup) : String :=
  let bool (b : Bool) : String := if b then "true" else "false"
  let fields : List (String × String) :=
    [("level", s.level.describe),
      ("directives", "[" ++ String.intercalate ", " (s.directives.map Text.quoted) ++ "]"),
      ("span_events", s.spanEvents.describe), ("format", s.format.describe),
      ("output", s.output.describe), ("with_target", bool s.withTarget),
      ("with_thread_ids", bool s.withThreadIds), ("with_file", bool s.withFile),
      ("with_line_number", bool s.withLine),
      ("file_path", match s.filePath with
        | some p => "Some(" ++ quotedPath p ++ ")"
        | none => "None")]
  "LoggingBuilder \x7b " ++
    String.intercalate ", " (fields.map fun (name, v) => name ++ ": " ++ v) ++ " \x7d"

end LogSetup

end Switchboard
