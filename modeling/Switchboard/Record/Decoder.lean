import Switchboard.Json.Reader
import Switchboard.Record.Basic
import Switchboard.Text.Split
import Switchboard.Text.Utf8
import Switchboard.Toml.Reader

/-!
# Decoders of bot records

A decoder knows by the name of a file whether it can read it, and makes a
record of its bytes. Two decoders are standard: `json` for names that end
in `.bot.json`, and `toml` for names that end in `.bot.toml`. A decoder of
`lines` takes a name and a text from every line with an equals sign.
-/

namespace Switchboard

/-- **A decoder of bot records.** -/
structure RecordDecoder where
  name : String
  /-- Whether the decoder reads files of a name. -/
  accepts : String → Bool
  decode : String → List UInt8 → Except RecordError BotRecord

namespace RecordDecoder

/-- Reads records that are JSON objects. -/
def json : RecordDecoder where
  name := "json"
  accepts := (·.endsWith ".bot.json")
  decode := fun name bytes =>
    match (Text.Utf8.decode? bytes).map Json.ofText with
    | some (.ok (.obj data)) => BotRecord.ofData name data
    | _ => .error (.malformed name none)

/-- Reads records that are TOML documents. -/
def toml : RecordDecoder where
  name := "toml"
  accepts := (·.endsWith ".bot.toml")
  decode := fun name bytes =>
    match ((Text.Utf8.decode? bytes).bind Toml.read?).map Setting.toJson with
    | some (.obj data) => BotRecord.ofData name data
    | _ => .error (.malformed name none)

/-- The lines of a text. The end of a line is a line feed, or a carriage
return and a line feed. -/
def linesOf (cs : List Char) : List (List Char) :=
  let cut (line : List Char) : List Char :=
    if line.getLast? = some '\r' then line.dropLast else line
  let parts := Text.splitOn '\n' cs
  parts.dropLast.map cut ++ parts.getLast?.toList

/-- The name and the text that a line with an equals sign gives. -/
def entryOf? (line : List Char) : Option (String × Json) :=
  if line.contains '=' then
    some (String.ofList (line.takeWhile (· != '=')),
      .str (String.ofList ((line.dropWhile (· != '=')).drop 1)))
  else none

/-- Reads records that give one entry a line. Of two entries of a name the
later one counts. -/
def lines (name ending : String) : RecordDecoder where
  name := name
  accepts := (·.endsWith ending)
  decode := fun name bytes =>
    BotRecord.ofData name (Json.ordered
      ((linesOf (Text.Utf8.decodeLossy bytes).toList).filterMap entryOf?))

end RecordDecoder

end Switchboard
