import Switchboard.Station.Basic

/-!
# What stations do

The work of a station as programs over `stationCalls`: it reads and
changes what it knows of itself, loads records, offers them to registrars,
and shuts its hub down.

A record is offered to the registrars one by one, until one of them
answers anything but that the record is meant for another component. The
records of a directory are offered in their order, and directories are
taken in the order of the configuration. The first thing that goes wrong
ends it; what has been registered until then stays.
-/

namespace Switchboard

variable {β : Type}

/-- Calls of a station at work. -/
inductive StationCall (β : Type) where
  | registrars
  | isRunning
  | setRunning (b : Bool)
  /-- A bot joins those registered so far. -/
  | keep (b : RegisteredBot)
  /-- Loads the records of a directory. -/
  | load (directory : String)
  | offer (r : Registrar β) (record : BotRecord)
  /-- Serves until it is time to end. -/
  | serve
  /-- Shuts the hub down. -/
  | shutDown

/-- The type of the reply to a call. -/
def StationCall.Reply : StationCall β → Type
  | registrars => List (Registrar β)
  | isRunning => Bool
  | setRunning _ => Unit
  | keep _ => Unit
  | load _ => Except RecordError (List BotRecord)
  | offer _ _ => Except RegisterError Id
  | serve => Unit
  | shutDown => Unit

/-- The calls of stations. -/
@[reducible] def stationCalls (β : Type) : Signature := ⟨StationCall β, StationCall.Reply⟩

/-- The work of a station. -/
abbrev StationProgram (β α : Type) := Program (stationCalls β) α

namespace StationProgram

/-- Offers a record to registrars one by one. -/
def offerTo (record : BotRecord) :
    List (Registrar β) → StationProgram β (Except StationError (Option RegisteredBot))
  | [] => .done (.ok none)
  | r :: rest =>
    .call (.offer r record) fun
      | .ok id =>
        let bot : RegisteredBot := ⟨id, record.component, record.name, r.name⟩
        .call (.keep bot) fun _ => .done (.ok (some bot))
      | .error (.mismatch _ _) => offerTo record rest
      | .error (.failed reason) => .done (.error (.register r.name record.name reason))

/-- **Registers the bot of a record**, if a registrar accepts it. -/
def registerBot (record : BotRecord) :
    StationProgram β (Except StationError (Option RegisteredBot)) :=
  .call .registrars (offerTo record)

/-- Registers the bots of records, and gives those that were accepted. -/
def registerAll : List BotRecord → StationProgram β (Except StationError (List RegisteredBot))
  | [] => .done (.ok [])
  | record :: rest =>
    (registerBot record).bind fun
      | .error e => .done (.error e)
      | .ok bot =>
        (registerAll rest).bind fun
          | .error e => .done (.error e)
          | .ok bots => .done (.ok (bot.toList ++ bots))

/-- **Loads the bots of a directory.** -/
def loadBotsFrom (directory : String) :
    StationProgram β (Except StationError (List RegisteredBot)) :=
  .call (.load directory) fun
    | .error e => .done (.error (.record e))
    | .ok records => registerAll records

/-- **Loads the bots of directories**, one after the other. -/
def loadBots : List String → StationProgram β (Except StationError (List RegisteredBot))
  | [] => .done (.ok [])
  | directory :: rest =>
    (loadBotsFrom directory).bind fun
      | .error e => .done (.error e)
      | .ok bots =>
        (loadBots rest).bind fun
          | .error e => .done (.error e)
          | .ok more => .done (.ok (bots ++ more))

/-- **Starts the station**, unless it is running. It counts as running as
soon as its bots are being loaded. -/
def start (c : BotsConfig) : StationProgram β (Except StationError Unit) :=
  .call .isRunning fun
    | true => .done (.ok ())
    | false =>
      .call (.setRunning true) fun _ =>
        if c.autoLoad then
          (loadBots c.directories).bind fun
            | .error e => .done (.error e)
            | .ok _ => .done (.ok ())
        else .done (.ok ())

/-- **Stops the station**, if it is running. -/
def stop : StationProgram β Unit :=
  .call .isRunning fun
    | false => .done ()
    | true => .call (.setRunning false) fun _ => .call .shutDown fun _ => .done ()

/-- Starts the station, serves, and stops it. -/
def startAndStop (c : BotsConfig) : StationProgram β (Except StationError Unit) :=
  (start c).bind fun
    | .error e => .done (.error e)
    | .ok () => .call .serve fun _ => stop.bind fun _ => .done (.ok ())

end StationProgram

end Switchboard
