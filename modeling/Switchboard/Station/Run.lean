import Switchboard.Hub.Scheduler
import Switchboard.Station.Program

/-!
# Running a station

`Station.run` gives the work of a station its effect. Calls on the station
itself are answered at once (`Station.answer`). Registrars, and what is
served, are programs on the hub, which the scheduler runs.
-/

namespace Switchboard

variable {β σ α : Type}

/-- What the code of a station does. -/
structure StationCode (β σ : Type) where
  hub : Behaviours β σ
  /-- What a registrar does that is offered a record. -/
  register : β → BotRecord → HubProgram β σ (Except RegisterError Id)
  /-- What a station does while it serves. -/
  serve : Station β → HubProgram β σ Unit

/-- A station with the scheduler that runs its hub. -/
structure StationState (β σ : Type) where
  station : Station β
  machine : Scheduler β σ

namespace StationState

/-- Runs a program on the hub. -/
def onHub (B : StationCode β σ) (patience : Option Nat) (s : StationState β σ)
    (p : HubProgram β σ α) : Option (Except Payload α) × StationState β σ :=
  let (r, machine) := s.machine.run B.hub patience p
  (r, { s with machine })

/-- **The reply to a call of a station.** It is missing if the call was
given up. -/
def answer (B : StationCode β σ) (patience : Option Nat) (s : StationState β σ) :
    (c : StationCall β) → Option (Except Payload c.Reply) × StationState β σ
  | .registrars => (some (.ok s.station.registrars), s)
  | .isRunning => (some (.ok s.station.running), s)
  | .setRunning b => (some (.ok ()), { s with station := { s.station with running := b } })
  | .keep b =>
    (some (.ok ()), { s with station := { s.station with bots := s.station.bots ++ [b] } })
  | .load directory =>
    let w := s.station.surroundings
    (some (.ok (s.station.loader.loadDirectory w.files w.directory directory)), s)
  | .offer r record => s.onHub B patience (B.register r.run record)
  | .serve => s.onHub B patience (B.serve s.station)
  | .shutDown => s.onHub B patience Scheduler.shutdown

/-- **Runs the work of a station.** The result is missing if the work was
given up. -/
def run (B : StationCode β σ) (patience : Option Nat) :
    StationProgram β α → StationState β σ → Option (Except Payload α) × StationState β σ
  | .done a, s => (some (.ok a), s)
  | .panic p, s => (some (.error p), s)
  | .call c next, s =>
    match s.answer B patience c with
    | (some (.ok reply), s) => run B patience (next reply) s
    | (some (.error p), s) => (some (.error p), s)
    | (none, s) => (none, s)

end StationState

end Switchboard
