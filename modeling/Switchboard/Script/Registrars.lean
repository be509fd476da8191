import Switchboard.Script.Behaviours
import Switchboard.Station.Run

/-!
# Registrars of scripts

A scripted registrar takes the identifier of a bot from the field `code`
of its record. While a station with scripts serves, it notes whether it is
running.
-/

namespace Switchboard.Script

/-- The identifier that a record gives its bot: a text as it is, anything
else as a number, which is zero for what is none. -/
def idOfRecord (r : BotRecord) : Except RegisterError Id :=
  match Json.member? "code" r.data with
  | none => .error (.failed "no code")
  | some (.str s) => (Id.literal s).mapError fun e => .failed e.message
  | some (.int n) => .ok (Id.ofInt (if Number.fitsInt64 n then n else 0))
  | some _ => .ok (Id.ofInt 0)

/-- What a registrar answers that is offered a record. -/
def registerScripted (component failure : Option String) (r : BotRecord) :
    Except RegisterError Id :=
  match component.filter (· != r.component) with
  | some c => .error (.mismatch c r.component)
  | none =>
    match failure with
    | some reason => .error (.failed reason)
    | none => idOfRecord r

/-- **What the scripts of a station do.** -/
def stationCode (settings : DispatchSettings) (failures : Option FailureHandling) :
    StationCode Code Memory where
  hub := behaviours settings failures
  register := fun
    | .registrar component failure, r => .done (registerScripted component failure r)
    | _, _ => misplaced
  serve := fun s => .ofUser ((yields 64).bind fun _ =>
    ask (note (.arr [.str "running", .bool s.running])))

end Switchboard.Script
