import Switchboard.Dispatch.Basic
import Switchboard.Script.Condition

/-!
# Operations of scripts

`Operation.run` makes an operation on the hub and gives the answer to it
as a report. Building a listener draws the identifiers that are not given:
the one of the listener first, then those of its interceptors. A listener
without a handler is not built and draws none.
-/

namespace Switchboard.Script

namespace AttachmentTerm

/-- Attachments with the identifiers they lack drawn. -/
def buildAll : List (AttachmentTerm Code) → Asking (List (Listener.Attachment Code))
  | [] => .done []
  | t :: rest => do
    let id ← givenOrDrawn t.id
    return ⟨id, t.priority, t.point, t.run⟩ :: (← buildAll rest)

end AttachmentTerm

namespace ListenerTerm

/-- The report that a listener has no handler. -/
def unfinished (t : ListenerTerm Code) : Json :=
  match t.id with
  | some id => BuildError.report ⟨id, t.key⟩
  | none => BuildError.reportAnonymous t.key

/-- **Builds a listener**, or reports why it cannot be built. -/
def build (t : ListenerTerm Code) : Asking (Except Json (Listener Code)) :=
  match t.handler with
  | none => .done (.error t.unfinished)
  | some handler => do
    let id ← givenOrDrawn t.id
    let attachments ← AttachmentTerm.buildAll t.attachments
    let number ← numberFor id
    let draft : ListenerDraft Code :=
      { id, key := t.key, priority := t.priority, mode := t.mode, filters := t.filters,
        attachments, handler := some { handler with run := .numbered number handler.run } }
    return draft.build.mapError BuildError.report

/-- Builds several listeners, up to the first that cannot be built. -/
def buildAll : List (ListenerTerm Code) → Asking (Except Json (List (Listener Code)))
  | [] => .done (.ok [])
  | t :: rest => do
    match ← t.build with
    | .error e => return .error e
    | .ok l =>
      match ← buildAll rest with
      | .error e => return .error e
      | .ok ls => return .ok (l :: ls)

end ListenerTerm

/-- The number of a listener that a script has built. -/
def numberOf (l : Listener Code) : Option Nat :=
  match l.handler.run with
  | .numbered n _ => some n
  | _ => none

/-- Gives up the session opened under a name, and tells if there was one. -/
def giveUpNamed (name : String) : Asking Bool := do
  match (← remembered).session? name with
  | none => return false
  | some s =>
    alter (·.forgetSession name)
    Program.request (.abandonSession s.id)
    return true

/-- The numbers of listeners, interceptors and sessions. -/
def counts : Asking Json := do
  let s : Snapshot Code ← Program.request .snapshot
  let pending : Nat ← Program.request .pendingSessions
  return .arr [.ofNat s.listeners.length, .ofNat s.interceptorCount, .ofNat pending]

/-- Registers several listeners that have been built. -/
def registerBuilt : Except Json (List (Listener Code)) → Asking Json
  | .error e => .done e
  | .ok ls => (Program.request (.registerAll ls)).bind fun r => .done (reportChanged r)

namespace Operation

/-- **Makes an operation**, where dispatches go as `how` says, and
gives the answer. -/
def run (how : DispatchSettings) : Operation Code → Asking Json
  | .register l => do registerBuilt (← ListenerTerm.buildAll [l])
  | .registerAll ls => do registerBuilt (← ListenerTerm.buildAll ls)
  | .addProcessing id priority run =>
    (Program.request (.addProcessing id priority run)).bind fun r => .done (reportChanged r)
  | .addServing id priority point run =>
    (Program.request (.addServing id priority point run)).bind fun r => .done (reportChanged r)
  | .unregister id => do
    match ← Program.request (.unregister ((← remembered).resolve id)) with
    | .error e => return RegistryError.report e
    | .ok removed => return Removed.report removed
  | .clear => (Program.request .clearRegistry).bind fun _ => .done (.str "ok")
  | .lookup id => do
    let s : Snapshot Code ← Program.request .snapshot
    let m ← remembered
    match s.listener? (m.resolve id) with
    | none => return .null
    | some l =>
      let newest := (m.built.find? (·.1 == l.id)).map (·.2)
      return .arr [l.report, .bool (numberOf l == newest)]
  | .contains id => do
    let s : Snapshot Code ← Program.request .snapshot
    return .bool (s.contains ((← remembered).resolve id))
  | .listeners => do
    let s : Snapshot Code ← Program.request .snapshot
    return s.report
  | .order => do
    let s : Snapshot Code ← Program.request .snapshot
    return .arr (s.listeners.map (·.listener.id.toJson))
  | .isProcessable key => (Program.request (.isProcessable key)).bind fun b => .done (.bool b)
  | .counts => Script.counts
  | .settings => .done how.toJson
  | .describeAll => do
    let s : Snapshot Code ← Program.request .snapshot
    let a : Attributes ← Program.request (.attributes .shared)
    let pending : Nat ← Program.request .pendingSessions
    return .arr [.arr (s.listeners.map fun r => .str r.listener.describe), .str a.describe,
      .str (Sessions.describeCount pending)]
  | .sessionCount => do
    let pending : Nat ← Program.request .pendingSessions
    return .arr [.ofNat pending, .bool (pending == 0)]
  | .clearSessions => (Program.request .clearSessions).bind fun _ => .done (.str "ok")
  | .openNamed name forMessages matcher milliseconds => do
    let id : Id ← Program.request (.openSession forMessages matcher)
    let _ ← giveUpNamed name
    alter (·.keepSession name ⟨id, milliseconds, none⟩)
    return .str "ok"
  | .dropNamed name => (giveUpNamed name).bind fun b => .done (.bool b)
  | .cancelNamed name => do
    match (← remembered).session? name with
    | none => return .str "no session"
    | some s =>
      let b : Bool ← Program.request (.cancelSession s.id)
      return .bool b
  | .shared use => do
    let a : Attributes ← Program.request (.attributes .shared)
    let (answer, a) := use.apply a
    Program.request (.setAttributes .shared a)
    return answer

end Operation

end Switchboard.Script
