import Switchboard.Listener

/-!
# Contexts, and what handlers take from them

An `EventContext` names one dispatch: the event, and the number under
which the hub keeps what belongs to the dispatch alone. A
`ListenerContext` adds the listener that is being invoked.

A handler lists the parameters it asks for, and `Parameter.extract` takes
them from the context of its invocation. A handler that asks for something
its event does not have is not called.
-/

namespace Switchboard

/-- The context of one dispatch. -/
structure EventContext where
  /-- The number of the dispatch. -/
  index : Nat
  event : Event

/-- The context of one invocation of a listener. -/
structure ListenerContext where
  context : EventContext
  listener : Id
  /-- The key of the listener, an ancestor of the event's key. -/
  key : EventKey
  priority : Priority

namespace EventContext

/-- The text of a context for diagnosis. -/
def describe (c : EventContext) (outcomes : Nat) (truncated : Bool) : String :=
  "EventContext \x7b event: " ++ c.event.describe ++ ", outcomes: " ++ Number.natText outcomes ++
    ", truncated: " ++ (if truncated then "true" else "false") ++ ", .. \x7d"

end EventContext

namespace ListenerContext

/-- The event that is being dispatched. -/
def event (c : ListenerContext) : Event := c.context.event

/-- The text of a context for diagnosis. -/
def describe (c : ListenerContext) : String :=
  "ListenerContext \x7b listener_id: " ++ c.listener.describe ++ ", listener_key: " ++
    c.key.describe ++ ", event: " ++ c.event.describe ++ " \x7d"

end ListenerContext

/-- What a handler was given for a parameter. -/
inductive Argument where
  | listenerContext (c : ListenerContext)
  | eventContext (c : EventContext)
  | event (e : Event)
  | message (m : Message)
  | bot (id : Id)
  | eventOf (e : Event)
  | optional (a : Option Argument)

/-- Why a handler cannot be given a parameter. -/
inductive ExtractError where
  /-- The event has another concrete type. -/
  | wrongKind (expected : String) (key : EventKey)
  /-- The event does not carry such a thing. -/
  | missing (what : String)
  | refused (reason : String)

namespace ExtractError

/-- The message of an error. -/
def message : ExtractError → String
  | wrongKind expected key =>
    "event type mismatch: expected '" ++ expected ++ "', got '" ++ key.name ++ "'"
  | missing what => "event carries no " ++ what
  | refused reason => reason

end ExtractError

namespace Parameter

/-- **Takes a parameter from a context.** -/
def extract (c : ListenerContext) : Parameter → Except ExtractError Argument
  | listenerContext => .ok (.listenerContext c)
  | eventContext => .ok (.eventContext c.context)
  | event => .ok (.event c.event)
  | message =>
    match c.event.message with
    | some m => .ok (.message m)
    | none => .error (.missing "message")
  | bot =>
    match c.event.bot with
    | some id => .ok (.bot id)
    | none => .error (.missing "bot id")
  | eventOf kind =>
    if c.event.kind = kind then .ok (.eventOf c.event)
    else .error (.wrongKind kind c.event.key)
  | optional p =>
    match p.extract c with
    | .ok a => .ok (.optional (some a))
    | .error _ => .ok (.optional none)
  | refused reason => .error (.refused reason)

/-- Takes several parameters from a context, all or none. -/
def extractAll (c : ListenerContext) : List Parameter → Except ExtractError (List Argument)
  | [] => .ok []
  | p :: rest =>
    match p.extract c, extractAll c rest with
    | .error e, _ => .error e
    | .ok _, .error e => .error e
    | .ok a, .ok as => .ok (a :: as)

end Parameter

end Switchboard
