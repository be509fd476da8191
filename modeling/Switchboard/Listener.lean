import Switchboard.Event
import Switchboard.Priority

/-!
# Listeners and interceptors

A listener binds a handler to an event key. It is invoked for the events
of that key and its descendants, in a mode that says whether the handler
is awaited or only started, unless one of its filters rejects the event.

Interceptors wrap what they are attached to. A processing interceptor
wraps a whole dispatch, a listener interceptor wraps one invocation of a
listener – around its filters or only around its handler, as its point
says. A listener interceptor is attached to one listener or serves all of
them.

What handlers, filters and interceptors do is left open here: they are
members of a type `β` whose meaning is given elsewhere.
-/

namespace Switchboard

/-- Whether a handler is awaited or only started. -/
inductive InvokeMode where
  /-- The dispatch awaits the handler. -/
  | blocking
  /-- The handler is started, and the dispatch records its handle. -/
  | async
deriving DecidableEq, Repr, Inhabited

namespace InvokeMode

/-- The name of a mode. -/
def name : InvokeMode → String
  | blocking => "blocking"
  | async => "async"

/-- The name of a mode for diagnosis. -/
def describe : InvokeMode → String
  | blocking => "Blocking"
  | async => "Async"

/-- Reads a mode. -/
def read (v : Json.View) : Json.Decoded InvokeMode :=
  (v.choice ["blocking", "async"]).map fun s => if s = "async" then async else blocking

/-- A mode is written as its name. -/
def toJson (m : InvokeMode) : Json := .str m.name

end InvokeMode

/-- Where a listener interceptor wraps the invocation of a listener. -/
inductive InterceptPoint where
  /-- Around the filters and the handler. -/
  | beforeMatch
  /-- Around the handler alone, once every filter has accepted. -/
  | afterMatch
deriving DecidableEq, Repr, Inhabited

namespace InterceptPoint

/-- The name of a point. -/
def name : InterceptPoint → String
  | beforeMatch => "before_match"
  | afterMatch => "after_match"

/-- The name of a point for diagnosis. -/
def describe : InterceptPoint → String
  | beforeMatch => "BeforeMatch"
  | afterMatch => "AfterMatch"

/-- Reads a point. -/
def read (v : Json.View) : Json.Decoded InterceptPoint :=
  (v.choice ["before_match", "after_match"]).map fun s =>
    if s = "after_match" then afterMatch else beforeMatch

/-- A point is written as its name. -/
def toJson (p : InterceptPoint) : Json := .str p.name

end InterceptPoint

/-- An interceptor with its place in the order: by priority, and by the
number it was given when it was added. -/
structure Interceptor (β : Type) where
  id : Id
  priority : Priority
  seq : Nat
  run : β

/-- A listener interceptor with the point it wraps. -/
structure ListenerInterceptor (β : Type) extends Interceptor β where
  point : InterceptPoint

namespace ListenerInterceptor

/-- The text of an interceptor for diagnosis. -/
def describe {β : Type} (i : ListenerInterceptor β) : String :=
  "ListenerInterceptorEntry \x7b entry: InterceptorEntry \x7b id: " ++ i.id.describe ++
    ", priority: " ++ i.priority.describe ++ ", seq: " ++ Number.natText i.seq ++
    ", .. \x7d, point: " ++ i.point.describe ++ " \x7d"

end ListenerInterceptor

/-- A piece of the context that a handler asks for. -/
inductive Parameter where
  /-- The context of the invocation. -/
  | listenerContext
  /-- The context of the dispatch. -/
  | eventContext
  /-- The event. -/
  | event
  /-- The message of the event. -/
  | message
  /-- The bot that received the event. -/
  | bot
  /-- The event as one of a concrete type. -/
  | eventOf (kind : String)
  /-- Something that may be missing. -/
  | optional (p : Parameter)
  /-- Something that is always missing, for a reason of its own. -/
  | refused (reason : String)
deriving DecidableEq, Repr

/-- A handler: what it asks for, and what it does once it has it. -/
structure Handler (β : Type) where
  parameters : List Parameter
  run : β

/-- A listener. -/
structure Listener (β : Type) where
  id : Id
  key : EventKey
  priority : Priority
  mode : InvokeMode
  /-- The filters, in the order in which they are asked. -/
  filters : List β
  /-- The interceptors attached to this listener, numbered as they stand. -/
  interceptors : List (ListenerInterceptor β)
  handler : Handler β

namespace Listener

variable {β : Type}

/-- Whether a listener is invoked for the events of a key. -/
def isTarget (l : Listener β) (key : EventKey) : Bool := key.isSubOf l.key

/-- The identifiers a listener brings along: its own, then those of its
interceptors. -/
def ids (l : Listener β) : List Id := l.id :: l.interceptors.map (·.id)

/-- Whether an identifier is one of a listener's. -/
def owns (l : Listener β) (id : Id) : Bool := l.ids.contains id

/-- The text of a listener for diagnosis. -/
def describe (l : Listener β) : String :=
  "Listener \x7b id: " ++ l.id.describe ++ ", key: " ++ l.key.describe ++ ", priority: " ++
    l.priority.describe ++ ", mode: " ++ l.mode.describe ++ ", filters: " ++
    Number.natText l.filters.length ++ ", interceptors: [" ++
    String.intercalate ", " (l.interceptors.map (·.describe)) ++ "], .. \x7d"

/-- An interceptor that is to be attached. -/
structure Attachment (β : Type) where
  id : Id
  priority : Priority
  point : InterceptPoint
  run : β

/-- The interceptors of a listener, numbered as they stand. -/
def attach (attachments : List (Attachment β)) : List (ListenerInterceptor β) :=
  attachments.mapIdx fun i a => { id := a.id, priority := a.priority, seq := i, run := a.run,
                                  point := a.point }

end Listener

/-- A listener was described without a handler. -/
structure BuildError where
  id : Id
  key : EventKey

namespace BuildError

/-- The message of an error. -/
def message (e : BuildError) : String :=
  "listener '" ++ e.id.text ++ "' on '" ++ e.key.name ++ "' has no handler"

end BuildError

/-- The description of a listener that is not finished yet. -/
structure ListenerDraft (β : Type) where
  id : Id
  key : EventKey
  priority : Priority
  mode : InvokeMode
  filters : List β
  attachments : List (Listener.Attachment β)
  handler : Option (Handler β)

namespace ListenerDraft

variable {β : Type}

/-- The description that only says which key a listener has. -/
def start (id : Id) (key : EventKey) : ListenerDraft β :=
  ⟨id, key, .normal, .blocking, [], [], none⟩

/-- **Finishes a listener**, which needs a handler. -/
def build (d : ListenerDraft β) : Except BuildError (Listener β) :=
  match d.handler with
  | none => .error ⟨d.id, d.key⟩
  | some handler =>
    .ok ⟨d.id, d.key, d.priority, d.mode, d.filters, Listener.attach d.attachments, handler⟩

end ListenerDraft

end Switchboard
