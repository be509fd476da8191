import Switchboard.Program.Call

/-!
# Reports

The JSON forms in which the values of a hub are reported to somebody who
watches it: events, results, listeners, and errors. An error is an object
whose member `error` names the kind of error; the other members say what
it is about.

A result that is not there yet is reported as such, and so is one that
nobody has awaited: a report changes nothing and waits for nothing.
-/

namespace Switchboard

/-- What may be missing: an array of one item, or null. -/
def Json.ofOption : Option Json → Json
  | some v => .arr [v]
  | none => .null

/-- A natural number. -/
def Json.ofNat (n : Nat) : Json := .int n

namespace Id

/-- The report of an identifier, with its description if this is asked
for. -/
def report (id : Id) (described : Bool) : Json :=
  .obj ([("id", id.toJson), ("display", .str id.text),
    ("as_i64", (id.toInt?.map Json.int).getD .null)] ++
      if described then [("debug", .str id.describe)] else [])

end Id

namespace Message

/-- The report of a message: its texts and what it is made of. -/
def report (m : Message) : Json :=
  let each (f : Segment → Json) : Json := .arr (m.segments.map f)
  .obj [("json", m.toJson), ("text", .str m.plainText), ("display", .str m.display),
    ("each", each (.str ·.display)), ("types", each (.str ·.kind)),
    ("is_text", each (.bool ·.text?.isSome)), ("len", .ofNat m.segments.length)]

end Message

namespace Event

/-- The report of an event. -/
def report (e : Event) : Json :=
  .obj [("key", .str e.key.name), ("type", .str e.kind), ("text", .ofText? e.plainText),
    ("bot", (e.bot.map Id.toJson).getD .null)]

end Event

namespace Failure

/-- The report of a failure. -/
def report (f : Failure) : Json :=
  .obj [("message", .str f.message), ("panicked", .bool f.panicked), ("display", .str f.display)]

end Failure

namespace EventResult

/-- The report of a result, in which handles are followed `depth` deep. -/
def reportTo (t : Handles) (depth : Nat) : EventResult → Json
  | invalid => .obj [("kind", .str "invalid")]
  | value content truncated =>
    .obj (("kind", .str "value") :: ("truncated", .bool truncated) ::
      (content.map fun v => ("content", v)).toList)
  | failed f => .obj [("kind", .str "failed"), ("failure", f.report)]
  | async h =>
    match depth, t.peek? h with
    | depth + 1, some r => .obj [("kind", .str "async"), ("done", reportTo t depth r)]
    | _, _ => .obj [("kind", .str "async")]

/-- **The report of a result.** No chain of handles is longer than the
table. -/
def report (t : Handles) (r : EventResult) : Json := r.reportTo t t.cells.length

/-- The report of a result with what can be asked of it. -/
def facts (t : Handles) (r : EventResult) : Json :=
  .obj [("result", r.report t), ("valid", .bool r.isValid), ("truncated", .bool r.isTruncated),
    ("failed", .bool r.isFailed), ("content", .ofOption r.content?),
    ("failure", .ofText? (r.failure?.map (·.message)))]

end EventResult

namespace Outcome

/-- The report of an outcome. -/
def report (t : Handles) (o : Outcome) : Json := .arr [o.listener.toJson, o.result.report t]

end Outcome

namespace DispatchResult

/-- The report of the result of a dispatch. -/
def report (t : Handles) (r : DispatchResult) : Json :=
  .obj [("outcomes", .arr (r.outcomes.map (·.report t))),
    ("short_circuited", .bool r.shortCircuited), ("contents", .arr r.contents),
    ("failures", .arr (r.failures.map (·.listener.toJson))),
    ("listeners", .arr (r.listeners.map Id.toJson)),
    ("len", .ofNat r.outcomes.length), ("empty", .bool r.outcomes.isEmpty)]

/-- The short report of the result of a dispatch. -/
def brief (t : Handles) (r : DispatchResult) : Json :=
  .arr [.arr (r.outcomes.map (·.report t)), .bool r.shortCircuited]

end DispatchResult

namespace DispatchError

/-- The report of an error. -/
def report (e : DispatchError) : Json :=
  let message := ("message", Json.str e.message)
  match e with
  | doubleProceed id =>
    .obj [("error", .str "DoubleProceed"), ("interceptor", id.toJson), message]
  | noRuntime => .obj [("error", .str "NoRuntime"), message]
  | withinRuntime => .obj [("error", .str "WithinRuntime"), message]
  | interceptor _ => .obj [("error", .str "Interceptor"), message]

end DispatchError

/-- The report of what a dispatch has led to. -/
def reportDispatched (t : Handles) : Except DispatchError DispatchResult → Json
  | .ok r => r.report t
  | .error e => e.report

namespace SessionError

/-- The report of an error. -/
def report (e : SessionError) : Json :=
  let message := ("message", Json.str e.message)
  match e with
  | closed _ => .obj [("error", .str "Closed"), message]
  | timedOut _ _ => .obj [("error", .str "Timeout"), message]

end SessionError

/-- The report of what the wait for a session has led to. -/
def reportWaited : Except SessionError Event → Json
  | .ok e => .obj [("event", e.report)]
  | .error e => e.report

namespace RegistryError

/-- The report of an error. -/
def report (e : RegistryError) : Json :=
  let kind := match e with
    | duplicateListener _ => "DuplicateListenerId"
    | duplicateInterceptor _ => "DuplicateInterceptorId"
    | notFound _ => "NotFound"
  .obj [("error", .str kind), ("id", e.id.toJson), ("message", .str e.message)]

end RegistryError

/-- The report of a change of the registry. -/
def reportChanged : Except RegistryError Unit → Json
  | .ok () => .str "ok"
  | .error e => e.report

namespace BuildError

/-- The report of an error about a listener that has an identifier of its
own. -/
def report (e : BuildError) : Json :=
  .obj [("error", .str "IncompleteListener"), ("id", e.id.toJson), ("key", .str e.key.name),
    ("message", .str e.message)]

/-- The report of an error about a listener without one. -/
def reportAnonymous (key : EventKey) : Json :=
  .obj [("error", .str "IncompleteListener"), ("key", .str key.name)]

end BuildError

namespace ExtractError

/-- The report of an error. -/
def report (e : ExtractError) : Json :=
  match e with
  | wrongKind _ key => .obj [("error", .str "EventTypeMismatch"), ("got", .str key.name)]
  | missing _ => .obj [("error", .str "Missing"), ("message", .str e.message)]
  | refused _ => .obj [("error", .str "Custom"), ("message", .str e.message)]

end ExtractError

namespace Removed

/-- The report of what was removed. -/
def report {β : Type} : Removed β → Json
  | listener l => .arr [.str "listener", l.id.toJson]
  | processing id => .arr [.str "processing", id.toJson]
  | serving id => .arr [.str "listener_interceptor", id.toJson]

end Removed

namespace Listener

/-- The report of a listener. -/
def report {β : Type} (l : Listener β) : Json :=
  .obj [("id", l.id.toJson), ("key", .str l.key.name), ("priority", l.priority.toJson),
    ("mode", l.mode.toJson), ("filters", .ofNat l.filters.length),
    ("interceptors", .arr (l.interceptors.map fun i =>
      .arr [i.id.toJson, i.priority.toJson, i.point.toJson]))]

end Listener

namespace Snapshot

/-- The reports of all listeners, in their order. -/
def report {β : Type} (s : Snapshot β) : Json := .arr (s.listeners.map (·.listener.report))

end Snapshot

namespace Argument

/-- The report of an argument; `outcomes` and `truncated` say how far its
dispatch has come. A message, a bot or an event that might have been
missing is reported in short. -/
def report (outcomes : Nat) (truncated : Bool) : Argument → Json
  | listenerContext c => .arr [.str c.key.name, c.priority.toJson, .str c.event.key.name]
  | eventContext c => .arr [.str c.event.key.name, .ofNat outcomes, .bool truncated]
  | event e => e.report
  | message m => m.toJson
  | bot id => id.toJson
  | eventOf e => e.data
  | optional none => .null
  | optional (some (message m)) => .str m.plainText
  | optional (some (bot id)) => id.toJson
  | optional (some a) => .arr [report outcomes truncated a]

end Argument

end Switchboard
