import Switchboard.Id
import Switchboard.Json.Describe

/-!
# Results of listeners and of dispatches

What one listener makes of an event is an `EventResult`: nothing, when it
did not handle the event (`invalid`); a value, with or without content,
that may end the dispatch for the listeners behind it (`truncated`); the
failure of its handler; or, when the handler was started and not awaited,
the handle of a result that comes later.

A handle is the number of a cell in a table of results (`Handles`). The
cell is filled once. It counts as **observed** from the time somebody has
awaited it and seen its result, and only an observed result can be looked
at without waiting.

A dispatch collects the results of its listeners, in the order of the
listeners, into a `DispatchResult`.
-/

namespace Switchboard

/-- What is thrown by code that panics: a text, or something else. -/
inductive Payload where
  | text (s : String)
  | opaqueValue
deriving DecidableEq, Repr

/-- Why a handler gave no result. -/
structure Failure where
  message : String
  panicked : Bool
deriving DecidableEq, Repr

namespace Failure

/-- The failure of a handler that returned an error. -/
def ofError (message : String) : Failure := ⟨message, false⟩

/-- The failure of a handler that panicked. A payload that is no text
says nothing. -/
def ofPanic : Payload → Failure
  | .text s => ⟨s, true⟩
  | .opaqueValue => ⟨"handler panicked", true⟩

/-- The text of a failure. -/
def display (f : Failure) : String :=
  (if f.panicked then "handler panicked: " else "handler failed: ") ++ f.message

/-- The text of a failure for diagnosis. -/
def describe (f : Failure) : String :=
  "ListenerFailure \x7b message: " ++ Text.quoted f.message ++ ", panicked: " ++
    (if f.panicked then "true" else "false") ++ " \x7d"

end Failure

/-- The number of a cell that will hold a result. -/
structure Handle where
  index : Nat
deriving DecidableEq, Repr

/-- What a listener makes of an event. -/
inductive EventResult where
  /-- The listener did not handle the event. -/
  | invalid
  /-- The listener handled the event. -/
  | value (content : Option Json) (truncated : Bool)
  /-- The listener was started; its result comes later. -/
  | async (handle : Handle)
  /-- The handler gave no result. -/
  | failed (failure : Failure)
deriving Inhabited

namespace EventResult

/-- A value without content. -/
def empty : EventResult := value none false

/-- A value without content that ends the dispatch for later listeners. -/
def truncate : EventResult := value none true

/-- A value with content. -/
def of (content : Json) : EventResult := value (some content) false

/-- Makes a value end the dispatch for later listeners. -/
def asTruncated : EventResult → EventResult
  | value content _ => value content true
  | other => other

/-- Whether the listener handled the event. -/
def isValid : EventResult → Bool
  | invalid => false
  | _ => true

/-- Whether the result ends the dispatch for later listeners. -/
def isTruncated : EventResult → Bool
  | value _ truncated => truncated
  | _ => false

/-- Whether the handler gave no result. -/
def isFailed : EventResult → Bool
  | failed _ => true
  | _ => false

/-- The content of a value. -/
def content? : EventResult → Option Json
  | value content _ => content
  | _ => none

/-- The failure of a handler that gave no result. -/
def failure? : EventResult → Option Failure
  | failed f => some f
  | _ => none

@[simp] theorem isTruncated_asTruncated (r : EventResult) :
    r.asTruncated.isTruncated = true ↔ ∃ content t, r = value content t := by
  cases r <;> simp [asTruncated, isTruncated]

end EventResult

/-- What a handler returns, before it is taken as a result. -/
inductive Returned where
  | nothing
  | text (s : String)
  | json (v : Json)
  | bool (b : Bool)
  | absent
  | present (r : Returned)
  | ok (r : Returned)
  | error (message : String)
  | result (r : EventResult)

namespace Returned

/-- **The result a returned value stands for.** An absent value means
that the event was not handled, an error is a failure. -/
def toResult : Returned → EventResult
  | nothing => .empty
  | text s => .of (.str s)
  | json v => .of v
  | bool b => .of (.bool b)
  | absent => .invalid
  | present r => r.toResult
  | ok r => r.toResult
  | error message => .failed (.ofError message)
  | result r => r

end Returned

/-- A cell that holds a result once it is there. -/
structure Cell where
  result : Option EventResult
  observed : Bool

/-- The table of all cells. -/
structure Handles where
  cells : List Cell

namespace Handles

/-- The table without cells. -/
def empty : Handles := ⟨[]⟩

/-- Adds a cell and gives its handle. -/
def add (t : Handles) (result : Option EventResult) : Handle × Handles :=
  (⟨t.cells.length⟩, ⟨t.cells ++ [⟨result, false⟩]⟩)

/-- The result in a cell, if it is there. -/
def result? (t : Handles) (h : Handle) : Option EventResult :=
  t.cells[h.index]?.bind (·.result)

/-- The result in a cell, if somebody has seen it. -/
def peek? (t : Handles) (h : Handle) : Option EventResult :=
  t.cells[h.index]?.bind fun c => if c.observed then c.result else none

/-- Fills a cell, unless it is filled already. -/
def complete (t : Handles) (h : Handle) (r : EventResult) : Handles :=
  ⟨t.cells.modify h.index fun c => { c with result := c.result.or (some r) }⟩

/-- Marks a cell as observed. -/
def observe (t : Handles) (h : Handle) : Handles :=
  ⟨t.cells.modify h.index fun c => { c with observed := true }⟩

/-- A cell that is filled keeps its result. -/
theorem result?_complete_of_some {t : Handles} {h : Handle} {r : EventResult}
    (hr : t.result? h = some r) (h' : Handle) (r' : EventResult) :
    (t.complete h' r').result? h = some r := by
  unfold result? complete at *
  simp only [List.getElem?_modify]
  cases hc : t.cells[h.index]? with
  | none => simp [hc] at hr
  | some c =>
    simp only [hc, Option.bind_some] at hr
    by_cases hi : h'.index = h.index <;> simp [hi, hr]

end Handles

namespace EventResult

/-- The text of a result for diagnosis. -/
def describe (t : Handles) : EventResult → String
  | invalid => "Invalid"
  | value content truncated =>
    "Value \x7b content: " ++
      (match content with
        | none => "None"
        | some v => "Some(" ++ v.describe ++ ")") ++
      ", truncated: " ++ (if truncated then "true" else "false") ++ " \x7d"
  | async h =>
    "Async(AsyncHandle \x7b completed: " ++
      (if (t.peek? h).isSome then "true" else "false") ++ " \x7d)"
  | failed f => "Failed(" ++ f.describe ++ ")"

end EventResult

/-- The recorded result of one listener. -/
structure Outcome where
  listener : Id
  result : EventResult

/-- The collected results of one dispatch. -/
structure DispatchResult where
  /-- The recorded results, in the order of the listeners. -/
  outcomes : List Outcome
  /-- Whether an interceptor kept the dispatch from the listeners. -/
  shortCircuited : Bool

namespace DispatchResult

/-- The result of a dispatch that recorded nothing. -/
def empty : DispatchResult := ⟨[], false⟩

/-- The result of a dispatch with these outcomes. -/
def ofOutcomes (outcomes : List Outcome) : DispatchResult := ⟨outcomes, false⟩

/-- The contents of all values. -/
def contents (r : DispatchResult) : List Json := r.outcomes.filterMap (·.result.content?)

/-- The outcomes of the handlers that gave no result. -/
def failures (r : DispatchResult) : List Outcome := r.outcomes.filter (·.result.isFailed)

/-- The listeners that have an outcome. -/
def listeners (r : DispatchResult) : List Id := r.outcomes.map (·.listener)

/-- The text of the result of a dispatch for diagnosis. -/
def describe (t : Handles) (r : DispatchResult) : String :=
  let outcome (o : Outcome) : String :=
    "ListenerOutcome \x7b listener: " ++ o.listener.describe ++ ", result: " ++
      o.result.describe t ++ " \x7d"
  "DispatchResult \x7b outcomes: [" ++ String.intercalate ", " (r.outcomes.map outcome) ++
    "], short_circuited: " ++ (if r.shortCircuited then "true" else "false") ++ " \x7d"

end DispatchResult

end Switchboard
