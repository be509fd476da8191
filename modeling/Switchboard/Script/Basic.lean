import Switchboard.Report

/-!
# Scripts

A hub can be driven by somebody who does not write Lean: what its
handlers, filters, matchers and interceptors do is then given as data, as
**scripts**.

* A `Condition` is a filter or the matcher of a session.
* An `Action` is something a handler or an interceptor does on its way:
  it notes something, waits, uses attributes, dispatches an event, or
  makes an `Operation` on the hub.
* A `Stance` is what an interceptor does with its chain, or an action.

Scripts speak of results by terms, since a result that hides behind a
handle only comes to be when the script is run.

`Code` gathers all scripts in one type, by whose members a hub calls the
code it is supplied with. As an operation can register listeners with
scripts of their own, the types before it take it as a parameter.
-/

namespace Switchboard.Script

/-- A condition on the dispatch that is going on. -/
inductive Condition where
  | always
  | never
  /-- The event has a message that says this. -/
  | textIs (s : String)
  | hasMessage
  | hasBot
  | botIs (id : Id)
  | keyIs (key : EventKey)
  | keyDescendsFrom (key : EventKey)
  | kindIs (kind : String)
  /-- The dispatch has an attribute. -/
  | dispatchHas (kind : String)
  /-- All dispatches share an attribute. -/
  | sharedHas (kind : String)
  /-- So many outcomes are recorded. -/
  | outcomesAtLeast (n : Int)
  | listenerIs (id : Id)
  | listenerKeyIs (key : EventKey)
  | priorityBelow (n : Int)
  | not (c : Condition)
  /-- All hold; the first that does not is the last to be looked at. -/
  | all (cs : List Condition)
  /-- Notes under a name whether a condition holds. -/
  | noted (name : Json) (c : Condition)
  | panics (p : Payload)

/-- A term for the result of a listener. -/
inductive ResultTerm where
  | exactly (r : EventResult)
  | truncated (t : ResultTerm)
  /-- A handle whose result is there already. -/
  | ready (t : ResultTerm)

/-- A term for what a handler returns. -/
inductive ReturnTerm where
  | exactly (r : Returned)
  | present (t : ReturnTerm)
  | ok (t : ReturnTerm)
  | result (t : ResultTerm)

/-- What a handler returns once it has done what it does. -/
inductive HandlerReturn where
  | term (t : ReturnTerm)
  /-- The arguments it was given. -/
  | arguments
  /-- The answer to its last action. -/
  | lastAnswer
  /-- An attribute of the dispatch, if it is there. -/
  | attributeOf (kind : String)
  /-- What the message of the event says, if it has one. -/
  | plainText

/-- A term for an outcome. -/
structure OutcomeTerm where
  listener : Id
  result : ResultTerm

/-- A term for the result of a dispatch. -/
structure DispatchTerm where
  outcomes : List OutcomeTerm
  shortCircuited : Bool

/-- A use of an attribute map. -/
inductive AttributeUse where
  | set (kind : String) (v : Json)
  | get (kind : String)
  | take (kind : String)
  | has (kind : String)
  /-- Gets the value of a kind, after setting it if there is none. -/
  | ensure (kind : String) (v : Json)
  | size
  | isEmpty
  | clear

/-- An interceptor to be attached to a listener. -/
structure AttachmentTerm (β : Type) where
  /-- Without one, an identifier is drawn. -/
  id : Option Id
  priority : Priority
  point : InterceptPoint
  run : β

/-- A listener to be built. -/
structure ListenerTerm (β : Type) where
  key : EventKey
  /-- Without one, an identifier is drawn. -/
  id : Option Id
  priority : Priority
  mode : InvokeMode
  filters : List β
  attachments : List (AttachmentTerm β)
  /-- A listener without a handler cannot be built. -/
  handler : Option (Handler β)

/-- Something done with the hub, from within a dispatch or without. -/
inductive Operation (β : Type) where
  | register (l : ListenerTerm β)
  | registerAll (ls : List (ListenerTerm β))
  | addProcessing (id : Id) (priority : Priority) (run : β)
  | addServing (id : Id) (priority : Priority) (point : InterceptPoint) (run : β)
  | unregister (id : Id)
  | clear
  | lookup (id : Id)
  | contains (id : Id)
  | listeners
  | order
  | isProcessable (key : EventKey)
  /-- The numbers of listeners, interceptors and sessions. -/
  | counts
  | settings
  /-- Everything in the words for diagnosis. -/
  | describeAll
  | sessionCount
  | clearSessions
  /-- Opens a session and keeps it under a name. -/
  | openNamed (name : String) (forMessages : Bool) (matcher : β) (milliseconds : Option Nat)
  /-- Gives up the session kept under a name. -/
  | dropNamed (name : String)
  /-- Cancels the session kept under a name. -/
  | cancelNamed (name : String)
  /-- Uses the attributes all dispatches share. -/
  | shared (use : AttributeUse)

/-- Something a handler or an interceptor does on its way. -/
inductive Action (β : Type) where
  | note (v : Json)
  | yield (times : Nat)
  | sleep (milliseconds : Nat)
  | panics (p : Payload)
  /-- Uses the attributes of the dispatch. -/
  | useAttributes (use : AttributeUse)
  | context
  | outcomes
  /-- The context in the words for diagnosis. -/
  | describe
  /-- Counts in an attribute all dispatches share. -/
  | count
  /-- Opens a session and waits for its event. -/
  | wait (forMessages : Bool) (matcher : β) (milliseconds : Option Nat)
  | dispatch (e : Event)
  | dispatchBlocking (e : Event)
  | operate (o : Operation β)

/-- Something with the words its answer is noted with. Without words, the
answer is noted as it is. -/
structure Tagged (α : Type) where
  tag : List Json
  body : α

/-- What a listener interceptor can change in the result it has. -/
inductive ResultChange where
  | truncate

/-- What a processing interceptor can change in the result it has. -/
inductive DispatchChange where
  | append (o : OutcomeTerm)
  | markShortCircuited (b : Bool)

/-- A step of an interceptor. The interceptor **has** the result it got
last; terms for results are of type `τ`, changes of type `δ`. -/
inductive Stance (τ δ β : Type) where
  /-- Proceeds; an error ends the interceptor. -/
  | proceed
  /-- Proceeds; an error is noted. -/
  | attempt
  | shortCircuit (t : τ)
  /-- Returns a result. -/
  | finish (t : τ)
  /-- Returns the result it has. -/
  | finishWithLast
  | fail (message : String)
  /-- Notes what it sees of the chain. -/
  | flags
  /-- Notes who it is, and for which listener it works. -/
  | identity
  /-- Notes the result it has. -/
  | show
  /-- Waits for the result it has. -/
  | settle
  | change (c : δ)
  /-- Returns a result unless a condition holds. -/
  | require (c : Condition) (t : τ)
  | act (a : Tagged (Action β))

/-- **All scripts.** -/
inductive Code where
  /-- A filter. -/
  | condition (c : Condition)
  /-- The matcher of a session, which may note what it is offered. -/
  | matcher (announced : Bool) (c : Condition)
  /-- A handler; one that has the context of its invocation is given it
  before its arguments. -/
  | handler (hasContext : Bool) (actions : List (Tagged (Action Code))) (returns : HandlerReturn)
  | listenerInterceptor (stances : List (Stance ResultTerm ResultChange Code))
  | processingInterceptor (stances : List (Stance DispatchTerm DispatchChange Code))
  /-- A registrar for the records of one component, or of all if none is
  given; it may be one that always fails. -/
  | registrar (component : Option String) (failure : Option String)
  /-- A script with a number, by which two copies of it can be told apart. -/
  | numbered (number : Nat) (code : Code)

end Switchboard.Script
