import Switchboard.Attributes
import Switchboard.Context
import Switchboard.Program.Basic
import Switchboard.Registry.Basic
import Switchboard.Session

/-!
# What supplied code can do

The calls open to the code a user supplies, from the narrowest to the
widest signature:

* `requests` are answered at once. Filters, session matchers and the
  handler of failures are limited to them, so they cannot wait.
* `userCalls` adds waiting – for time to pass, for the result behind a
  handle, for a session – and inner dispatches. Handlers use these.
* `chainCalls` adds the calls of an interceptor on its chain: to proceed,
  to short-circuit, to look at the state of the chain.

Code is named by members of a type `β`, and a `Behaviours β σ` says what
each name does in each role. The type `σ` is memory of the user's own,
which requests read and replace.
-/

namespace Switchboard

variable {β σ : Type}

/-- Why a dispatch was given up. -/
inductive DispatchError where
  /-- An interceptor proceeded a second time. -/
  | doubleProceed (interceptor : Id)
  /-- A blocking dispatch has no scheduler to run on. -/
  | noRuntime
  /-- A blocking dispatch was asked for by code that the scheduler runs. -/
  | withinRuntime
  /-- An interceptor gave an error of its own. -/
  | interceptor (message : String)
deriving DecidableEq

namespace DispatchError

/-- The message of an error. -/
def message : DispatchError → String
  | doubleProceed id => "interceptor '" ++ id.text ++ "' proceeded more than once"
  | noRuntime => "no tokio runtime available for blocking dispatch"
  | withinRuntime => "blocking dispatch called from within an async runtime context"
  | interceptor message => "interceptor failed: " ++ message

end DispatchError

/-- One of the two attribute maps a dispatch can reach. -/
inductive Scope where
  /-- The map of one dispatch. -/
  | dispatch (c : EventContext)
  /-- The map all dispatches share. -/
  | shared

/-- Calls that are answered at once. -/
inductive Request (β σ : Type) where
  /-- The outcomes a dispatch has recorded. -/
  | outcomes (c : EventContext)
  /-- Whether a listener has ended a dispatch for later ones. -/
  | isTruncated (c : EventContext)
  | attributes (s : Scope)
  | setAttributes (s : Scope) (a : Attributes)
  /-- What the registry holds. -/
  | snapshot
  | isProcessable (key : EventKey)
  | registerAll (ls : List (Listener β))
  | addProcessing (id : Id) (priority : Priority) (run : β)
  | addServing (id : Id) (priority : Priority) (point : InterceptPoint) (run : β)
  | unregister (id : Id)
  | clearRegistry
  | openSession (forMessages : Bool) (matcher : β)
  | cancelSession (s : Id)
  | abandonSession (s : Id)
  | clearSessions
  /-- The number of sessions that wait for somebody. -/
  | pendingSessions
  /-- A handle whose result is there already. -/
  | readyHandle (r : EventResult)
  /-- The results behind all handles. -/
  | handles
  /-- A fresh identifier. -/
  | drawId
  /-- The user's own memory. -/
  | memory
  | setMemory (memory : σ)

/-- The type of the reply to a request. -/
def Request.Reply : Request β σ → Type
  | outcomes _ => List Outcome
  | isTruncated _ => Bool
  | attributes _ => Attributes
  | setAttributes _ _ => Unit
  | snapshot => Snapshot β
  | isProcessable _ => Bool
  | registerAll _ => Except RegistryError Unit
  | addProcessing _ _ _ => Except RegistryError Unit
  | addServing _ _ _ _ => Except RegistryError Unit
  | unregister _ => Except RegistryError (Removed β)
  | clearRegistry => Unit
  | openSession _ _ => Id
  | cancelSession _ => Bool
  | abandonSession _ => Unit
  | clearSessions => Unit
  | pendingSessions => Nat
  | readyHandle _ => Handle
  | handles => Handles
  | drawId => Id
  | memory => σ
  | setMemory _ => Unit

/-- The time a session is waited for: so many milliseconds from a point
of time, or from the beginning of the wait. -/
structure Timeout where
  milliseconds : Nat
  since : Option Nat
deriving DecidableEq

/-- Calls that may have to wait. -/
inductive Wait where
  /-- Lets everything else that is ready go first. -/
  | yield
  | sleep (milliseconds : Nat)
  /-- Waits for the result behind a handle. -/
  | handle (h : Handle)
  /-- Waits for the event of a session. -/
  | session (s : Id) (timeout : Option Timeout)
  /-- Waits until no started handler is unfinished. -/
  | idle

/-- The type of the reply to a wait. -/
def Wait.Reply : Wait → Type
  | yield => Unit
  | sleep _ => Unit
  | handle _ => EventResult
  | session _ _ => Except SessionError Event
  | idle => Unit

/-- Calls of code that may wait. -/
inductive UserCall (β σ : Type) where
  | request (r : Request β σ)
  | wait (w : Wait)
  /-- A dispatch inside a dispatch. -/
  | dispatch (e : Event)

/-- The type of the reply to a call of code that may wait. A panic that
comes out of an inner dispatch is part of the reply. -/
def UserCall.Reply : UserCall β σ → Type
  | request r => r.Reply
  | wait w => w.Reply
  | dispatch _ => Except Payload (Except DispatchError DispatchResult)

/-- What an interceptor can see of its chain. -/
structure ChainState where
  /-- The interceptor itself. -/
  owner : Id
  /-- Whether some stage of the chain has stopped it. -/
  stopped : Bool
  /-- Whether the interceptor has proceeded. -/
  proceeded : Bool

/-- Calls of an interceptor whose chain ends in an `ρ`. -/
inductive ChainCall (β σ ρ : Type) where
  | user (c : UserCall β σ)
  /-- Goes on with the rest of the chain. -/
  | proceed
  /-- Stops the chain and gives it a result. -/
  | shortCircuit (r : ρ)
  | state

/-- The type of the reply to a call of an interceptor. -/
def ChainCall.Reply {ρ : Type} : ChainCall β σ ρ → Type
  | user c => c.Reply
  | proceed => Except DispatchError ρ
  | shortCircuit _ => Unit
  | state => ChainState

/-- The calls of filters, session matchers and the handler of failures. -/
@[reducible] def requests (β σ : Type) : Signature := ⟨Request β σ, Request.Reply⟩

/-- The calls of handlers. -/
@[reducible] def userCalls (β σ : Type) : Signature := ⟨UserCall β σ, UserCall.Reply⟩

/-- The calls of interceptors. -/
@[reducible] def chainCalls (β σ ρ : Type) : Signature := ⟨ChainCall β σ ρ, ChainCall.Reply⟩

/-- **What supplied code does**, by its name and its role. -/
structure Behaviours (β σ : Type) where
  /-- Whether a filter accepts an invocation. -/
  filter : β → ListenerContext → Program (requests β σ) Bool
  /-- Whether a session accepts an event. -/
  matcher : β → EventContext → Program (requests β σ) Bool
  /-- What a handler does with the parameters it asked for. -/
  handler : β → List Argument → Program (userCalls β σ) Returned
  listenerInterceptor : β → ListenerContext →
    Program (chainCalls β σ EventResult) (Except DispatchError EventResult)
  processingInterceptor : β → EventContext →
    Program (chainCalls β σ DispatchResult) (Except DispatchError DispatchResult)
  /-- What is recorded in place of a failure, if failures are handled. -/
  onFailure : Option (ListenerContext → Failure → Program (requests β σ) EventResult)

namespace Program

/-- One request. -/
def request (r : Request β σ) : Program (requests β σ) r.Reply := call r done

/-- A program of requests as one that may wait. -/
def ofRequests {α : Type} : Program (requests β σ) α → Program (userCalls β σ) α :=
  interpret fun c => .call (.request c) done

/-- A program that may wait as one of an interceptor. -/
def ofUser {α ρ : Type} : Program (userCalls β σ) α → Program (chainCalls β σ ρ) α :=
  interpret fun c => .call (.user c) done

/-- **An inner dispatch.** A panic that comes out of it goes on. -/
def dispatch (e : Event) : Program (userCalls β σ) (Except DispatchError DispatchResult) :=
  call (.dispatch e) ofExcept

/-- Waits. -/
def await (w : Wait) : Program (userCalls β σ) w.Reply := call (.wait w) done

end Program

namespace EventResult

/-- **Waits for the result behind a handle.** Other results are final. -/
def settle : EventResult → Program (userCalls β σ) EventResult
  | async h => .await (.handle h)
  | other => .done other

end EventResult

namespace DispatchResult

/-- Waits for the results of several outcomes, one after the other. -/
def settleAll : List Outcome → Program (userCalls β σ) (List Outcome)
  | [] => .done []
  | o :: rest =>
    o.result.settle.bind fun r =>
      (settleAll rest).bind fun os => .done (⟨o.listener, r⟩ :: os)

/-- **Waits for the results of a dispatch.** -/
def settle (r : DispatchResult) : Program (userCalls β σ) DispatchResult :=
  (settleAll r.outcomes).bind fun os => .done { r with outcomes := os }

end DispatchResult

end Switchboard
