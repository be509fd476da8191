import Switchboard.Dispatch.Chain
import Switchboard.Reading

/-!
# Dispatching an event

A dispatch is a program over `hubCalls`: the calls of supplied code, and
those by which the hub itself is told what happens – that a dispatch
begins, that sessions are offered its event, that an outcome is recorded,
that a handler is started.

```
dispatch event
  sessions are offered the event
  processing interceptors
    for each listener the event goes to
      interceptors around the match
        filters
          interceptors around the handler
            handler
```

`attempt` runs one listener and gives its final result: that of its chain,
where a panic counts as a failure if panics are caught, and a failure is
replaced by what the handler of failures makes of it. `attendAll` runs the
listeners one after the other and records every result that is valid, up
to the first one that is truncated.
-/

namespace Switchboard

variable {β σ : Type}

/-- How dispatches go. -/
structure DispatchSettings where
  /-- A panic of a listener counts as its failure. -/
  catchPanics : Bool
deriving DecidableEq, Repr

namespace DispatchSettings

/-- Panics are caught. -/
def default : DispatchSettings := ⟨true⟩

instance : Inhabited DispatchSettings := ⟨default⟩

/-- Reads settings; what is not given is as in `default`. -/
def read {V E : Type} (r : Reading V E) : V → Except E DispatchSettings :=
  r.record "DispatchSettings" ["catch_panics"] default fun _ v _ =>
    (r.bool v).map DispatchSettings.mk

/-- The JSON form of the settings. -/
def toJson (s : DispatchSettings) : Json := .obj [("catch_panics", .bool s.catchPanics)]

end DispatchSettings

/-- A handler that is to be run on its own. -/
structure Job (β : Type) where
  handler : Handler β
  context : ListenerContext

/-- What a dispatch works on: the registry as it is at the beginning, and
a context of its own. -/
structure Beginning (β : Type) where
  processing : List (Interceptor β)
  targets : List (ResolvedListener β)
  context : EventContext

/-- The calls of a dispatch. -/
inductive HubCall (β σ : Type) where
  | user (c : UserCall β σ)
  /-- A dispatch begins. -/
  | start (e : Event)
  /-- The sessions that wait are taken hold of. -/
  | holdSessions
  /-- They are let go of, and these wait on. -/
  | keepSessions (ws : List (Waiter β))
  /-- They are let go of, and none of them waits on, these being dropped first. -/
  | loseSessions (ws : List (Waiter β))
  /-- A session receives an event. -/
  | deliver (s : Id) (e : Event)
  | record (c : EventContext) (o : Outcome)
  | markTruncated (c : EventContext)
  /-- A handler is started and not awaited. -/
  | spawn (job : Job β)

/-- The type of the reply to a call of a dispatch. -/
def HubCall.Reply : HubCall β σ → Type
  | user c => c.Reply
  | start _ => Beginning β
  | holdSessions => List (Waiter β)
  | keepSessions _ => Unit
  | loseSessions _ => Unit
  | deliver _ _ => Unit
  | record _ _ => Unit
  | markTruncated _ => Unit
  | spawn _ => Handle

/-- The calls of a dispatch. -/
@[reducible] def hubCalls (β σ : Type) : Signature := ⟨HubCall β σ, HubCall.Reply⟩

/-- A program of the hub. -/
abbrev HubProgram (β σ α : Type) := Program (hubCalls β σ) α

namespace HubProgram

/-- A call of supplied code, made for it. -/
def lift (c : UserCall β σ) : HubProgram β σ c.Reply := .call (.user c) .done

/-- Supplied code that may wait. -/
def ofUser {α : Type} (p : Program (userCalls β σ) α) : HubProgram β σ α := p.interpret lift

/-- Supplied code that must not wait. -/
def ofRequests {α : Type} (p : Program (requests β σ) α) : HubProgram β σ α :=
  p.interpret fun c => .call (.user (.request c)) .done

/-- One request. -/
def request (r : Request β σ) : HubProgram β σ r.Reply := .call (.user (.request r)) .done

end HubProgram

open HubProgram

/-! ## Handlers -/

/-- Runs a handler: takes its parameters, and if it can have them all,
calls it. -/
def runHandler (B : Behaviours β σ) (job : Job β) : HubProgram β σ EventResult :=
  match Parameter.extractAll job.context job.handler.parameters with
  | .error _ => .done .invalid
  | .ok args => (ofUser (B.handler job.handler.run args)).bind fun r => .done r.toResult

/-- A panic as the failure of a listener. -/
def asFailure : Except Payload EventResult → EventResult
  | .ok r => r
  | .error p => .failed (.ofPanic p)

/-- Runs a handler; a panic is a failure, if panics are caught. -/
def guardHandler (B : Behaviours β σ) (s : DispatchSettings) (job : Job β) :
    HubProgram β σ EventResult :=
  if s.catchPanics then (runHandler B job).recover.bind fun r => .done (asFailure r)
  else runHandler B job

/-- Replaces a failure by what the handler of failures makes of it. -/
def handleFailure (B : Behaviours β σ) (c : ListenerContext) :
    EventResult → HubProgram β σ EventResult
  | .failed f =>
    match B.onFailure with
    | some handle => ofRequests (handle c f)
    | none => .done (.failed f)
  | other => .done other

/-- What a started handler does. -/
def runJob (B : Behaviours β σ) (s : DispatchSettings) (job : Job β) :
    HubProgram β σ EventResult :=
  (guardHandler B s job).bind (handleFailure B job.context)

/-! ## One listener -/

/-- Whether all filters accept, asked in order up to the first that does not. -/
def acceptedBy (B : Behaviours β σ) (c : ListenerContext) : List β → HubProgram β σ Bool
  | [] => .done true
  | f :: rest =>
    (ofRequests (B.filter f c)).bind fun
      | true => acceptedBy B c rest
      | false => .done false

/-- The listener interceptors of a chain as its stages. -/
def listenerStages (B : Behaviours β σ) (c : ListenerContext) (is : List (Interceptor β)) :
    List (Stage β σ EventResult) :=
  is.map fun i => ⟨i.id, B.listenerInterceptor i.run c⟩

/-- The end of a listener's chain: its handler is awaited, or started. -/
def invoke (B : Behaviours β σ) (s : DispatchSettings) (l : Listener β) (c : ListenerContext)
    (f : Frame EventResult) :
    HubProgram β σ (Frame EventResult × Except DispatchError EventResult) :=
  match l.mode with
  | .blocking => (guardHandler B s ⟨l.handler, c⟩).bind fun r => .done (f, .ok r)
  | .async => .call (.spawn ⟨l.handler, c⟩) fun h => .done (f, .ok (.async h))

/-- The middle of a listener's chain: the filters, and the interceptors
around the handler, in the frame of the whole chain. -/
def matchThen (B : Behaviours β σ) (s : DispatchSettings) (r : ResolvedListener β)
    (c : ListenerContext) (f : Frame EventResult) :
    HubProgram β σ (Frame EventResult × Except DispatchError EventResult) :=
  (acceptedBy B c r.listener.filters).bind fun
    | true => runStages lift (invoke B s r.listener c) (listenerStages B c r.after) f
    | false => .done (f, .ok .invalid)

/-- Runs the chain of a listener. -/
def runListener (B : Behaviours β σ) (s : DispatchSettings) (r : ResolvedListener β)
    (c : ListenerContext) : HubProgram β σ (Except DispatchError EventResult) :=
  (runStages lift (matchThen B s r c) (listenerStages B c r.before) .start).bind
    fun (_, result) => .done result

/-- The context of one invocation. -/
def ResolvedListener.context (r : ResolvedListener β) (c : EventContext) : ListenerContext :=
  ⟨c, r.listener.id, r.listener.key, r.listener.priority⟩

/-- A panic of a listener's chain as the failure of the listener. -/
def chainFailure : Except Payload (Except DispatchError EventResult) →
    Except DispatchError EventResult
  | .ok r => r
  | .error p => .ok (.failed (.ofPanic p))

/-- Runs the chain of a listener; a panic is a failure, if panics are caught. -/
def guardListener (B : Behaviours β σ) (s : DispatchSettings) (r : ResolvedListener β)
    (c : ListenerContext) : HubProgram β σ (Except DispatchError EventResult) :=
  if s.catchPanics then (runListener B s r c).recover.bind fun r => .done (chainFailure r)
  else runListener B s r c

/-- **Runs a listener to its final result.** -/
def attempt (B : Behaviours β σ) (s : DispatchSettings) (c : EventContext)
    (r : ResolvedListener β) : HubProgram β σ (Except DispatchError EventResult) :=
  (guardListener B s r (r.context c)).bind fun
    | .error e => .done (.error e)
    | .ok result => (handleFailure B (r.context c) result).bind fun r => .done (.ok r)

/-! ## All listeners -/

/-- **Runs listeners one after the other**, and records their results. -/
def attendAll (B : Behaviours β σ) (s : DispatchSettings) (c : EventContext) :
    List (ResolvedListener β) → HubProgram β σ (Except DispatchError Unit)
  | [] => .done (.ok ())
  | r :: rest =>
    (attempt B s c r).bind fun
      | .error e => .done (.error e)
      | .ok result =>
        if result.isValid then
          .call (.record c ⟨r.listener.id, result⟩) fun _ =>
            if result.isTruncated then .call (.markTruncated c) fun _ => .done (.ok ())
            else attendAll B s c rest
        else attendAll B s c rest

/-- The end of the processing chain: the listeners are run, and the
outcomes collected. -/
def listenersStage (B : Behaviours β σ) (s : DispatchSettings) (b : Beginning β) :
    HubProgram β σ (Except DispatchError DispatchResult) :=
  (attendAll B s b.context b.targets).bind fun
    | .error e => .done (.error e)
    | .ok _ => (request (.outcomes b.context)).bind fun os => .done (.ok (.ofOutcomes os))

/-! ## Sessions -/

/-- Whether a session accepts the event of a dispatch. -/
def acceptedByWaiter (B : Behaviours β σ) (c : EventContext) (w : Waiter β) :
    HubProgram β σ Bool :=
  if w.forMessages && c.event.message.isNone then .done false
  else ofRequests (B.matcher w.matcher c)

/-- Offers the event of a dispatch to sessions one after the other; `kept`
are those before them that wait on. When a matcher panics, all that have
not received the event are lost. -/
def offer (B : Behaviours β σ) (c : EventContext) (kept : List (Waiter β)) :
    List (Waiter β) → HubProgram β σ Unit
  | [] => .call (.keepSessions kept) fun _ => .done ()
  | w :: rest =>
    if w.abandoned then offer B c kept rest
    else
      (acceptedByWaiter B c w).recover.bind fun
        | .ok true => .call (.deliver w.id c.event) fun _ => offer B c kept rest
        | .ok false => offer B c (kept ++ [w]) rest
        | .error p => .call (.loseSessions (w :: rest ++ kept)) fun _ => .panic p

/-- **Resumes the sessions that accept the event of a dispatch.** -/
def resumeSessions (B : Behaviours β σ) (c : EventContext) : HubProgram β σ Unit :=
  .call .holdSessions fun ws => offer B c [] ws

/-! ## The whole dispatch -/

/-- The processing interceptors as the stages of a chain. -/
def processingStages (B : Behaviours β σ) (c : EventContext) (is : List (Interceptor β)) :
    List (Stage β σ DispatchResult) :=
  is.map fun i => ⟨i.id, B.processingInterceptor i.run c⟩

/-- The result of a dispatch whose processing chain gave this one, and was
stopped or not. -/
def DispatchResult.ofChain (r : DispatchResult) (stopped : Bool) : DispatchResult :=
  if stopped then { r with shortCircuited := true } else r

/-- **Dispatches an event.** -/
def dispatch (B : Behaviours β σ) (s : DispatchSettings) (e : Event) :
    HubProgram β σ (Except DispatchError DispatchResult) :=
  .call (.start e) fun b =>
    (resumeSessions B b.context).bind fun _ =>
      (runChain lift (listenersStage B s b) (processingStages B b.context b.processing)).bind
        fun result => .done (result.map fun (r, stopped) => r.ofChain stopped)

end Switchboard
