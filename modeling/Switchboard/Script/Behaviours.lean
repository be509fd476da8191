import Switchboard.Script.Operation

/-!
# What scripts do

`Action.run` says what an action does and what the answer to it is, a list
of parts, or none if there is nothing to say. `runStances` is the life of
an interceptor. `Script.behaviours` gives all scripts their meaning in the
roles a hub has for supplied code; a script in a role it is not made for
panics.
-/

namespace Switchboard.Script

/-- Waits for a number of rounds. -/
def yields : Nat → Acting Unit
  | 0 => .done ()
  | n + 1 => (Program.await .yield).bind fun _ => yields n

/-- Something that must not wait, on the way of something that may. -/
def ask {α : Type} (p : Asking α) : Acting α := .ofRequests p

/-- The value of the counter in an attribute. -/
def counter (a : Attributes) : Int := ((a.get? "A").bind Json.int?).getD 0

namespace Action

/-- **Does what an action says**, and gives the parts of the answer. -/
def run (settings : DispatchSettings) (p : Place) : Action Code → Acting (Option (List Json))
  | note v => .done (some [v])
  | yield times => (yields times).bind fun _ => .done none
  | sleep milliseconds => (Program.await (.sleep milliseconds)).bind fun _ => .done none
  | panics payload => .panic payload
  | useAttributes use => do
    let (answer, a) := use.apply (← ask p.attributes)
    ask (p.setAttributes a)
    return if use.isSilent then none else some [answer]
  | context => do
    let event := (p.event?.map Event.report).getD .null
    let listener := match p.listener with
      | none => .null
      | some c => .arr [c.listener.toJson, .str c.key.name, c.priority.toJson]
    return some [event, listener]
  | outcomes => do
    let os ← ask p.outcomes
    let reported ← ask (reporting fun t => .arr (os.map (·.report t)))
    return some [reported, .bool (← ask p.isTruncated)]
  | describe => do
    let os ← ask p.outcomes
    let truncated ← ask p.isTruncated
    return some [.ofText? (p.context.map fun c => c.describe os.length truncated),
      .ofText? (p.listener.map (·.describe)), .ofText? (p.event?.map (·.describe))]
  | count => do
    let a : Attributes ← ask (Program.request (.attributes .shared))
    let n := counter a + 1
    ask (Program.request (.setAttributes .shared (a.set "A" (.int n))))
    return some [.int n]
  | wait forMessages matcher milliseconds => do
    let id : Id ← ask (Program.request (.openSession forMessages matcher))
    let r : Except SessionError Event ←
      Program.await (.session id (milliseconds.map fun ms => ⟨ms, none⟩))
    return some [reportWaited r]
  | dispatch e => do
    let r ← Program.dispatch e
    return some [← ask (reporting (reportDispatched · r))]
  | dispatchBlocking _ => .done (some [DispatchError.withinRuntime.report])
  | operate o => (ask (o.run settings)).bind fun v => .done (some [v])

end Action

/-- The answer to an action as it is noted. -/
def Tagged.answer {α : Type} (t : Tagged α) : Option (List Json) → Json
  | none => .null
  | some parts => if t.tag.isEmpty then parts.headD .null else .arr (t.tag ++ parts)

/-- Does what an action says, and notes the answer unless it is null. -/
def Tagged.run (settings : DispatchSettings) (p : Place) (t : Tagged (Action Code)) :
    Acting Json :=
  (t.body.run settings p).bind fun parts =>
    match t.answer parts with
    | .null => .done .null
    | v => (ask (note v)).bind fun _ => .done v

/-- Does what several actions say, and gives the last answer. -/
def runActions (settings : DispatchSettings) (p : Place) (last : Json) :
    List (Tagged (Action Code)) → Acting Json
  | [] => .done last
  | t :: rest => (t.run settings p).bind fun v => runActions settings p v rest

namespace HandlerReturn

/-- What a handler returns. -/
def eval (p : Place) (args : List Argument) (last : Json) : HandlerReturn → Asking Returned
  | term t => t.eval
  | arguments => do
    let os ← p.outcomes
    let truncated ← p.isTruncated
    return .json (.arr (args.map (·.report os.length truncated)))
  | lastAnswer => .done (.json last)
  | attributeOf kind => do
    match (← p.attributes).get? kind with
    | some v => return .present (.json v)
    | none => return .absent
  | plainText =>
    match p.event?.bind (·.plainText) with
    | some s => .done (.present (.text s))
    | none => .done .absent

end HandlerReturn

/-- What differs between interceptors of listeners and of dispatches. -/
structure Role (τ δ ρ : Type) where
  /-- What an interceptor returns that has no result. -/
  nothing : ρ
  eval : τ → Asking ρ
  report : Handles → ρ → Json
  settle : ρ → Acting ρ
  change : δ → ρ → Asking ρ

/-- The role of an interceptor of listeners. -/
def listenerRole : Role ResultTerm ResultChange EventResult where
  nothing := .invalid
  eval := ResultTerm.eval
  report := fun t r => r.report t
  settle := EventResult.settle
  change := fun
    | .truncate, r => .done r.asTruncated

/-- The role of an interceptor of dispatches. -/
def processingRole : Role DispatchTerm DispatchChange DispatchResult where
  nothing := .empty
  eval := DispatchTerm.eval
  report := fun t r => r.brief t
  settle := DispatchResult.settle
  change := fun
    | .append o, r => o.eval.bind fun o => .done { r with outcomes := r.outcomes ++ [o] }
    | .markShortCircuited b, r => .done { r with shortCircuited := b }

/-- The code of an interceptor, by what its chain ends in. -/
abbrev Intercepting (ρ : Type) := Program (chainCalls Code Memory ρ)

/-- Something that must not wait, on the way of an interceptor. -/
def askWithin {α ρ : Type} (p : Asking α) : Intercepting ρ α := .ofUser (ask p)

/-- **The life of an interceptor** that has the result `last`. -/
def runStances {τ δ ρ : Type} (role : Role τ δ ρ) (settings : DispatchSettings) (p : Place)
    (last : Option ρ) : List (Stance τ δ Code) → Intercepting ρ (Except DispatchError ρ)
  | [] => .done (.ok (last.getD role.nothing))
  | stance :: rest =>
    let goOn (last : Option ρ) := runStances role settings p last rest
    match stance with
    | .proceed =>
      .call .proceed fun
        | .ok r => goOn (some r)
        | .error e => .done (.error e)
    | .attempt =>
      .call .proceed fun
        | .ok r => goOn (some r)
        | .error e =>
          (askWithin (note (.arr [.str "caught", DispatchError.report e]))).bind fun _ => goOn last
    | .shortCircuit t =>
      (askWithin (role.eval t)).bind fun r => .call (.shortCircuit r) fun _ => goOn last
    | .finish t => (askWithin (role.eval t)).bind fun r => .done (.ok r)
    | .finishWithLast => .done (.ok (last.getD role.nothing))
    | .fail message => .done (.error (.interceptor message))
    | .flags =>
      .call .state fun (s : ChainState) =>
        (askWithin (note (.arr [.str "flags", .bool s.stopped, .bool s.proceeded]))).bind
          fun _ => goOn last
    | .identity =>
      .call .state fun (s : ChainState) =>
        (askWithin (note (.arr [.str "me", s.owner.toJson,
          (p.listener.map (·.listener.toJson)).getD .null]))).bind fun _ => goOn last
    | .show =>
      let reported := match last with
        | none => Program.done Json.null
        | some r => reporting (role.report · r)
      (askWithin (reported.bind fun v => note (.arr [.str "result", v]))).bind fun _ => goOn last
    | .settle =>
      (Program.ofUser (role.settle (last.getD role.nothing))).bind fun r => goOn (some r)
    | .change c =>
      (askWithin (role.change c (last.getD role.nothing))).bind fun r => goOn (some r)
    | .require c t =>
      (askWithin (c.eval p)).bind fun
        | true => goOn last
        | false => (askWithin (role.eval t)).bind fun r => .done (.ok r)
    | .act a => (Program.ofUser (a.run settings p)).bind fun _ => goOn last

/-- What becomes of a failure that is handled by a script. -/
inductive FailureHandling where
  | keep
  /-- The message of the failure becomes a content. -/
  | message
  | panics (p : Payload)
  | replace (t : ResultTerm)

namespace FailureHandling

/-- Notes a failure and says what is recorded in its place. -/
def run (h : FailureHandling) (c : ListenerContext) (f : Failure) : Asking EventResult :=
  (note (.arr [.str "exception", c.listener.toJson, .str f.message, .bool f.panicked])).bind
    fun _ =>
      match h with
      | keep => .done (.failed f)
      | message => .done (.of (.str f.message))
      | panics p => .panic p
      | replace t => t.eval

end FailureHandling

/-- A script is in a role it is not made for. -/
def misplaced {S : Signature} {α : Type} : Program S α := .panic (.text "misplaced script")

/-- What the script of a handler does. -/
def runHandler (settings : DispatchSettings) : Code → List Argument → Acting Returned
  | .numbered _ code, args => runHandler settings code args
  | .handler hasContext actions returns, args =>
    let (listener, args) := match hasContext, args with
      | true, .listenerContext c :: rest => (some c, rest)
      | _, args => (none, args)
    let p := (listener.map Place.ofListener).getD .nowhere
    (runActions settings p .null actions).bind fun last => ask (returns.eval p args last)
  | _, _ => misplaced

/-- **What all scripts do** in a hub with these settings. -/
def behaviours (settings : DispatchSettings) (failures : Option FailureHandling) :
    Behaviours Code Memory where
  filter := fun
    | .condition c, context => c.eval (.ofListener context)
    | _, _ => misplaced
  matcher := fun
    | .matcher announced c, context =>
      let announce : Asking Unit :=
        if announced then note (.arr [.str "offered", .ofText? context.event.plainText])
        else .done ()
      announce.bind fun _ => c.eval (.ofDispatch context)
    | _, _ => misplaced
  handler := runHandler settings
  listenerInterceptor := fun
    | .listenerInterceptor stances, context =>
      runStances listenerRole settings (.ofListener context) none stances
    | _, _ => misplaced
  processingInterceptor := fun
    | .processingInterceptor stances, context =>
      runStances processingRole settings (.ofDispatch context) none stances
    | _, _ => misplaced
  onFailure := failures.map fun h c f => h.run c f

end Switchboard.Script
