import Switchboard.Dispatch.Basic

/-!
# The state of a hub

A `Hub` is everything the calls of dispatches and of supplied code read
and change: the registry, what belongs to each dispatch, the attributes
all dispatches share, the sessions, and the results behind handles.

`Hub.answer` gives the reply to a request and the state after it. The
calls by which a dispatch tells the hub what happens are functions of
their own. None of them waits: waiting, and running what has been started,
is the work of the scheduler.
-/

namespace Switchboard

variable {β σ : Type}

/-- What belongs to one dispatch. -/
structure DispatchState where
  outcomes : List Outcome
  truncated : Bool
  attributes : Attributes

namespace DispatchState

/-- The state at the beginning of a dispatch. -/
def start : DispatchState := ⟨[], false, .empty⟩

end DispatchState

/-- The state of a hub. -/
structure Hub (β σ : Type) where
  registry : Registry β
  settings : DispatchSettings
  /-- What belongs to each dispatch, by its number. -/
  dispatches : List DispatchState
  shared : Attributes
  sessions : Sessions β
  handles : Handles
  /-- How many identifiers have been drawn. -/
  drawn : Nat
  /-- The user's own memory. -/
  memory : σ

namespace Hub

/-- A hub to which nothing has happened. -/
def fresh (registry : Registry β) (settings : DispatchSettings) (memory : σ) : Hub β σ :=
  ⟨registry, settings, [], .empty, .empty, .empty, 0, memory⟩

/-- What belongs to a dispatch. -/
def dispatchState (h : Hub β σ) (c : EventContext) : DispatchState :=
  h.dispatches[c.index]?.getD .start

/-- Changes what belongs to a dispatch. -/
def updateDispatch (h : Hub β σ) (c : EventContext) (f : DispatchState → DispatchState) :
    Hub β σ :=
  { h with dispatches := h.dispatches.modify c.index f }

/-- One of the attribute maps. -/
def attributes (h : Hub β σ) : Scope → Attributes
  | .dispatch c => (h.dispatchState c).attributes
  | .shared => h.shared

/-- Replaces one of the attribute maps. -/
def setAttributes (h : Hub β σ) (s : Scope) (a : Attributes) : Hub β σ :=
  match s with
  | .dispatch c => h.updateDispatch c fun d => { d with attributes := a }
  | .shared => { h with shared := a }

/-- Draws a fresh identifier. -/
def draw (h : Hub β σ) : Id × Hub β σ :=
  (Id.ofEntropy h.drawn, { h with drawn := h.drawn + 1 })

/-- **The reply to a request.** -/
def answer (h : Hub β σ) : (r : Request β σ) → r.Reply × Hub β σ
  | .outcomes c => ((h.dispatchState c).outcomes, h)
  | .isTruncated c => ((h.dispatchState c).truncated, h)
  | .attributes s => (h.attributes s, h)
  | .setAttributes s a => ((), h.setAttributes s a)
  | .snapshot => (h.registry.snapshot, h)
  | .isProcessable key =>
    let (b, registry) := h.registry.isProcessable key
    (b, { h with registry })
  | .registerAll ls =>
    let (r, registry) := h.registry.registerAll ls
    (r, { h with registry })
  | .addProcessing id priority run =>
    let (r, registry) := h.registry.addProcessing id priority run
    (r, { h with registry })
  | .addServing id priority point run =>
    let (r, registry) := h.registry.addServing id priority point run
    (r, { h with registry })
  | .unregister id =>
    let (r, registry) := h.registry.unregister id
    (r, { h with registry })
  | .clearRegistry => ((), { h with registry := h.registry.clear })
  | .openSession forMessages matcher =>
    let (id, h) := h.draw
    (id, { h with sessions := h.sessions.openNew id forMessages matcher })
  | .cancelSession s =>
    let (b, sessions) := h.sessions.cancel s
    (b, { h with sessions })
  | .abandonSession s => ((), { h with sessions := h.sessions.abandon s })
  | .clearSessions => ((), { h with sessions := h.sessions.clear })
  | .pendingSessions => (h.sessions.size, h)
  | .readyHandle r =>
    let (handle, handles) := h.handles.add (some r)
    (handle, { h with handles })
  | .handles => (h.handles, h)
  | .drawId => h.draw
  | .memory => (h.memory, h)
  | .setMemory memory => ((), { h with memory })

/-- A dispatch begins: the registry is read, the listeners are looked up,
and a context is made. -/
def start (h : Hub β σ) (e : Event) : Beginning β × Hub β σ :=
  let (targets, registry) := h.registry.targets e.key
  (⟨h.registry.snapshot.processing, targets, ⟨h.dispatches.length, e⟩⟩,
    { h with registry, dispatches := h.dispatches ++ [.start] })

/-- Drops all sessions but these. -/
def keepSessions (h : Hub β σ) (ws : List (Waiter β)) : Hub β σ :=
  { h with sessions := h.sessions.keep ws }

/-- Drops all sessions. -/
def loseSessions (h : Hub β σ) (ws : List (Waiter β)) : Hub β σ :=
  { h with sessions := h.sessions.lose ws }

/-- A session receives an event. -/
def deliver (h : Hub β σ) (s : Id) (e : Event) : Hub β σ :=
  { h with sessions := h.sessions.deliver s e }

/-- A dispatch records an outcome. -/
def record (h : Hub β σ) (c : EventContext) (o : Outcome) : Hub β σ :=
  h.updateDispatch c fun d => { d with outcomes := d.outcomes ++ [o] }

/-- A listener has ended a dispatch for later ones. -/
def markTruncated (h : Hub β σ) (c : EventContext) : Hub β σ :=
  h.updateDispatch c fun d => { d with truncated := true }

end Hub

end Switchboard
