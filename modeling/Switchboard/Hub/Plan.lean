import Switchboard.Hub.Basic

/-!
# Plans of hubs

A `HubPlan` lists what a hub is to hold from the beginning. Carrying it
out adds the interceptors one by one, in the order in which the plan
declares them, and then all listeners at once; the first identifier that
is taken ends it, and there is no hub.
-/

namespace Switchboard

variable {β σ : Type}

/-- An interceptor that a hub is to hold. -/
inductive PlannedInterceptor (β : Type) where
  /-- One that wraps whole dispatches. -/
  | processing (id : Id) (priority : Priority) (run : β)
  /-- One that wraps every listener. -/
  | serving (id : Id) (priority : Priority) (point : InterceptPoint) (run : β)

namespace PlannedInterceptor

/-- The identifier of a planned interceptor. -/
def id : PlannedInterceptor β → Id
  | processing id _ _ => id
  | serving id _ _ _ => id

/-- Adds a planned interceptor to a registry. -/
def addTo (i : PlannedInterceptor β) (r : Registry β) : Except RegistryError Unit × Registry β :=
  match i with
  | processing id priority run => r.addProcessing id priority run
  | serving id priority point run => r.addServing id priority point run

end PlannedInterceptor

/-- What a hub is to hold from the beginning, and how its dispatches go. -/
structure HubPlan (β : Type) where
  listeners : List (Listener β)
  interceptors : List (PlannedInterceptor β)
  settings : DispatchSettings

namespace HubPlan

/-- The plan of a hub that holds nothing. -/
def empty : HubPlan β := ⟨[], [], .default⟩

/-- Adds interceptors to a registry one by one, up to the first that
cannot be added. -/
def addInterceptors (r : Registry β) :
    List (PlannedInterceptor β) → Except RegistryError (Registry β)
  | [] => .ok r
  | i :: rest =>
    match i.addTo r with
    | (.error e, _) => .error e
    | (.ok (), r) => addInterceptors r rest

/-- The registry a plan leads to. -/
def registry (p : HubPlan β) : Except RegistryError (Registry β) :=
  match addInterceptors .empty p.interceptors with
  | .error e => .error e
  | .ok r =>
    match r.registerAll p.listeners with
    | (.error e, _) => .error e
    | (.ok (), r) => .ok r

/-- **The hub a plan leads to.** -/
def build (p : HubPlan β) (memory : σ) : Except RegistryError (Hub β σ) :=
  p.registry.map fun r => .fresh r p.settings memory

end HubPlan

end Switchboard
