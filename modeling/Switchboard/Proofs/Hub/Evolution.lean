import Switchboard.Proofs.Hub.Turns
import Switchboard.Proofs.Registry.Ledger

/-!
# How the registry of a hub evolves

The registry of a hub goes from call to call. Handlers, filters,
interceptors and dispatches that begin make calls on it in between each
other, and nothing else changes it. A step makes one call or none, so the
registry after some steps is the one after the calls made in them, which
can be listed (`registry_steps`). So whatever programs run, in whatever
turns, what holds of a registry after any calls holds of it.
-/

namespace Switchboard

variable {β σ α : Type}

/-! ## The registry of a run -/

/-- The call on the registry that a call of a program is. A dispatch that
begins looks its listeners up. -/
def HubCall.registryCall? : HubCall β σ → Option (RegistryCall β)
  | user (.request (.isProcessable key)) => some (.lookUp key)
  | user (.request (.registerAll ls)) => some (.registerAll ls)
  | user (.request (.addProcessing id priority run)) => some (.add (.processing id priority run))
  | user (.request (.addServing id priority point run)) =>
    some (.add (.serving id priority point run))
  | user (.request (.unregister id)) => some (.unregister id)
  | user (.request .clearRegistry) => some .clear
  | start e => some (.lookUp e.key)
  | _ => none

/-- **A call that is served does to the registry what it is a call for**,
and otherwise nothing. -/
theorem Hub.registry_of_serve {h h' : Hub β σ} {c : HubCall β σ} {r : c.Reply}
    (hs : h.serve c = some (r, h')) :
    h'.registry = h.registry.applyAll c.registryCall?.toList := by
  obtain rfl := eq_afterCall hs
  cases c with
  | user c =>
    cases c with
    | request q =>
      cases q with
      | setAttributes s a => cases s <;> rfl
      | _ => rfl
    | _ => rfl
  | _ => rfl

/-- The call on the registry that a program makes next. -/
def Program.registryCall? : HubProgram β σ α → Option (RegistryCall β)
  | call c _ => HubCall.registryCall? c
  | _ => none

theorem Program.registryCall?_eq (p : HubProgram β σ α) :
    p.registryCall? = p.call?.bind HubCall.registryCall? := by
  cases p <;> rfl

namespace Scheduler

variable {B : Behaviours β σ} {m m' : Scheduler β σ}

/-- A program does to the registry in a step what its next call is for. -/
theorem Advanced.registry_eq {p : HubProgram β σ α} {q : Progress β σ α}
    (h : Advanced B m p m' q) :
    m'.hub.registry = m.hub.registry.applyAll p.registryCall?.toList := by
  cases h with
  | done a => rfl
  | panic q => rfl
  | served hserved =>
    obtain ⟨h₁, hs, halike⟩ := hserved.hub
    rw [halike.registry]
    exact Hub.registry_of_serve hs
  | waited hk => exact hk.hub.registry
  | waits => rfl
  | inner => rfl

/-- The call on the registry that whoever has the turn makes next. -/
def Turn.registryCall? : Turn β σ α → Option (RegistryCall β)
  | main p => p.registryCall?
  | task _ p _ => p.registryCall?
  | _ => none

theorem Turn.registryCall?_eq (t : Turn β σ α) :
    t.registryCall? = t.call?.bind HubCall.registryCall? := by
  cases t with
  | main p => exact p.registryCall?_eq
  | task a p main => exact p.registryCall?_eq
  | _ => rfl

/-- **A step does to the registry** what the call is for that is made in
it. -/
theorem Stepped.registry_eq {t t' : Turn β σ α} (h : Stepped B m t m' t') :
    m'.hub.registry = m.hub.registry.applyAll t.registryCall?.toList := by
  obtain ⟨hub, hmoved, hk⟩ := h.moved
  rw [hk.registry, t.registryCall?_eq]
  generalize t.call? = c at hmoved
  cases hmoved with
  | nobody => rfl
  | advanced ha => rw [ha.registry_eq, Program.registryCall?_eq]

/-- **The calls on the registry** that are made in so many steps, in their
order. -/
def registryCalls (B : Behaviours β σ) (limit : Option Nat) :
    Nat → Scheduler β σ → Turn β σ α → List (RegistryCall β)
  | 0, _, _ => []
  | n + 1, m, t =>
    t.registryCall?.toList ++ registryCalls B limit n (m.step B limit t).1 (m.step B limit t).2

/-- **The registry after some steps is the one after the calls made in
them.** -/
theorem registry_steps (B : Behaviours β σ) (limit : Option Nat) (n : Nat) (m : Scheduler β σ)
    (t : Turn β σ α) :
    (m.steps B limit n t).1.hub.registry
      = m.hub.registry.applyAll (m.registryCalls B limit n t) := by
  induction n generalizing m t with
  | zero => rfl
  | succ n ih =>
    rw [steps_succ, ih, (m.stepped B limit t).registry_eq, ← Registry.applyAll_append]
    rfl

/-- More steps make more calls, after those made before. -/
theorem registryCalls_prefix (B : Behaviours β σ) (limit : Option Nat) (n k : Nat)
    (m : Scheduler β σ) (t : Turn β σ α) :
    m.registryCalls B limit n t <+: m.registryCalls B limit (n + k) t := by
  induction n generalizing m t with
  | zero => exact List.nil_prefix
  | succ n ih =>
    rw [Nat.succ_add]
    exact (List.prefix_append_right_inj _).mpr (ih _ _)

end Scheduler

end Switchboard
