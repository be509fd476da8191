import Mathlib.Data.List.Forall2
import Switchboard.Proofs.Dispatch.Modes
import Switchboard.Proofs.Hub.Sequence

/-!
# Waiting for the results of a dispatch

Whoever waits for the results of a dispatch waits for the handles among
them, one after the other, while tasks have their turns (`Awaits`). The wait
is over exactly when each of them has resolved in this way, and then what was
a handle is the result behind it, and everything else is as it was
(`settle_resolves`).

What is behind a handle is the result of the handler that was started, taken
as it is. It can be a handle once more, if the handler returns one, and it
can be no result at all, if the handler does not handle the event or does not
get its parameters. A dispatch records no such result of a handler that it
awaits, but here nothing is left out, and nothing is waited for a second time
(`settle_falls_short`).
-/

namespace Switchboard

variable {β σ : Type}

open HubProgram

/-- Whether a result is one that a listener has given: the event was
handled, and the result does not come later. -/
def EventResult.isReal : EventResult → Bool
  | invalid => false
  | async _ => false
  | value _ _ => true
  | failed _ => true

/-- **An outcome is settled**, given what is behind handles. -/
inductive Outcome.Settled (t : Handles) : Outcome → Outcome → Prop
  /-- It does not come later, and is left as it is. -/
  | final {o : Outcome} : (∀ h, o.result ≠ .async h) → Settled t o o
  /-- The result behind its handle is there, and is put in its place. -/
  | resolved {listener : Id} {h : Handle} {w : EventResult} : t.result? h = some w →
      Settled t ⟨listener, .async h⟩ ⟨listener, w⟩

/-- What an outcome is if its handle has resolved: a real result, or not. -/
def Outcome.ComesReal (t : Handles) (o : Outcome) : Prop :=
  match o.result with
  | .async h => ∃ w, t.result? h = some w ∧ w.isReal = true
  | r => r.isReal = true

theorem Outcome.Settled.listener_eq {t : Handles} {o o' : Outcome} (h : Settled t o o') :
    o'.listener = o.listener := by
  cases h <;> rfl

theorem Outcome.Settled.isReal_iff {t : Handles} {o o' : Outcome} (h : Settled t o o') :
    o'.result.isReal = true ↔ o.ComesReal t := by
  unfold Outcome.ComesReal
  cases h with
  | final hne =>
    split
    · next h hr => exact absurd hr (hne h)
    · exact Iff.rfl
  | resolved hw =>
    constructor
    · exact fun hreal => ⟨_, hw, hreal⟩
    · rintro ⟨w', hw', hreal⟩
      obtain rfl := Option.some.inj (hw.symm.trans hw')
      exact hreal

/-- What is related item by item has the same members, up to the relation. -/
theorem forall_right_iff {α γ : Type} {R : α → γ → Prop} {P : α → Prop} {Q : γ → Prop}
    (hR : ∀ {a b}, R a b → (Q b ↔ P a)) {l : List α} {l' : List γ} (h : List.Forall₂ R l l') :
    (∀ b ∈ l', Q b) ↔ ∀ a ∈ l, P a := by
  induction h with
  | nil => simp
  | cons hab _ ih => simp only [List.forall_mem_cons, hR hab, ih]

theorem map_listener_of_settled {t : Handles} {os os' : List Outcome}
    (h : List.Forall₂ (Outcome.Settled t) os os') :
    os'.map (·.listener) = os.map (·.listener) := by
  induction h with
  | nil => rfl
  | cons ho _ ih => rw [List.map_cons, List.map_cons, ho.listener_eq, ih]

/-- There is something behind each handle among outcomes that are settled. -/
theorem exists_result_of_settled {t : Handles} {os os' : List Outcome}
    (h : List.Forall₂ (Outcome.Settled t) os os') {o : Outcome} (ho : o ∈ os) {handle : Handle}
    (hr : o.result = .async handle) : ∃ w, t.result? handle = some w := by
  induction h with
  | nil => exact absurd ho List.not_mem_nil
  | cons hsettled _ ih =>
    rcases List.mem_cons.mp ho with rfl | ho
    · cases hsettled with
      | final hne => exact absurd hr (hne handle)
      | resolved hw =>
        obtain rfl := EventResult.async.inj hr
        exact ⟨_, hw⟩
    · exact ih ho

/-! ## The program -/

theorem ofUser_settle_of_ne {r : EventResult} (hr : ∀ h, r ≠ .async h) :
    (ofUser r.settle : HubProgram β σ EventResult) = .done r := by
  cases r with
  | async h => exact absurd rfl (hr h)
  | _ => rfl

theorem ofUser_settleAll_cons (o : Outcome) (os : List Outcome) :
    (ofUser (DispatchResult.settleAll (o :: os)) : HubProgram β σ (List Outcome)) =
      (ofUser o.result.settle).bind fun r =>
        (ofUser (DispatchResult.settleAll os)).bind fun os' => .done (⟨o.listener, r⟩ :: os') := by
  show Program.interpret _ (Program.bind _ _) = _
  rw [Program.interpret_bind]
  refine congrArg _ (funext fun r => ?_)
  rw [Program.interpret_bind]
  rfl

theorem ofUser_settle (r : DispatchResult) :
    (ofUser r.settle : HubProgram β σ DispatchResult) =
      (ofUser (DispatchResult.settleAll r.outcomes)).bind fun os =>
        .done { r with outcomes := os } := by
  show Program.interpret _ (Program.bind _ _) = _
  rw [Program.interpret_bind]
  rfl

namespace Scheduler

variable {B : Behaviours β σ} {limit : Option Nat} {m m' : Scheduler β σ} {os os' : List Outcome}

/-! ## Waiting for one handle after the other -/

/-- **The handles among outcomes resolve one after the other**, while the
main program waits for them. -/
inductive Awaits (B : Behaviours β σ) (limit : Option Nat) :
    Scheduler β σ → List Outcome → List Outcome → Scheduler β σ → Prop
  | nil {m : Scheduler β σ} : Awaits B limit m [] [] m
  | final {m m' : Scheduler β σ} {o : Outcome} {os os' : List Outcome} :
      (∀ h, o.result ≠ .async h) → Awaits B limit m os os' m' →
      Awaits B limit m (o :: os) (o :: os') m'
  | resolves {m m₁ m' : Scheduler β σ} {n : Nat} {listener : Id} {h : Handle} {w : EventResult}
      {os os' : List Outcome} : m.steps B limit n (.main (awaiting h)) = (m₁, .ended (.ok w)) →
      Awaits B limit m₁ os os' m' →
      Awaits B limit m (⟨listener, .async h⟩ :: os) (⟨listener, w⟩ :: os') m'

/-- A main program that waits for a handle ends with the result behind it. -/
theorem result?_of_awaiting {n : Nat} {h : Handle} {r : Except Payload EventResult}
    (hsteps : m.steps B limit n (.main (awaiting h)) = (m', .ended r)) :
    ∃ w, r = .ok w ∧ m'.hub.handles.result? h = some w := by
  obtain ⟨w, rfl, m₁, m₂, d, hreply, hhub, -⟩ :=
    replied_of_steps (w := .handle h) (by simp) .asks hsteps
  refine ⟨w, rfl, ?_⟩
  have hgrows := grows_reply? hreply
  have hthere : m₁.hub.handles.result? h = some w := by
    cases replies_of_reply? hreply with
    | result hw => exact hw
  rw [hhub, hgrows.result?_eq (lt_of_result? hthere)]
  exact hthere

/-- What is behind a handle stays there while others are waited for. -/
theorem Awaits.result? (ha : Awaits B limit m os os' m') {h : Handle} {w : EventResult}
    (hw : m.hub.handles.result? h = some w) : m'.hub.handles.result? h = some w := by
  induction ha with
  | nil => exact hw
  | final _ _ ih => exact ih hw
  | @resolves m m₁ _ n _ h' _ _ _ hsteps _ ih =>
    refine ih ?_
    have hkept := (lasting_result h w).steps B limit n (t := .main (awaiting h')) hw
    rwa [hsteps] at hkept

/-- **Outcomes whose handles have resolved are settled.** -/
theorem Awaits.settled (ha : Awaits B limit m os os' m') :
    List.Forall₂ (Outcome.Settled m'.hub.handles) os os' := by
  induction ha with
  | nil => exact .nil
  | final hne _ ih => exact .cons (.final hne) ih
  | resolves hsteps hrest ih =>
    obtain ⟨w, hw, hresult⟩ := result?_of_awaiting hsteps
    obtain rfl := Except.ok.inj hw
    exact .cons (.resolved (hrest.result? hresult)) ih

/-- What has been waited for in parts has been waited for. -/
theorem Awaits.steps (ha : Awaits B limit m os os' m') :
    ∃ n, m.steps B limit n (.main (ofUser (DispatchResult.settleAll os)))
      = (m', .ended (.ok os')) := by
  induction ha with
  | nil => exact ⟨1, rfl⟩
  | @final _ m' o _ os' hne _ ih =>
    obtain ⟨n, hn⟩ := ih
    rw [ofUser_settleAll_cons, ofUser_settle_of_ne hne]
    exact steps_bind_done hn fun os => o :: os
  | @resolves _ _ m' _ listener _ w os os' hsteps _ ih =>
    obtain ⟨n, hn⟩ := ih
    obtain ⟨k, hk⟩ := steps_bind_done hn fun os => (⟨listener, w⟩ :: os : List Outcome)
    obtain ⟨j, hj⟩ := steps_bind hsteps fun w =>
      (ofUser (DispatchResult.settleAll os)).bind fun os => .done (⟨listener, w⟩ :: os)
    rw [ofUser_settleAll_cons]
    exact ⟨j + k, steps_trans hj hk⟩

/-- **What has been waited for has been waited for in parts**, and nothing
has panicked. -/
theorem awaits_of_steps {n : Nat} {r : Except Payload (List Outcome)}
    (h : m.steps B limit n (.main (ofUser (DispatchResult.settleAll os))) = (m', .ended r)) :
    ∃ os', r = .ok os' ∧ Awaits B limit m os os' m' := by
  induction os generalizing m n r with
  | nil =>
    obtain ⟨rfl, rfl⟩ := ended_of_over (a := []) .about h
    exact ⟨[], rfl, .nil⟩
  | cons o os ih =>
    have hrest : ∀ {m₁ : Scheduler β σ} {k : Nat} {o' : Outcome}
        {r : Except Payload (List Outcome)},
        m₁.steps B limit k (.main ((ofUser (DispatchResult.settleAll os)).bind fun os' =>
          .done (o' :: os'))) = (m', .ended r) →
        ∃ os', r = .ok (o' :: os') ∧ Awaits B limit m₁ os os' m' := by
      intro m₁ k o' r hk
      obtain ⟨j, e, hj, rfl⟩ := of_steps_bind_done hk
      obtain ⟨os', rfl, hawaits⟩ := ih hj
      exact ⟨os', rfl, hawaits⟩
    obtain ⟨listener, result⟩ := o
    rw [ofUser_settleAll_cons] at h
    by_cases hr : ∃ handle, result = .async handle
    · obtain ⟨handle, rfl⟩ := hr
      rcases parts_of_steps_bind (t := .main (awaiting handle)) h with
        ⟨k, p, rfl, hk⟩ | ⟨k, j, m₁, w, hk, hj⟩
      · obtain ⟨w, hw, -⟩ := result?_of_awaiting hk
        exact absurd hw (by simp)
      · obtain ⟨os', rfl, hawaits⟩ := hrest hj
        exact ⟨_, rfl, .resolves hk hawaits⟩
    · have hne : ∀ handle, result ≠ .async handle := fun handle he => hr ⟨handle, he⟩
      rw [ofUser_settle_of_ne hne] at h
      obtain ⟨os', rfl, hawaits⟩ := hrest h
      exact ⟨_, rfl, .final hne hawaits⟩

/-- Waiting for the results of a dispatch ends as waiting for its outcomes. -/
theorem settle_steps_iff {r r' : DispatchResult} :
    (∃ n, m.steps B limit n (.main (ofUser r.settle)) = (m', .ended (.ok r'))) ↔
      ∃ os, Awaits B limit m r.outcomes os m' ∧ r' = { r with outcomes := os } := by
  rw [ofUser_settle]
  constructor
  · rintro ⟨n, h⟩
    obtain ⟨k, e, hk, he⟩ := of_steps_bind_done h
    obtain ⟨os, rfl, hawaits⟩ := awaits_of_steps hk
    exact ⟨os, hawaits, Except.ok.inj he⟩
  · rintro ⟨os, hawaits, rfl⟩
    obtain ⟨n, hn⟩ := hawaits.steps
    exact steps_bind_done hn fun os => { r with outcomes := os }

/-- Waiting for the results of a dispatch does not panic. -/
theorem settle_ends_ok {r : DispatchResult} {n : Nat} {e : Except Payload DispatchResult}
    (h : m.steps B limit n (.main (ofUser r.settle)) = (m', .ended e)) : ∃ r', e = .ok r' := by
  rw [ofUser_settle] at h
  obtain ⟨k, e', hk, rfl⟩ := of_steps_bind_done h
  obtain ⟨os, rfl, -⟩ := awaits_of_steps hk
  exact ⟨_, rfl⟩

/-- What a handler that was started can give is behind its handle, if
anything is, as long as the scheduler runs. -/
theorem canGive_of_steps {hub : Hub β σ} {m₀ : Scheduler β σ} {patience : Option Nat} {α γ : Type}
    {p : HubProgram β σ α} {q : HubProgram β σ γ} {job : Job β} {h : Handle} (hm : Reached hub m₀)
    (hx : ⟨.spawn job, h⟩ ∈ m₀.exchanges B (patience.map (m₀.clock + ·)) stepLimit (.main p))
    (hl : Later (m₀.run B patience p).2 m) {n : Nat} {w : EventResult}
    (hw : (m.steps B limit n (.main q)).1.hub.handles.result? h = some w) :
    job.CanGive B m₀.hub.settings w :=
  ((lasting_promised _ h).steps B limit n (t := .main q)
    (promised_of_spawned hm hx hl)).kept w hw

end Scheduler

open Scheduler

/-- What an attempt has recorded is what it was left with. -/
theorem Attempt.result_of_outcome? {a : Attempt β σ} {o : Outcome} (h : a.outcome? = some o) :
    a.result = .ok o.result ∧ o.result.isValid = true := by
  unfold Attempt.outcome? at h
  cases hr : a.result with
  | error e =>
    rw [hr] at h
    exact absurd h (by simp)
  | ok r =>
    rw [hr] at h
    by_cases hvalid : r.isValid = true
    · obtain rfl := Option.some.inj ((if_pos hvalid).symm.trans h)
      exact ⟨rfl, hvalid⟩
    · exact absurd ((if_neg hvalid).symm.trans h) (by simp)

/-- What was recorded is what some attempt was left with. -/
theorem Recorded.exists_attempt {hub : Hub β σ} {c : EventContext} {os : List Outcome}
    {attempts : List (Attempt β σ)} (h : Recorded hub c os attempts) {o : Outcome} (ho : o ∈ os) :
    ∃ a ∈ attempts, a.result = .ok o.result ∧ o.result.isValid = true := by
  rw [h.told] at ho
  obtain ⟨a, ha, hoa⟩ := List.mem_filterMap.mp ho
  exact ⟨a, ha, Attempt.result_of_outcome? hoa⟩

/-- What is valid and does not come later is real. -/
theorem isReal_of_isValid {r : EventResult} (hvalid : r.isValid = true) (hr : ∀ h, r ≠ .async h) :
    r.isReal = true := by
  cases r with
  | invalid => exact absurd hvalid Bool.false_ne_true
  | async h => exact absurd rfl (hr h)
  | _ => rfl

/-- **The result of a dispatch is settled**, given what is behind handles. -/
structure DispatchResult.Settled (t : Handles) (r r' : DispatchResult) : Prop where
  shortCircuited : r'.shortCircuited = r.shortCircuited
  listeners : r'.listeners = r.listeners
  outcomes : List.Forall₂ (Outcome.Settled t) r.outcomes r'.outcomes
  /-- All results are real exactly if those are that were there or are behind
  the handles. -/
  real_iff : (∀ o ∈ r'.outcomes, o.result.isReal = true) ↔ ∀ o ∈ r.outcomes, o.ComesReal t

/-- **What an attempt leaves for later is real**: if it is left with a
handle, it has started the handler itself, and this gives only real results. -/
def Attempt.LeavesReal (B : Behaviours β σ) (s : DispatchSettings) (c : EventContext)
    (a : Attempt β σ) : Prop :=
  ∀ h, a.result = .ok (.async h) → a.Starts B s c h ∧
    ∀ w, (a.listener.job c).CanGive B s w → w.isReal = true

/-- **The results of a dispatch are waited for** until each handle among
them has resolved, one after the other, and then that is over and has not
panicked. The mark of a stopped dispatch and the listeners are as they were,
and so is each outcome that was there, while each handle has made place for
the result behind it. Behind the handle of a handler that was started this
is what the handler gives. So for the outcomes that a dispatch has recorded
all results are real, if the handlers it has started give real results. -/
theorem settle_resolves (B : Behaviours β σ) (limit : Option Nat) (m : Scheduler β σ)
    (r : DispatchResult) :
    (∀ m' r', (∃ n, m.steps B limit n (.main (ofUser r.settle)) = (m', .ended (.ok r'))) ↔
      ∃ os, Awaits B limit m r.outcomes os m' ∧ r' = { r with outcomes := os }) ∧
    ∀ n m' e, m.steps B limit n (.main (ofUser r.settle)) = (m', .ended e) →
      ∃ r', e = .ok r' ∧ r.Settled m'.hub.handles r' ∧
        (∀ (α : Type) hub m₀ patience (p : HubProgram β σ α) job h, Reached hub m₀ →
          ⟨.spawn job, h⟩ ∈ m₀.exchanges B (patience.map (m₀.clock + ·)) stepLimit (.main p) →
          Later (m₀.run B patience p).2 m →
          ∀ w, m'.hub.handles.result? h = some w → job.CanGive B m₀.hub.settings w) ∧
        ∀ hub m₀ m₁ patience event res, Reached hub m₀ →
          m₀.dispatch B patience event = (some (.ok res), m₁) → Later m₁ m →
          ∃ t opening chain moves os attempts result stopped,
            Dispatched B m₀.hub.settings (m₀.hub.start event).1 t res opening chain moves os
              attempts result stopped ∧
            Recorded m₁.hub (m₀.hub.start event).1.context os attempts ∧
            (∀ o ∈ os, o.result.isValid = true) ∧
            (r.outcomes = os →
              (∀ a ∈ attempts, a.LeavesReal B m₀.hub.settings (m₀.hub.start event).1.context) →
              ∀ o ∈ r'.outcomes, o.result.isReal = true) := by
  refine ⟨fun m' r' => settle_steps_iff, fun n m' e hsteps => ?_⟩
  obtain ⟨r', rfl⟩ := settle_ends_ok hsteps
  obtain ⟨os', hawaits, rfl⟩ := settle_steps_iff.mp ⟨n, hsteps⟩
  have hsettled := hawaits.settled
  have hreal := forall_right_iff (P := fun o => o.ComesReal m'.hub.handles)
    (Q := fun o => o.result.isReal = true) (fun h => h.isReal_iff) hsettled
  have hgives : ∀ {α : Type} {hub : Hub β σ} {m₀ : Scheduler β σ} {patience : Option Nat}
      {p : HubProgram β σ α} {job : Job β} {h : Handle} {w : EventResult}, Reached hub m₀ →
      ⟨.spawn job, h⟩ ∈ m₀.exchanges B (patience.map (m₀.clock + ·)) stepLimit (.main p) →
      Later (m₀.run B patience p).2 m → m'.hub.handles.result? h = some w →
      job.CanGive B m₀.hub.settings w := by
    intro α hub m₀ patience p job h w hm hx hl hw
    have hleft : (m.steps B limit n (.main (ofUser r.settle))).1.hub.handles.result? h
        = some w := by rwa [hsteps]
    exact canGive_of_steps hm hx hl hleft
  refine ⟨_, rfl, ⟨rfl, map_listener_of_settled hsettled, hsettled, hreal⟩,
    fun α hub m₀ patience p job h hm hx hl w hw => hgives hm hx hl hw, ?_⟩
  rintro hub m₀ m₁ patience event res hm hrun hl
  have hlater : Later (m₀.dispatch B patience event).2 m := by rwa [hrun]
  obtain ⟨t, opening, chain, moves, os, attempts, result, stopped, hall, hrecorded, hstarted⟩ :=
    started_of_dispatch hm hrun
  have hvalid : ∀ o ∈ os, o.result.isValid = true := by
    intro o ho
    obtain ⟨a, -, -, hval⟩ := hrecorded.exists_attempt ho
    exact hval
  refine ⟨t, opening, chain, moves, os, attempts, result, stopped, hall, hrecorded, hvalid,
    fun hos hleaves => hreal.mpr fun o ho => ?_⟩
  obtain ⟨a, ha, hresult, hval⟩ := hrecorded.exists_attempt (hos ▸ ho)
  by_cases hasync : ∃ h, o.result = .async h
  · obtain ⟨h, hr⟩ := hasync
    obtain ⟨hstarts, hgivesReal⟩ := hleaves a ha h (hr ▸ hresult)
    obtain ⟨w, hw⟩ := exists_result_of_settled hsettled ho hr
    unfold Outcome.ComesReal
    rw [hr]
    exact ⟨w, hw, hgivesReal w (hgives hm (hstarted a ha h hstarts) hlater hw)⟩
  · have hne : ∀ h, o.result ≠ .async h := fun h hr => hasync ⟨h, hr⟩
    exact (Outcome.Settled.final (t := m'.hub.handles) hne).isReal_iff.mp
      (isReal_of_isValid hval hne)

/-- Code of a handler that returns a text, and of one that returns a handle
with the text behind it. -/
def Behaviours.deferring : Behaviours Bool Unit where
  filter _ _ := .done true
  matcher _ _ := .done false
  handler again _ :=
    if again then
      .call (.request (.readyHandle (.of (.str "hi")))) fun (h : Handle) =>
        .done (.result (.async h))
    else .done (.text "hi")
  listenerInterceptor _ _ := .call .proceed .done
  processingInterceptor _ _ := .call .proceed .done
  onFailure := none

/-- A listener whose handler is started. -/
def ResolvedListener.deferring (id : Int) (parameters : List Parameter) (again : Bool) :
    ResolvedListener Bool :=
  ⟨⟨.ofInt id, .any, .normal, .async, [], [], ⟨parameters, again⟩⟩, 0, [], []⟩

/-- A scheduler with a hub of such listeners. -/
def Scheduler.deferring (rs : List (ResolvedListener Bool)) : Scheduler Bool Unit :=
  .fresh (.fresh ⟨⟨rs, [], [], []⟩, 1⟩ .default ())

/-- The handler returns a text, and this is what its handle makes place for. -/
theorem settle_resolves_deferring :
    ∃ m₁ m' : Scheduler Bool Unit, ∃ r',
      (Scheduler.deferring [.deferring 1 [] false]).dispatch .deferring none .bare
        = (some (.ok (.ok (.ofOutcomes [⟨.ofInt 1, .async ⟨0⟩⟩]))), m₁) ∧
      m₁.steps .deferring none 10
          (.main (ofUser (DispatchResult.ofOutcomes [⟨.ofInt 1, .async ⟨0⟩⟩]).settle))
        = (m', .ended (.ok r')) ∧
      ∀ o ∈ r'.outcomes, o.result.isReal = true := by
  obtain ⟨m₁, m', r', hrun, houtcomes, hsteps⟩ : ∃ m₁ m' : Scheduler Bool Unit, ∃ r',
      (Scheduler.deferring [.deferring 1 [] false]).dispatch .deferring none .bare
        = (some (.ok (.ok (.ofOutcomes [⟨.ofInt 1, .async ⟨0⟩⟩]))), m₁) ∧
      (m₁.hub.dispatchState ⟨0, .bare⟩).outcomes = [⟨.ofInt 1, .async ⟨0⟩⟩] ∧
      m₁.steps .deferring none 10
          (.main (ofUser (DispatchResult.ofOutcomes [⟨.ofInt 1, .async ⟨0⟩⟩]).settle))
        = (m', .ended (.ok r')) := ⟨_, _, _, rfl, rfl, rfl⟩
  refine ⟨m₁, m', r', hrun, hsteps, ?_⟩
  obtain ⟨-, hends⟩ := settle_resolves .deferring none m₁
    (.ofOutcomes [⟨.ofInt 1, .async ⟨0⟩⟩])
  obtain ⟨_, hr', -, -, hdispatch⟩ := hends 10 m' _ hsteps
  obtain rfl := Except.ok.inj hr'
  obtain ⟨_, _, _, _, os, attempts, _, _, hall, hrecorded, -, hreal⟩ :=
    hdispatch _ _ m₁ none .bare _ .fresh hrun .now
  refine hreal ?_ fun a ha h hresult => ?_
  · rw [hrecorded.told, ← hrecorded.outcomes]
    exact houtcomes.symm
  · obtain ⟨hmade, htarget, -⟩ := hall.processed.made ha
    have hlistener : a.listener = .deferring 1 [] false := List.mem_singleton.mp htarget
    have hopen : a.listener.IsOpen Behaviours.deferring ⟨0, .bare⟩ := by
      rw [hlistener]
      exact ⟨fun _ hf => absurd hf List.not_mem_nil, fun _ hi => absurd hi List.not_mem_nil,
        fun _ hi => absurd hi List.not_mem_nil⟩
    obtain ⟨h', hstarts⟩ := hopen.starts hmade (by rw [hlistener]; rfl)
    obtain rfl := EventResult.async.inj (Except.ok.inj (hresult.symm.trans hstarts.result))
    refine ⟨hstarts, fun w hw => ?_⟩
    rw [hlistener] at hw
    obtain ⟨t, e, hjob, rfl⟩ := hw
    obtain ⟨-, rfl⟩ := Program.runs_done_iff.mp hjob
    rfl

/-- **What is behind a handle can be a handle, or nothing.** One handler
returns a handle and one does not get its parameters. The results are waited
for to the end, and what is left comes later still, or is invalid. -/
theorem settle_falls_short :
    ∃ m₁ m' : Scheduler Bool Unit,
      (Scheduler.deferring [.deferring 1 [] true, .deferring 2 [.message] false]).dispatch
          .deferring none .bare
        = (some (.ok (.ok (.ofOutcomes [⟨.ofInt 1, .async ⟨0⟩⟩, ⟨.ofInt 2, .async ⟨1⟩⟩]))), m₁) ∧
      m₁.run .deferring none (ofUser
          (DispatchResult.ofOutcomes [⟨.ofInt 1, .async ⟨0⟩⟩, ⟨.ofInt 2, .async ⟨1⟩⟩]).settle)
        = (some (.ok (.ofOutcomes [⟨.ofInt 1, .async ⟨2⟩⟩, ⟨.ofInt 2, .invalid⟩])), m') ∧
      m'.hub.handles.result? ⟨2⟩ = some (.of (.str "hi")) :=
  ⟨_, _, rfl, rfl, rfl⟩

end Switchboard
