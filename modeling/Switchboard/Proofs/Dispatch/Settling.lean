import Switchboard.Proofs.Chain.Passing
import Switchboard.Proofs.Dispatch.Attendance

/-!
# How the result of a handler comes about

A handler runs to an end. A panic counts as a failure, and a failure is
handed to the handler of failures, if there is one, which gives the result
in its place. That is a `Settling`, and it is the same wherever the handler
runs: a handler that is started goes through one by itself (`runJob_runs_iff`),
and the dispatch that awaits a handler goes through one around which the
interceptors of the listener act (`settling_of_attempt`).

A dispatch that does not await the handler goes through none. All it does is
start the handler, once, and pass its handle on (`spawning_of_attempt`).
-/

namespace Switchboard

variable {β σ α : Type}

open HubProgram

section Ends

variable {B : Behaviours β σ} {s : DispatchSettings}

/-! ## How the parts of a dispatch end -/

theorem ends_lift (c : UserCall β σ) : (lift c).Ends fun e => ∃ r, e = .ok r :=
  Program.ends_call_iff.mpr fun r => Program.ends_done_iff.mpr ⟨r, rfl⟩

theorem ends_ofRequests {P : Except Payload α → Prop} {p : Program (requests β σ) α}
    (hp : p.Ends P) : (ofRequests p).Ends P :=
  Program.Ends.interpret (S := requests β σ) (T := hubCalls β σ)
    (f := fun c => .user (.request c)) (g := fun _ r => r) hp

/-- Filters that accept leave the answer to those behind them. -/
theorem ends_acceptedBy_append {c : ListenerContext} {fs rest : List β}
    {P : Except Payload Bool → Prop} (h : ∀ f ∈ fs, (B.filter f c).Ends (· = .ok true))
    (hrest : (acceptedBy B c rest).Ends P) : (acceptedBy B c (fs ++ rest)).Ends P := by
  induction fs with
  | nil => exact hrest
  | cons f fs ih =>
    have hfirst := ends_ofRequests (h f List.mem_cons_self)
    refine hfirst.bind (fun p hp => absurd hp (by simp)) fun accepts haccepts => ?_
    obtain rfl := Except.ok.inj haccepts
    exact ih fun g hg => h g (List.mem_cons_of_mem f hg)

/-- Filters that all accept do so together. -/
theorem ends_acceptedBy {c : ListenerContext} {fs : List β}
    (h : ∀ f ∈ fs, (B.filter f c).Ends (· = .ok true)) :
    (acceptedBy B c fs).Ends (· = .ok true) := by
  have hnone : (acceptedBy B c []).Ends (· = .ok true) := Program.ends_done_iff.mpr rfl
  rw [← List.append_nil fs]
  exact ends_acceptedBy_append h hnone

variable {c : EventContext} {r : ResolvedListener β}

/-- **A listener ends as its chain and the handler of failures let it**, if
panics are caught: it panics only where the handler of failures does. -/
theorem ends_attempt {R : Except Payload (Except DispatchError EventResult) → Prop}
    {Q : Except Payload (Except DispatchError EventResult) → Prop} (hs : s.catchPanics = true)
    (hchain : (runListener B s r (r.context c)).Ends R)
    (herror : ∀ e d, R e → chainFailure e = .error d → Q (.ok (.error d)))
    (hfinal : ∀ e x, R e → chainFailure e = .ok x →
      (handleFailure B (r.context c) x).Ends fun y => Q (y.map .ok)) :
    (attempt B s c r).Ends Q := by
  unfold attempt guardListener
  rw [if_pos hs, Program.bind_assoc]
  refine hchain.recover_bind fun e he => ?_
  rw [Program.done_bind]
  cases hx : chainFailure e with
  | error d => exact Program.ends_done_iff.mpr (herror e d he hx)
  | ok x =>
    exact (hfinal e x he hx).bind (fun p hp => hp) fun y hy => Program.ends_done_iff.mpr hy

end Ends

/-! ## Settlings -/

/-- **How a result comes about** from a run of a handler. -/
structure Settling (β σ : Type) where
  /-- The exchanges of the handler. -/
  running : HubTrace β σ
  /-- How the handler ended. -/
  ending : Except Payload EventResult
  /-- The exchanges of the handler of failures. -/
  handling : HubTrace β σ
  result : EventResult

/-- The failures for which the handler of failures is called, given the
result that it is to replace. -/
def Behaviours.handed (B : Behaviours β σ) : EventResult → List Failure
  | .failed f => if B.onFailure.isSome then [f] else []
  | _ => []

namespace Settling

/-- The handler runs to its end, and what that comes to is the result,
unless it is a failure that is replaced. -/
structure Made (B : Behaviours β σ) (job : Job β) (x : Settling β σ) : Prop where
  running : (runHandler B job).Runs x.running x.ending
  handling : (handleFailure B job.context (asFailure x.ending)).Runs x.handling (.ok x.result)

/-- The failures for which the handler of failures is called. -/
def handed (B : Behaviours β σ) (x : Settling β σ) : List Failure := B.handed (asFailure x.ending)

end Settling

/-- The failures of a listener for which the handler of failures is called
in an attempt. -/
def Attempt.handed (B : Behaviours β σ) (s : DispatchSettings) (a : Attempt β σ) : List Failure :=
  match s.caught a.ending with
  | some (.ok r) => B.handed r
  | _ => []

section Settlings

variable {B : Behaviours β σ} {s : DispatchSettings} {job : Job β}

/-- What a handler comes to that has ended so. A panic that is not caught
goes on. -/
def DispatchSettings.guarded (s : DispatchSettings) :
    Except Payload EventResult → Except Payload EventResult
  | .ok r => .ok r
  | .error p => if s.catchPanics then .ok (.failed (.ofPanic p)) else .error p

/-- A handler comes to a result if it ends in one, or its panic is caught. -/
theorem guarded_eq_ok_iff {out : Except Payload EventResult} {x : EventResult} :
    s.guarded out = .ok x ↔
      (s.catchPanics = true ∨ ∃ y, out = .ok y) ∧ asFailure out = x := by
  cases out with
  | ok y => simp [DispatchSettings.guarded, asFailure]
  | error p => cases hs : s.catchPanics <;> simp [DispatchSettings.guarded, asFailure, hs]

/-- A panic that is not caught goes on. -/
theorem guarded_eq_error_iff {out : Except Payload EventResult} {p : Payload} :
    s.guarded out = .error p ↔ s.catchPanics = false ∧ out = .error p := by
  cases out with
  | ok y => simp [DispatchSettings.guarded]
  | error q => cases hs : s.catchPanics <;> simp [DispatchSettings.guarded, hs]

/-- A guarded handler runs as the handler does. -/
theorem guardHandler_runs_guarded {t : HubTrace β σ} {e : Except Payload EventResult} :
    (guardHandler B s job).Runs t e ↔
      ∃ out, (runHandler B job).Runs t out ∧ e = s.guarded out := by
  unfold guardHandler DispatchSettings.guarded
  cases s.catchPanics with
  | true =>
    rw [if_pos rfl, Program.runs_bind_done_iff]
    constructor
    · rintro ⟨e', hrun, rfl⟩
      obtain ⟨out, rfl, hout⟩ := Program.runs_recover_iff.mp hrun
      refine ⟨out, hout, ?_⟩
      cases out <;> rfl
    · rintro ⟨out, hout, rfl⟩
      refine ⟨.ok out, Program.runs_recover_iff.mpr ⟨out, rfl, hout⟩, ?_⟩
      cases out <;> rfl
  | false =>
    rw [if_neg Bool.false_ne_true]
    constructor
    · intro hrun
      refine ⟨e, hrun, ?_⟩
      cases e <;> rfl
    · rintro ⟨out, hout, rfl⟩
      cases out <;> exact hout

/-- Where panics are caught, a handler ends in a result. -/
theorem guardHandler_runs_iff (hs : s.catchPanics = true) {t : HubTrace β σ}
    {e : Except Payload EventResult} :
    (guardHandler B s job).Runs t e ↔
      ∃ out, (runHandler B job).Runs t out ∧ e = .ok (asFailure out) := by
  have hguarded : ∀ out, s.guarded out = .ok (asFailure out) :=
    fun out => guarded_eq_ok_iff.mpr ⟨.inl hs, rfl⟩
  simp only [guardHandler_runs_guarded, hguarded]

/-- **A handler that is started goes through a settling**, and gives its
result. -/
theorem runJob_runs_iff (hs : s.catchPanics = true) {t : HubTrace β σ} {w : EventResult} :
    (runJob B s job).Runs t (.ok w) ↔
      ∃ x : Settling β σ, x.Made B job ∧ t = x.running ++ x.handling ∧ w = x.result := by
  unfold runJob
  simp only [Program.runs_bind_ok_iff, guardHandler_runs_iff hs]
  constructor
  · rintro ⟨r, u, v, rfl, ⟨out, hu, hr⟩, hv⟩
    obtain rfl := Except.ok.inj hr
    exact ⟨⟨u, out, v, w⟩, ⟨hu, hv⟩, rfl, rfl⟩
  · rintro ⟨x, hx, rfl, rfl⟩
    exact ⟨_, _, _, rfl, ⟨_, hx.running, rfl⟩, hx.handling⟩

/-- A handler that is started ends as the handler of failures lets it. -/
theorem ends_runJob (hs : s.catchPanics = true) {R Q : Except Payload EventResult → Prop}
    (hrun : (runHandler B job).Ends R)
    (hfinal : ∀ out, R out → (handleFailure B job.context (asFailure out)).Ends Q) :
    (runJob B s job).Ends Q := by
  unfold runJob guardHandler
  rw [if_pos hs, Program.bind_assoc]
  exact hrun.recover_bind hfinal

end Settlings

/-! ## Listeners whose interceptors pass on -/

namespace ResolvedListener

/-- The handler of a listener, invoked by a dispatch. -/
def job (r : ResolvedListener β) (c : EventContext) : Job β := ⟨r.listener.handler, r.context c⟩

/-- **A listener is open** in a dispatch: its filters accept the event, and
its interceptors pass on what they are given. -/
structure IsOpen (B : Behaviours β σ) (c : EventContext) (r : ResolvedListener β) : Prop where
  accepts : ∀ f ∈ r.listener.filters, (B.filter f (r.context c)).Ends (· = .ok true)
  before : ∀ i ∈ r.before, (B.listenerInterceptor i.run (r.context c)).PassesOn
  after : ∀ i ∈ r.after, (B.listenerInterceptor i.run (r.context c)).PassesOn

/-- **The interceptors of a listener pass on** what they are given in a
dispatch, whether its filters accept the event or not. -/
structure Passes (B : Behaviours β σ) (c : EventContext) (r : ResolvedListener β) : Prop where
  before : ∀ i ∈ r.before, (B.listenerInterceptor i.run (r.context c)).PassesOn
  after : ∀ i ∈ r.after, (B.listenerInterceptor i.run (r.context c)).PassesOn

theorem IsOpen.passes {B : Behaviours β σ} {c : EventContext} {r : ResolvedListener β}
    (h : r.IsOpen B c) : r.Passes B c := ⟨h.before, h.after⟩

end ResolvedListener

section Passing

variable {B : Behaviours β σ} {s : DispatchSettings} {c : EventContext} {r : ResolvedListener β}
  {a : Attempt β σ}

theorem passesOn_listenerStages {lc : ListenerContext} {is : List (Interceptor β)}
    (h : ∀ i ∈ is, (B.listenerInterceptor i.run lc).PassesOn) :
    ∀ stage ∈ listenerStages B lc is, stage.run.PassesOn := by
  intro stage hstage
  obtain ⟨i, hi, rfl⟩ := List.mem_map.mp hstage
  exact h i hi

/-- **The chain of a listener whose interceptors pass on** runs around its
filters and, if these accept, around the invocation of its handler, and ends
as this does. -/
theorem ResolvedListener.Passes.runs (h : r.Passes B c) {t : HubTrace β σ}
    {e : Except Payload (Except DispatchError EventResult)}
    (hrun : (runListener B s r (r.context c)).Runs t e) :
    (∃ e', Around ByUser (acceptedBy B (r.context c) r.listener.filters) t e' ∧ e' ≠ .ok true ∧
      e = e'.map fun _ => .ok .invalid) ∨
    ∃ e', Around ByUser (invoke B s r.listener (r.context c) .start) t e' ∧ e = resultOf e' := by
  obtain ⟨e₁, hstages, rfl⟩ := Program.runs_bind_done_iff.mp hrun
  obtain ⟨e₂, hmatch, hend⟩ := runs_runStages_passing only_lift ends_lift
    (passesOn_listenerStages h.before) rfl hstages
  obtain ⟨u, v, w, rfl, hv, hu, hw⟩ := hmatch
  rcases Program.runs_bind_iff.mp hv with ⟨p, rfl, hp⟩ | ⟨accepted, v₁, v₂, rfl, hv₁, hv₂⟩
  · exact .inl ⟨.error p, ⟨u, v, w, rfl, hp, hu, hw⟩, by simp, hend⟩
  · cases accepted with
    | false =>
      obtain ⟨rfl, rfl⟩ := Program.runs_done_iff.mp hv₂
      rw [List.append_nil]
      exact .inl ⟨.ok false, ⟨u, v₁, w, rfl, hv₁, hu, hw⟩, by simp, hend⟩
    | true =>
      -- the filters have accepted, so what was run inside is the inner chain
      obtain ⟨e₃, hinvoke, hend'⟩ := runs_runStages_passing only_lift ends_lift
        (passesOn_listenerStages h.after) rfl hv₂
      have hasked := (only_acceptedBy B (r.context c) r.listener.filters).of_runs hv₁
      have haround := (hinvoke.extend hasked (w := []) (by simp)).extend hu hw
      rw [List.append_nil] at haround
      exact .inr ⟨e₃, haround, hend.trans hend'⟩

/-- **The chain of an open listener** runs around the invocation of its
handler, and ends as this does. -/
theorem ResolvedListener.IsOpen.runs (h : r.IsOpen B c) {t : HubTrace β σ}
    {e : Except Payload (Except DispatchError EventResult)}
    (hrun : (runListener B s r (r.context c)).Runs t e) :
    ∃ e', Around ByUser (invoke B s r.listener (r.context c) .start) t e' ∧ e = resultOf e' := by
  rcases h.passes.runs hrun with ⟨e', ⟨u, v, w, -, hv, -, -⟩, hrefused, -⟩ | hinvoked
  · exact absurd (ends_acceptedBy h.accepts v e' hv) hrefused
  · exact hinvoked

/-- The handler is awaited, where panics are caught or not. -/
theorem invoke_runs_guarded {l : Listener β} (hmode : l.mode = .blocking) {lc : ListenerContext}
    {f : Frame EventResult} {t : HubTrace β σ}
    {e : Except Payload (Frame EventResult × Except DispatchError EventResult)}
    (hrun : (invoke B s l lc f).Runs t e) :
    ∃ out, (runHandler B ⟨l.handler, lc⟩).Runs t out ∧
      e = (s.guarded out).map fun x => (f, .ok x) := by
  unfold invoke at hrun
  rw [hmode] at hrun
  obtain ⟨e', hguarded, rfl⟩ := Program.runs_bind_done_iff.mp hrun
  obtain ⟨out, hout, rfl⟩ := guardHandler_runs_guarded.mp hguarded
  exact ⟨out, hout, rfl⟩

/-- The handler is awaited: the chain is left with what it came to. -/
theorem invoke_runs_blocking (hs : s.catchPanics = true) {l : Listener β}
    (hmode : l.mode = .blocking) {lc : ListenerContext} {f : Frame EventResult}
    {t : HubTrace β σ} {e : Except Payload (Frame EventResult × Except DispatchError EventResult)}
    (hrun : (invoke B s l lc f).Runs t e) :
    ∃ out, (runHandler B ⟨l.handler, lc⟩).Runs t out ∧ e = .ok (f, .ok (asFailure out)) := by
  unfold invoke at hrun
  rw [hmode] at hrun
  obtain ⟨e', hguarded, rfl⟩ := Program.runs_bind_done_iff.mp hrun
  obtain ⟨out, hout, rfl⟩ := (guardHandler_runs_iff hs).mp hguarded
  exact ⟨out, hout, rfl⟩

/-- The handler is started: the chain is left with its handle. -/
theorem invoke_runs_async {l : Listener β} (hmode : l.mode = .async) {lc : ListenerContext}
    {f : Frame EventResult} {t : HubTrace β σ}
    {e : Except Payload (Frame EventResult × Except DispatchError EventResult)}
    (hrun : (invoke B s l lc f).Runs t e) :
    ∃ h, t = [⟨.spawn ⟨l.handler, lc⟩, h⟩] ∧ e = .ok (f, .ok (.async h)) := by
  unfold invoke at hrun
  rw [hmode] at hrun
  obtain ⟨h, u, rfl, hu⟩ := Program.runs_call_iff.mp hrun
  obtain ⟨rfl, rfl⟩ := Program.runs_done_iff.mp hu
  exact ⟨h, rfl, rfl⟩

/-- What the chain of a listener comes to is handed on, and the handler of
failures makes the result of it. -/
theorem Attempt.Made.handled {x : EventResult} (ha : a.Made B s c)
    (hcaught : s.caught a.ending = some (.ok x)) :
    ∃ w, a.result = .ok w ∧
      (handleFailure B (a.listener.context c) x).Runs a.handling (.ok w) ∧
      a.handed B s = B.handed x := by
  rcases ha.final with ⟨d, he, -, -⟩ | ⟨y, w, hy, hresult, hhandling⟩
  · exact absurd (hcaught.symm.trans he) (by simp)
  · obtain rfl : x = y := Except.ok.inj (Option.some.inj (hcaught.symm.trans hy))
    refine ⟨w, hresult, hhandling, ?_⟩
    unfold Attempt.handed
    rw [hcaught]

/-- **A dispatch that awaits the handler** of an open listener goes through
a settling. The interceptors act before and after the handler. -/
theorem settling_of_attempt (hs : s.catchPanics = true) (ha : a.Made B s c)
    (hopen : a.listener.IsOpen B c) (hmode : a.listener.listener.mode = .blocking) :
    ∃ x : Settling β σ, x.Made B (a.listener.job c) ∧ a.result = .ok x.result ∧
      Around ByUser (runHandler B (a.listener.job c)) a.chain x.ending ∧
      a.handling = x.handling ∧ a.handed B s = x.handed B := by
  obtain ⟨e', ⟨u, v, w, hsplit, hv, hu, hw⟩, hend⟩ := hopen.runs ha.chain
  obtain ⟨out, hout, rfl⟩ := invoke_runs_blocking hs hmode hv
  have hcaught : s.caught a.ending = some (.ok (asFailure out)) := by
    rw [hend]
    rfl
  obtain ⟨y, hresult, hhandling, hhanded⟩ := ha.handled hcaught
  exact ⟨⟨v, out, a.handling, y⟩, ⟨hout, hhandling⟩, hresult, ⟨u, v, w, hsplit, hout, hu, hw⟩,
    rfl, hhanded⟩

/-- **A dispatch that does not await the handler** of an open listener
starts it, once, and is left with its handle. -/
theorem spawning_of_attempt (ha : a.Made B s c) (hopen : a.listener.IsOpen B c)
    (hmode : a.listener.listener.mode = .async) :
    ∃ h, a.result = .ok (.async h) ∧
      Around ByUser (.call (.spawn (a.listener.job c)) .done) a.chain (.ok h) ∧
      a.handling = [] ∧ a.handed B s = [] := by
  obtain ⟨e', ⟨u, v, w, hsplit, hv, hu, hw⟩, hend⟩ := hopen.runs ha.chain
  obtain ⟨h, rfl, rfl⟩ := invoke_runs_async hmode hv
  have hcaught : s.caught a.ending = some (.ok (.async h)) := by
    rw [hend]
    rfl
  obtain ⟨y, hresult, hhandling, hhanded⟩ := ha.handled hcaught
  obtain ⟨hnone, hy⟩ := Program.runs_done_iff.mp hhandling
  obtain rfl := Except.ok.inj hy
  exact ⟨h, hresult, ⟨u, _, w, hsplit, .call (.done h), hu, hw⟩, hnone, hhanded⟩

end Passing

end Switchboard
