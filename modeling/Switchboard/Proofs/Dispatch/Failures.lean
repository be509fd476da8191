import Switchboard.Proofs.Dispatch.Settling

/-!
# Listeners that fail

A listener can fail in many places. A filter can panic, or an interceptor,
before it proceeds or after it has, or the handler, which can return an
error as well (`ResolvedListener.Breaks`). A panic of the handler is caught
next to it, and the interceptors see a result. Any other panic unwinds the
interceptors around it, and is caught where the chain of the listener ends.

Where panics are caught the difference does not matter. The failure is
handed to the handler of failures, and what this makes of it is the result
of the listener (`ResolvedListener.Breaks.fails`). It is so later, if the
handler was started and fails on its own. If the handler of failures neither
panics nor truncates, the dispatch goes on (`Attempt.Fails.goesOn`), and in
any case it does not panic (`ends_listenersStage`).
-/

namespace Switchboard

variable {β σ α : Type}

open HubProgram

/-- A panic whose failure is of a sort. This failure is marked as a panic,
and its message is the text of the payload, if that is one. -/
def Panicked (Q : Failure → Prop) (e : Except Payload α) : Prop :=
  ∃ p, e = .error p ∧ Q (.ofPanic p)

/-- **A program always panics**, with a failure of a sort. -/
def Program.Panics {S : Signature} (Q : Failure → Prop) (m : Program S α) : Prop :=
  m.Ends (Panicked Q)

/-- What follows a panic is not reached. -/
theorem Program.Panics.bind {S : Signature} {γ : Type} {Q : Failure → Prop} {m : Program S α}
    (h : m.Panics Q) (f : α → Program S γ) : (m.bind f).Panics Q := by
  refine Program.Ends.bind h (fun p hp => ?_) fun a ha => ?_
  · obtain ⟨q, hq, hQ⟩ := hp
    exact ⟨q, congrArg _ (Except.error.inj hq), hQ⟩
  · obtain ⟨q, hq, -⟩ := ha
    exact absurd hq (by simp)

/-- **Failures are forgiven**: the handler of failures, if there is one,
neither panics nor truncates. -/
def Behaviours.Forgiving (B : Behaviours β σ) : Prop :=
  ∀ handle, B.onFailure = some handle →
    ∀ lc f, (handle lc f).Ends fun e => ∃ w, e = .ok w ∧ w.isTruncated = false

/-- A result is made of a failure of a sort: it is what the handler of
failures can answer to it, or the failure itself if there is none. -/
def Behaviours.MadeOf (B : Behaviours β σ) (lc : ListenerContext) (Q : Failure → Prop)
    (w : EventResult) : Prop :=
  ∃ f t, Q f ∧ (handleFailure B lc (.failed f)).Runs t (.ok w)

/-! ## Nothing panics -/

section Calm

variable {B : Behaviours β σ} {s : DispatchSettings} {c : EventContext} {lc : ListenerContext}

/-- The handler of failures does not panic, and it does not truncate. -/
theorem Behaviours.Forgiving.ends (hB : B.Forgiving) (lc : ListenerContext) (x : EventResult) :
    (handleFailure B lc x).Ends fun e =>
      ∃ w, e = .ok w ∧ (x.isTruncated = false → w.isTruncated = false) := by
  unfold handleFailure
  split
  · split
    · next hhandle =>
      refine (ends_ofRequests (hB _ hhandle lc _)).mono ?_
      rintro e ⟨w, rfl, hw⟩
      exact ⟨w, rfl, fun _ => hw⟩
    · exact Program.ends_done_iff.mpr ⟨_, rfl, id⟩
  · exact Program.ends_done_iff.mpr ⟨_, rfl, id⟩

theorem ends_attempt_ok (hs : s.catchPanics = true) (hB : B.Forgiving) (r : ResolvedListener β) :
    (attempt B s c r).Ends fun e => ∃ x, e = .ok x := by
  refine ends_attempt (R := fun _ => True) hs (fun _ _ _ => trivial) (fun e d _ _ => ⟨_, rfl⟩) ?_
  intro e x _ _
  refine (hB.ends (r.context c) x).mono ?_
  rintro y ⟨w, rfl, -⟩
  exact ⟨_, rfl⟩

/-- Attending to listeners does not panic, whatever they do. -/
theorem ends_attendAll (hs : s.catchPanics = true) (hB : B.Forgiving)
    (rs : List (ResolvedListener β)) : (attendAll B s c rs).Ends fun e => ∃ x, e = .ok x := by
  induction rs with
  | nil => exact Program.ends_done_iff.mpr ⟨_, rfl⟩
  | cons r rs ih =>
    intro t e hrun
    rcases attendAll_cons_runs hrun with ⟨p, -, hp⟩ | ⟨a, v, -, -, -, hnext⟩
    · obtain ⟨x, hx⟩ := ends_attempt_ok hs hB r t _ hp
      exact absurd hx (by simp)
    · rcases hnext with ⟨-, hv⟩ | ⟨-, -, he⟩
      · exact ih v e hv
      · exact ⟨_, he⟩

/-- **The end of the processing chain does not panic**, whatever the
listeners do. -/
theorem ends_listenersStage (hs : s.catchPanics = true) (hB : B.Forgiving) (b : Beginning β) :
    (listenersStage B s b).Ends fun e => ∃ x, e = .ok x := by
  refine Program.Ends.bind_ok (R := fun _ => True)
    ((ends_attendAll hs hB b.targets).mono fun e he => ?_) fun ended _ => ?_
  · obtain ⟨x, hx⟩ := he
    exact ⟨x, hx, trivial⟩
  · cases ended with
    | error d => exact Program.ends_done_iff.mpr ⟨_, rfl⟩
    | ok u => exact Program.ends_call_iff.mpr fun os => Program.ends_done_iff.mpr ⟨_, rfl⟩

/-- The invocation of a handler does not panic. -/
theorem ends_invoke (hs : s.catchPanics = true) (l : Listener β) (f : Frame EventResult) :
    (invoke B s l lc f).Ends fun e => ∃ x, resultOf e = .ok x := by
  intro t e hrun
  cases hmode : l.mode with
  | blocking =>
    obtain ⟨out, -, rfl⟩ := invoke_runs_blocking hs hmode hrun
    exact ⟨_, rfl⟩
  | async =>
    obtain ⟨h, -, rfl⟩ := invoke_runs_async hmode hrun
    exact ⟨_, rfl⟩

end Calm

/-! ## Where a listener breaks -/

/-- **A listener breaks** in a dispatch, with failures of a sort: at one
place there is code that always panics, or a handler that always fails, and
all other code lets the dispatch get there and out again. -/
inductive ResolvedListener.Breaks (B : Behaviours β σ) (c : EventContext)
    (r : ResolvedListener β) (Q : Failure → Prop) : Prop
  /-- A filter panics, and those before it accept. -/
  | filter {asked rest : List β} {f : β} : r.listener.filters = asked ++ f :: rest →
      (∀ g ∈ asked, (B.filter g (r.context c)).Ends (· = .ok true)) →
      (B.filter f (r.context c)).Panics Q →
      (∀ i ∈ r.before, (B.listenerInterceptor i.run (r.context c)).PassesOn) → Breaks B c r Q
  /-- An interceptor around the filters panics, before it proceeds or after
  it has. -/
  | before {outer inner : List (Interceptor β)} {i : Interceptor β} :
      r.before = outer ++ i :: inner →
      (∀ j ∈ outer ++ inner ++ r.after, (B.listenerInterceptor j.run (r.context c)).PassesOn) →
      (∀ f ∈ r.listener.filters,
        (B.filter f (r.context c)).Ends fun e => ∃ b, e = .ok b) →
      (B.listenerInterceptor i.run (r.context c)).Panics Q → Breaks B c r Q
  /-- An interceptor around the handler panics, before it proceeds or after
  it has. -/
  | after {outer inner : List (Interceptor β)} {i : Interceptor β} :
      r.after = outer ++ i :: inner →
      (∀ j ∈ r.before ++ (outer ++ inner),
        (B.listenerInterceptor j.run (r.context c)).PassesOn) →
      (∀ f ∈ r.listener.filters, (B.filter f (r.context c)).Ends (· = .ok true)) →
      (B.listenerInterceptor i.run (r.context c)).Panics Q → Breaks B c r Q
  /-- The handler panics or returns a failure. -/
  | handler : r.IsOpen B c →
      (runHandler B (r.job c)).Ends (fun out => ∃ f, asFailure out = .failed f ∧ Q f) →
      Breaks B c r Q

section Breaks

variable {B : Behaviours β σ} {s : DispatchSettings} {c : EventContext} {lc : ListenerContext}
  {r : ResolvedListener β} {Q : Failure → Prop}

/-- A filter that panics is asked once those before it have accepted. -/
theorem panics_acceptedBy {asked rest : List β} {f : β}
    (hasked : ∀ g ∈ asked, (B.filter g lc).Ends (· = .ok true))
    (hpanics : (B.filter f lc).Panics Q) : (acceptedBy B lc (asked ++ f :: rest)).Panics Q :=
  ends_acceptedBy_append hasked (Program.Panics.bind (ends_ofRequests hpanics) _)

/-- Filters that do not panic do not panic together. -/
theorem ends_acceptedBy_ok {fs : List β}
    (h : ∀ f ∈ fs, (B.filter f lc).Ends fun e => ∃ b, e = .ok b) :
    (acceptedBy B lc fs).Ends fun e => ∃ b, e = .ok b := by
  induction fs with
  | nil => exact Program.ends_done_iff.mpr ⟨_, rfl⟩
  | cons f fs ih =>
    refine (ends_ofRequests (h f List.mem_cons_self)).bind (fun p hp => absurd hp (by simp)) ?_
    intro accepts _
    cases accepts with
    | true => exact ih fun g hg => h g (List.mem_cons_of_mem f hg)
    | false => exact Program.ends_done_iff.mpr ⟨_, rfl⟩

/-- The middle of the chain does not panic, if the filters do not and the
interceptors around the handler pass on. -/
theorem ends_matchThen (hs : s.catchPanics = true)
    (hfilters : ∀ f ∈ r.listener.filters, (B.filter f lc).Ends fun e => ∃ b, e = .ok b)
    (hafter : ∀ i ∈ r.after, (B.listenerInterceptor i.run lc).PassesOn) {f : Frame EventResult}
    (hf : f.substitute = none) :
    (matchThen B s r lc f).Ends fun e => ∃ x, resultOf e = .ok x := by
  refine (ends_acceptedBy_ok hfilters).bind (fun p hp => absurd hp (by simp)) ?_
  intro accepts _
  cases accepts with
  | true =>
    exact ends_runStages_passing (R := fun e => ∃ x, e = .ok x) only_lift ends_lift
      (passesOn_listenerStages hafter) hf (ends_invoke hs r.listener f)
  | false => exact Program.ends_done_iff.mpr ⟨_, rfl⟩

/-- A chain ends as its stages let it. -/
theorem ends_runListener {R : Except Payload (Except DispatchError EventResult) → Prop}
    (h : (runStages lift (matchThen B s r lc) (listenerStages B lc r.before) .start).Ends
      fun e => R (resultOf e)) : (runListener B s r lc).Ends R :=
  h.bind (fun _ hp => hp) fun _ hx => Program.ends_done_iff.mpr hx

/-- A chain of interceptors panics, if one of them does and the others pass
on. -/
theorem panics_listenerStages {is outer inner : List (Interceptor β)} {i : Interceptor β}
    (hsplit : is = outer ++ i :: inner)
    (hothers : ∀ j ∈ outer ++ inner, (B.listenerInterceptor j.run lc).PassesOn)
    (hpanics : (B.listenerInterceptor i.run lc).Panics Q)
    {terminal : Frame EventResult →
      HubProgram β σ (Frame EventResult × Except DispatchError EventResult)}
    (hterminal : ∀ f, f.substitute = none → (terminal f).Ends fun e => ∃ x, resultOf e = .ok x)
    {f : Frame EventResult} (hf : f.substitute = none) :
    (runStages lift terminal (listenerStages B lc is) f).Ends
      fun e => Panicked Q (resultOf e) := by
  unfold listenerStages
  rw [hsplit, List.map_append, List.map_cons]
  exact ends_runStages_within (s := ⟨i.id, B.listenerInterceptor i.run lc⟩) only_lift ends_lift
    hterminal (passesOn_listenerStages fun j hj => hothers j (List.mem_append_left _ hj))
    (passesOn_listenerStages fun j hj => hothers j (List.mem_append_right _ hj)) hpanics hf

/-- **A listener that breaks outside of its handler** has a chain that
panics. -/
theorem ResolvedListener.Breaks.panics (h : r.Breaks B c Q) (hs : s.catchPanics = true) :
    (runListener B s r (r.context c)).Panics Q ∨
      r.IsOpen B c ∧
        (runHandler B (r.job c)).Ends fun out => ∃ f, asFailure out = .failed f ∧ Q f := by
  cases h with
  | @filter asked rest f hsplit hasked hpanics hbefore =>
    refine .inl (ends_runListener (R := Panicked Q) ?_)
    refine ends_runStages_passing (R := Panicked Q) only_lift ends_lift
      (passesOn_listenerStages hbefore) rfl ?_
    unfold matchThen
    rw [hsplit]
    refine (Program.Panics.bind (panics_acceptedBy hasked hpanics) _).mono ?_
    rintro e ⟨p, rfl, hQ⟩
    exact ⟨p, rfl, hQ⟩
  | @before outer inner i hsplit hothers hfilters hpanics =>
    refine .inl (ends_runListener (R := Panicked Q) ?_)
    have hafter : ∀ j ∈ r.after, (B.listenerInterceptor j.run (r.context c)).PassesOn :=
      fun j hj => hothers j (List.mem_append_right _ hj)
    exact panics_listenerStages hsplit (fun j hj => hothers j (List.mem_append_left _ hj)) hpanics
      (fun f hf => ends_matchThen hs hfilters hafter hf) rfl
  | @after outer inner i hsplit hothers haccepts hpanics =>
    refine .inl (ends_runListener (R := Panicked Q) ?_)
    have hbefore : ∀ j ∈ r.before, (B.listenerInterceptor j.run (r.context c)).PassesOn :=
      fun j hj => hothers j (List.mem_append_left _ hj)
    refine ends_runStages_passing (R := Panicked Q) only_lift ends_lift
      (passesOn_listenerStages hbefore) rfl ?_
    unfold matchThen
    refine (ends_acceptedBy haccepts).bind (fun p hp => absurd hp (by simp)) fun accepts ha => ?_
    obtain rfl := Except.ok.inj ha
    exact panics_listenerStages hsplit (fun j hj => hothers j (List.mem_append_right _ hj)) hpanics
      (fun f _ => ends_invoke hs r.listener f) rfl
  | handler hopen hfails => exact .inr ⟨hopen, hfails⟩

end Breaks

/-! ## What comes of it -/

/-- **An attempt fails** with a failure of a sort. -/
inductive Attempt.Fails (B : Behaviours β σ) (s : DispatchSettings) (c : EventContext)
    (Q : Failure → Prop) (a : Attempt β σ) : Prop
  /-- The failure is handed on, and what is made of it is the result. -/
  | settled {f : Failure} {w : EventResult} : Q f → a.handed B s = B.handed (.failed f) →
      (handleFailure B (a.listener.context c) (.failed f)).Runs a.handling (.ok w) →
      a.result = .ok w → Fails B s c Q a
  /-- The handler is started, once, and fails whenever it runs. What is made
  of that is what it gives. -/
  | started {h : Handle} : a.listener.listener.mode = .async → a.result = .ok (.async h) →
      Around ByUser (.call (.spawn (a.listener.job c)) .done) a.chain (.ok h) →
      (runJob B s (a.listener.job c)).Ends
        (fun e => ∃ w, e = .ok w ∧ B.MadeOf (a.listener.context c) Q w) → Fails B s c Q a

section Fails

variable {B : Behaviours β σ} {s : DispatchSettings} {c : EventContext} {Q : Failure → Prop}
  {r : ResolvedListener β} {a : Attempt β σ}

/-- A handler that fails whenever it runs gives what is made of its failure. -/
theorem ends_job_of_fails (hs : s.catchPanics = true) (hB : B.Forgiving)
    (h : (runHandler B (r.job c)).Ends fun out => ∃ f, asFailure out = .failed f ∧ Q f) :
    (runJob B s (r.job c)).Ends fun e => ∃ w, e = .ok w ∧ B.MadeOf (r.context c) Q w := by
  refine ends_runJob hs h fun out hout => ?_
  obtain ⟨f, hf, hQ⟩ := hout
  rw [hf]
  intro t e hrun
  obtain ⟨w, rfl, -⟩ := hB.ends _ _ t e hrun
  exact ⟨w, rfl, f, t, hQ, hrun⟩

/-- **A listener that breaks fails.** -/
theorem ResolvedListener.Breaks.fails (h : a.listener.Breaks B c Q) (hs : s.catchPanics = true)
    (hB : B.Forgiving) (ha : a.Made B s c) : a.Fails B s c Q := by
  rcases h.panics hs with hpanics | ⟨hopen, hfails⟩
  -- the chain has panicked, and that is caught at its end
  · obtain ⟨p, hp, hQ⟩ := hpanics _ _ ha.chain
    have hcaught : s.caught a.ending = some (.ok (.failed (.ofPanic p))) := by
      rw [hp]
      exact if_pos hs
    obtain ⟨w, hresult, hhandling, hhanded⟩ := ha.handled hcaught
    exact .settled hQ hhanded hhandling hresult
  -- the handler has failed, or will do so
  · cases hmode : a.listener.listener.mode with
    | blocking =>
      obtain ⟨x, hx, hresult, -, hhandling, hhanded⟩ := settling_of_attempt hs ha hopen hmode
      obtain ⟨f, hf, hQ⟩ := hfails _ _ hx.running
      have hown := hx.handling
      rw [hf, ← hhandling] at hown
      exact .settled hQ (by rw [hhanded, Settling.handed, hf]) hown hresult
    | async =>
      obtain ⟨handle, hresult, hspawns, -, -⟩ := spawning_of_attempt ha hopen hmode
      exact .started hmode hresult hspawns (ends_job_of_fails hs hB hfails)

/-- **After a failure the dispatch goes on.** -/
theorem Attempt.Fails.goesOn (h : a.Fails B s c Q) (hB : B.Forgiving) : a.goesOn = true := by
  cases h with
  | settled _ _ hhandling hresult =>
    obtain ⟨w, hw, htr⟩ := hB.ends _ _ _ _ hhandling
    obtain rfl := Except.ok.inj hw
    rw [Attempt.goesOn_of_ok hresult, htr rfl]
    rfl
  | started _ hresult _ _ =>
    rw [Attempt.goesOn_of_ok hresult]
    rfl

end Fails

end Switchboard
