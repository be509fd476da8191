import Switchboard.Proofs.Dispatch.Failures
import Switchboard.Proofs.Dispatch.Handling

/-!
# A handler of failures that panics

A dispatch guards the chain of a listener, and hands the failure on outside
of that guard. So what the handler of failures does when it panics depends
on where it is called. A task in which it panics ends in that panic, which is
turned into the result behind the handle. A dispatch in which it panics
unwinds: nothing is recorded for the listener, and the listeners behind it are
not attempted.

With panics caught, this is the only way in which attending to listeners
unwinds (`attendAll_unwinds_iff`), and a listener that fails takes it whenever
its handler is awaited, or its filters or interceptors are what fails
(`ResolvedListener.Breaks.unwinds`). Only a handler that was started and fails
on its own is contained (`ResolvedListener.Breaks.contained`).
-/

namespace Switchboard

variable {β σ : Type}

open HubProgram

/-! ## What there is to show -/

/-- **How a listener makes a dispatch unwind.** -/
structure Unwinding (β σ : Type) where
  listener : ResolvedListener β
  /-- The exchanges of the listener's chain. -/
  chain : HubTrace β σ
  /-- How the chain ended. -/
  ending : Except Payload (Except DispatchError EventResult)
  failure : Failure
  /-- The exchanges of the handler of failures. -/
  handling : HubTrace β σ
  payload : Payload

section Statements

variable (B : Behaviours β σ) (s : DispatchSettings) (handle : Answers β σ) (c : EventContext)

/-- The chain of the listener runs to its end and comes to a failure, and the
handler of failures panics on it. -/
structure Unwinding.Made (x : Unwinding β σ) : Prop where
  chain : (runListener B s x.listener (x.listener.context c)).Runs x.chain x.ending
  caught : s.caught x.ending = some (.ok (.failed x.failure))
  handling : (ofRequests (handle (x.listener.context c) x.failure)).Runs x.handling
    (.error x.payload)

/-- **Attending to listeners unwinds**, through these exchanges: attempts that
go on, and then a listener whose failure the handler of failures panics on. -/
structure Unwound (targets : List (ResolvedListener β)) (t : HubTrace β σ)
    (attempts : List (Attempt β σ)) (x : Unwinding β σ) (later : List (ResolvedListener β)) :
    Prop where
  targets_eq : targets = attempts.map (·.listener) ++ x.listener :: later
  made : ∀ a ∈ attempts, a.Made B s c ∧ a.goesOn = true
  unwinding : x.Made B s handle c
  /-- Nothing is recorded for the listener, and those behind it are not
  attempted. -/
  exchanges : t = attempts.flatMap (·.trace c) ++ (x.chain ++ x.handling)

/-- **The chain of a listener fails** in a dispatch, with failures of a sort:
it comes to a result that is one, or panics. -/
def ResolvedListener.ChainFails (r : ResolvedListener β) (Q : Failure → Prop) : Prop :=
  (runListener B s r (r.context c)).Ends fun e =>
    ∃ f, s.caught e = some (.ok (.failed f)) ∧ Q f

/-- **A listener fails out of the dispatch**: its handler is started, and
fails with a failure of a sort whenever it runs. -/
structure ResolvedListener.FailsApart (r : ResolvedListener β) (Q : Failure → Prop) : Prop
    extends r.IsOpen B c where
  mode : r.listener.mode = .async
  fails : (runHandler B (r.job c)).Ends fun out => ∃ f, asFailure out = .failed f ∧ Q f

end Statements

section Unwinding

variable {B : Behaviours β σ} {s : DispatchSettings} {handle : Answers β σ} {c : EventContext}
  {r : ResolvedListener β} {targets : List (ResolvedListener β)}

/-! ## Attending to listeners -/

/-- Where panics are caught, a guarded chain does not panic. -/
theorem not_guardListener_runs_error (hs : s.catchPanics = true) {lc : ListenerContext}
    {t : HubTrace β σ} {p : Payload} : ¬(guardListener B s r lc).Runs t (.error p) := by
  unfold guardListener
  rw [if_pos hs, Program.runs_bind_done_iff]
  rintro ⟨e, hrecover, he⟩
  obtain ⟨e', rfl, -⟩ := Program.runs_recover_iff.mp hrecover
  exact absurd he (by simp [Except.map])

/-- Only on a failure can what is made of a result panic. -/
theorem handleFailure_runs_error_iff (hB : B.onFailure = some handle) {lc : ListenerContext}
    {w : EventResult} {t : HubTrace β σ} {p : Payload} :
    (handleFailure B lc w).Runs t (.error p) ↔
      ∃ f, w = .failed f ∧ (ofRequests (handle lc f)).Runs t (.error p) := by
  rcases w.failed_or with ⟨f, rfl⟩ | hne
  · rw [handleFailure_failed hB]
    simp
  · rw [handleFailure_of_ne hne, Program.runs_done_iff]
    constructor
    · rintro ⟨-, he⟩
      exact absurd he (by simp)
    · rintro ⟨f, hf, -⟩
      exact absurd hf (hne f)

/-- **A listener panics** exactly where the handler of failures does. -/
theorem attempt_runs_error_iff (hs : s.catchPanics = true) (hB : B.onFailure = some handle)
    {t : HubTrace β σ} {p : Payload} :
    (attempt B s c r).Runs t (.error p) ↔
      ∃ x : Unwinding β σ, x.listener = r ∧ x.payload = p ∧ x.Made B s handle c ∧
        t = x.chain ++ x.handling := by
  unfold attempt
  rw [Program.runs_bind_iff]
  constructor
  · rintro (⟨q, -, hguard⟩ | ⟨y, u, v, rfl, hu, hv⟩)
    · exact absurd hguard (not_guardListener_runs_error hs)
    · obtain ⟨e, hchain, hcaught⟩ := guardListener_runs_ok_iff.mp hu
      cases y with
      | error d => exact absurd (Program.runs_done_iff.mp hv).2 (by simp)
      | ok w =>
        obtain ⟨e', hhandle, he⟩ := Program.runs_bind_done_iff.mp hv
        cases e' with
        | ok w' => exact absurd he (by simp [Except.map])
        | error q =>
          obtain rfl := Except.error.inj he
          obtain ⟨f, rfl, hown⟩ := (handleFailure_runs_error_iff hB).mp hhandle
          exact ⟨⟨r, u, e, f, v, p⟩, rfl, rfl, ⟨hchain, hcaught, hown⟩, rfl⟩
  · rintro ⟨x, rfl, rfl, hx, rfl⟩
    refine .inr ⟨.ok (.failed x.failure), x.chain, x.handling, rfl,
      guardListener_runs_ok_iff.mpr ⟨x.ending, hx.chain, hx.caught⟩, ?_⟩
    refine Program.runs_bind_done_iff.mpr ⟨.error x.payload, ?_, rfl⟩
    exact (handleFailure_runs_error_iff hB).mpr ⟨x.failure, rfl, hx.handling⟩

/-- Behind an attempt that goes on, the other listeners are attended to. -/
theorem attendAll_runs_of_goesOn {a : Attempt β σ} (ha : a.Made B s c) (hon : a.goesOn = true)
    {t : HubTrace β σ} {e : Except Payload (Except DispatchError Unit)}
    (hrun : (attendAll B s c targets).Runs t e) :
    (attendAll B s c (a.listener :: targets)).Runs (a.trace c ++ t) e := by
  have hattempt := attempt_runs_ok_iff.mpr ⟨a, rfl, rfl, ha, rfl⟩
  refine Program.runs_bind_iff.mpr (.inr ⟨_, _, a.records c ++ t, ?_, hattempt, ?_⟩)
  · rw [Attempt.trace, List.append_assoc]
  cases hr : a.result with
  | error d =>
    rw [Attempt.goesOn, hr] at hon
    exact absurd hon Bool.false_ne_true
  | ok w =>
    have htr : w.isTruncated = false := by
      rw [Attempt.goesOn_of_ok hr] at hon
      simpa using hon
    rw [Attempt.records_of_ok hr, htr, if_neg Bool.false_ne_true]
    show Program.Runs (if w.isValid then _ else _) _ e
    cases w.isValid with
    | false => exact hrun
    | true =>
      rw [if_pos rfl, if_pos rfl]
      refine Program.runs_call_iff.mpr ⟨(), t, rfl, ?_⟩
      rw [htr, if_neg Bool.false_ne_true]
      exact hrun

/-- **Attending to listeners unwinds** exactly where the handler of failures
panics on the failure of a listener that is reached. -/
theorem attendAll_unwinds_iff (hs : s.catchPanics = true) (hB : B.onFailure = some handle)
    {t : HubTrace β σ} {p : Payload} :
    (attendAll B s c targets).Runs t (.error p) ↔
      ∃ attempts x later, Unwound B s handle c targets t attempts x later ∧ x.payload = p := by
  constructor
  · intro hrun
    induction targets generalizing t with
    | nil => exact absurd (Program.runs_done_iff.mp hrun).2 (by simp)
    | cons r targets ih =>
      rcases attendAll_cons_runs hrun with ⟨q, hq, hp⟩ | ⟨a, v, rfl, ha, rfl, hnext⟩
      · obtain rfl := Except.error.inj hq
        obtain ⟨x, rfl, hpayload, hx, rfl⟩ := (attempt_runs_error_iff hs hB).mp hp
        exact ⟨[], x, targets, ⟨rfl, fun a ha => absurd ha List.not_mem_nil, hx, rfl⟩, hpayload⟩
      · rcases hnext with ⟨hon, hv⟩ | ⟨-, -, he⟩
        · obtain ⟨attempts, x, later, hunwound, hpayload⟩ := ih hv
          refine ⟨a :: attempts, x, later, ⟨?_, ?_, hunwound.unwinding, ?_⟩, hpayload⟩
          · rw [hunwound.targets_eq, List.map_cons, List.cons_append]
          · exact List.forall_mem_cons.mpr ⟨⟨ha, hon⟩, hunwound.made⟩
          · rw [hunwound.exchanges, List.flatMap_cons, List.append_assoc]
        · exact absurd he (by simp)
  · rintro ⟨attempts, x, later, ⟨rfl, hmade, hx, rfl⟩, rfl⟩
    induction attempts with
    | nil =>
      refine Program.runs_bind_iff.mpr (.inl ⟨x.payload, rfl, ?_⟩)
      exact (attempt_runs_error_iff hs hB).mpr ⟨x, rfl, rfl, hx, rfl⟩
    | cons a attempts ih =>
      obtain ⟨⟨ha, hon⟩, hmade⟩ := List.forall_mem_cons.mp hmade
      rw [List.flatMap_cons, List.append_assoc]
      exact attendAll_runs_of_goesOn ha hon (ih hmade)

/-! ## Listeners that fail -/

/-- **A listener whose chain fails panics**, if the handler of failures panics
on its failures. -/
theorem ResolvedListener.ChainFails.panics_attempt {Q R : Failure → Prop}
    (hs : s.catchPanics = true) (hB : B.onFailure = some handle) (h : r.ChainFails B s c Q)
    (hpanics : ∀ f, Q f → (handle (r.context c) f).Panics R) : (attempt B s c r).Panics R := by
  intro t e hrun
  cases e with
  | error p =>
    obtain ⟨x, rfl, rfl, hx, -⟩ := (attempt_runs_error_iff hs hB).mp hrun
    obtain ⟨f, hcaught, hf⟩ := h _ _ hx.chain
    obtain rfl : x.failure = f := by
      simpa using hx.caught.symm.trans hcaught
    obtain ⟨q, hq, hR⟩ := ends_ofRequests (hpanics _ hf) _ _ hx.handling
    exact ⟨q, congrArg _ (Except.error.inj hq), hR⟩
  | ok y =>
    obtain ⟨a, rfl, -, ha, -⟩ := attempt_runs_ok_iff.mp hrun
    obtain ⟨f, hcaught, hf⟩ := h _ _ ha.chain
    obtain ⟨w, -, hhandling, -⟩ := ha.handled hcaught
    rw [handleFailure_failed hB] at hhandling
    obtain ⟨p, hp, -⟩ := ends_ofRequests (hpanics f hf) _ _ hhandling
    exact absurd hp (by simp)

/-- Where the listeners before it let the dispatch go on, a listener that
panics makes it unwind. -/
theorem panics_attendAll {R : Failure → Prop} (h : (attempt B s c r).Panics R)
    {earlier : List (ResolvedListener β)}
    (hearlier : ∀ r' ∈ earlier, (attempt B s c r').Ends fun e =>
      ∃ w, e = .ok (.ok w) ∧ w.isTruncated = false) (later : List (ResolvedListener β)) :
    (attendAll B s c (earlier ++ r :: later)).Panics R := by
  induction earlier with
  | nil => exact Program.Panics.bind h _
  | cons r' earlier ih =>
    obtain ⟨hfirst, hothers⟩ := List.forall_mem_cons.mp hearlier
    intro t e hrun
    rcases attendAll_cons_runs hrun with ⟨p, -, hp⟩ | ⟨a, v, rfl, ha, -, hnext⟩
    · obtain ⟨w, hw, -⟩ := hfirst _ _ hp
      exact absurd hw (by simp)
    · rcases hnext with ⟨-, hv⟩ | ⟨hstop, -, -⟩
      · exact ih hothers v e hv
      · obtain ⟨w, hw, htr⟩ := hfirst _ _ (attempt_runs_ok_iff.mpr ⟨a, rfl, rfl, ha, rfl⟩)
        rw [Attempt.goesOn_of_ok (Except.ok.inj hw), htr] at hstop
        exact absurd hstop (by simp)

/-- **A listener that breaks** fails in the dispatch, unless its handler is
started and is what fails. -/
theorem ResolvedListener.Breaks.fails_in_or_apart {Q : Failure → Prop} (hs : s.catchPanics = true)
    (h : r.Breaks B c Q) : r.ChainFails B s c Q ∨ r.FailsApart B c Q := by
  rcases h.panics hs with hpanics | ⟨hopen, hfails⟩
  · refine .inl (Program.Ends.mono hpanics ?_)
    rintro e ⟨p, rfl, hp⟩
    exact ⟨.ofPanic p, if_pos hs, hp⟩
  · cases hmode : r.listener.mode with
    | async => exact .inr ⟨hopen, hmode, hfails⟩
    | blocking =>
      refine .inl fun t e hrun => ?_
      obtain ⟨e', ⟨u, v, w, -, hv, -, -⟩, rfl⟩ := hopen.runs hrun
      obtain ⟨out, hout, rfl⟩ := invoke_runs_blocking hs hmode hv
      obtain ⟨f, hf, hQ⟩ := hfails v out hout
      exact ⟨f, by rw [hf]; rfl, hQ⟩

namespace ResolvedListener.FailsApart

variable {Q R : Failure → Prop}

/-- Where only the started handler fails, the dispatch goes on. -/
theorem ends_attempt (h : r.FailsApart B c Q) (hs : s.catchPanics = true) :
    (attempt B s c r).Ends fun e => ∃ a, .ok (.ok (.async a)) = e := by
  refine Switchboard.ends_attempt (R := fun e => ∃ a, e = .ok (.ok (.async a))) hs ?_ ?_ ?_
  · intro t e hrun
    obtain ⟨e', ⟨u, v, w, -, hv, -, -⟩, rfl⟩ := h.toIsOpen.runs hrun
    obtain ⟨a, -, rfl⟩ := invoke_runs_async h.mode hv
    exact ⟨a, rfl⟩
  · rintro e d ⟨a, rfl⟩ hd
    exact absurd hd (by simp [chainFailure])
  · rintro e x ⟨a, rfl⟩ hx
    obtain rfl := Except.ok.inj hx
    exact Program.ends_done_iff.mpr ⟨a, rfl⟩

/-- A started handler that fails ends in the panic of the handler of failures. -/
theorem panics_job (h : r.FailsApart B c Q) (hs : s.catchPanics = true)
    (hB : B.onFailure = some handle) (hpanics : ∀ f, Q f → (handle (r.context c) f).Panics R) :
    (runJob B s (r.job c)).Panics R := by
  refine ends_runJob hs h.fails ?_
  rintro out ⟨f, hf, hQ⟩
  rw [hf, handleFailure_failed hB]
  exact ends_ofRequests (hpanics f hQ)

/-- **What is behind its handle** is the failure that the panic stands for,
whatever happens later. -/
theorem resolves (h : r.FailsApart B c Q) (hs : s.catchPanics = true)
    (hB : B.onFailure = some handle) (hpanics : ∀ f, Q f → (handle (r.context c) f).Panics R)
    {α : Type} {hub : Hub β σ} {m m' : Scheduler β σ} {patience : Option Nat}
    {p : HubProgram β σ α} {a : Handle} (hm : Scheduler.Reached hub m)
    (hsettings : m.hub.settings = s)
    (hx : ⟨.spawn (r.job c), a⟩ ∈
      m.exchanges B (patience.map (m.clock + ·)) Scheduler.stepLimit (.main p))
    (hl : Scheduler.Later (m.run B patience p).2 m') :
    m'.Resolves a fun w => ∃ f, w = .failed f ∧ R f := by
  refine (Scheduler.promised_of_spawned hm hx hl).resolves.mono ?_
  rintro w ⟨t, e, hrun, rfl⟩
  rw [hsettings] at hrun
  obtain ⟨q, rfl, hq⟩ := h.panics_job hs hB hpanics t e hrun
  exact ⟨.ofPanic q, rfl, hq⟩

end ResolvedListener.FailsApart

/-! ## The whole dispatch -/

/-- Sessions are offered an event without a panic if no matcher panics. -/
theorem ends_offer (hcalm : ∀ k, (B.matcher k c).Ends fun e => ∃ x, e = .ok x)
    (kept ws : List (Waiter β)) : (offer B c kept ws).Ends fun e => ∃ u, e = .ok u := by
  induction ws generalizing kept with
  | nil => exact Program.ends_call_iff.mpr fun _ => Program.ends_done_iff.mpr ⟨(), rfl⟩
  | cons w ws ih =>
    have hask : (acceptedByWaiter B c w).Ends fun e => ∃ x, e = .ok x := by
      unfold acceptedByWaiter
      split
      · exact Program.ends_done_iff.mpr ⟨false, rfl⟩
      · exact ends_ofRequests (hcalm w.matcher)
    unfold offer
    split
    · exact ih kept
    · refine hask.recover_bind ?_
      rintro e ⟨accepted, rfl⟩
      cases accepted with
      | true => exact Program.ends_call_iff.mpr fun _ => ih kept
      | false => exact ih (kept ++ [w])

/-- The end of the processing chain unwinds only where it attends to the
listeners. -/
theorem attendAll_runs_of_listenersStage {b : Beginning β} {f : Frame DispatchResult}
    {t : HubTrace β σ} {p : Payload}
    (hrun : (plainTerminal (listenersStage B s b) f).Runs t (.error p)) :
    (attendAll B s b.context b.targets).Runs t (.error p) := by
  obtain ⟨e, hstage, he⟩ := Program.runs_bind_done_iff.mp hrun
  obtain rfl : e = .error p := by cases e <;> simp_all [Except.map]
  rcases Program.runs_bind_iff.mp hstage with ⟨q, hq, hattend⟩ | ⟨ended, u, v, -, -, hv⟩
  · obtain rfl := Except.error.inj hq
    exact hattend
  · cases ended with
    | error d => exact absurd (Program.runs_done_iff.mp hv).2 (by simp)
    | ok _ =>
      obtain ⟨os, w, -, hw⟩ := Program.runs_call_iff.mp hv
      exact absurd (Program.runs_done_iff.mp hw).2 (by simp)

/-- A listener that makes the dispatch unwind writes nothing. -/
theorem Unwinding.Made.silent {x : Unwinding β σ} (hx : x.Made B s handle c) :
    ∀ y ∈ x.chain ++ x.handling, Silent y := by
  intro y hy
  rcases List.mem_append.mp hy with hy | hy
  · exact ((only_runListener B s x.listener _).of_runs hx.chain y hy).silent
  · exact ((only_ofRequests _).of_runs hx.handling y hy).silent

/-- **A dispatch that unwinds** does so where it attends to its listeners, if
its matchers do not panic and its processing interceptors pass on. Of its
listeners it has recorded those that it had got through. -/
theorem unwound_of_dispatch (hs : s.catchPanics = true) (hB : B.onFailure = some handle)
    {e : Event} {b : Beginning β} {t : HubTrace β σ} {p : Payload}
    (hcalm : ∀ k, (B.matcher k b.context).Ends fun e => ∃ x, e = .ok x)
    (hpass : ∀ i ∈ b.processing, (B.processingInterceptor i.run b.context).PassesOn)
    (hrun : (dispatch B s e).Runs (⟨.start e, b⟩ :: t) (.error p)) :
    ∃ t' attempts x later, Unwound B s handle b.context b.targets t' attempts x later ∧
      x.payload = p ∧ ∀ h h' : Hub β σ, (h.start e).1 = b →
        Hub.Through b.context.index (h.start e).2 t h' →
        (h'.dispatchState b.context).outcomes = attempts.filterMap (·.outcome?) := by
  obtain ⟨b', u, hu, hrest⟩ := Program.runs_call_iff.mp hrun
  cases hu
  rcases Program.runs_bind_iff.mp hrest with ⟨q, -, hoffer⟩ | ⟨⟨⟩, opening, v, rfl, hopening, hv⟩
  · have hends : (resumeSessions B b.context).Ends fun e => ∃ u, e = .ok u :=
      Program.ends_call_iff.mpr fun ws => ends_offer hcalm [] ws
    obtain ⟨u, hu⟩ := hends _ _ hoffer
    exact absurd hu (by simp)
  obtain ⟨e₁, hchain, he₁⟩ := Program.runs_bind_done_iff.mp hv
  obtain ⟨e₂, hstages, he₂⟩ := Program.runs_bind_done_iff.mp hchain
  have hpassing : ∀ stage ∈ processingStages B b.context b.processing, stage.run.PassesOn := by
    intro stage hstage
    obtain ⟨i, hi, rfl⟩ := List.mem_map.mp hstage
    exact hpass i hi
  obtain ⟨e₃, ⟨before, middle, after, rfl, hterminal, hbefore, hafter⟩, hend⟩ :=
    runs_runStages_passing only_lift ends_lift hpassing rfl hstages
  -- the panic is that of the terminal, so of attending to the listeners
  obtain rfl : e₃ = .error p := by
    cases e₁ <;> cases e₂ <;> cases e₃ <;> simp_all [resultOf, Except.map]
  obtain ⟨attempts, x, later, hunwound, hpayload⟩ :=
    (attendAll_unwinds_iff hs hB).mp (attendAll_runs_of_listenersStage hterminal)
  refine ⟨middle, attempts, x, later, hunwound, hpayload, fun h h' hb ht => ?_⟩
  obtain ⟨h₁, htopening, ht⟩ := Hub.through_append_iff.mp ht
  obtain ⟨h₄, ht, htafter⟩ := Hub.through_append_iff.mp ht
  obtain ⟨h₂, htbefore, htmiddle⟩ := Hub.through_append_iff.mp ht
  rw [hunwound.exchanges] at htmiddle
  obtain ⟨h₃, htattempts, htlast⟩ := Hub.through_append_iff.mp htmiddle
  have hquiet : ∀ {u : HubTrace β σ}, (∀ y ∈ u, Silent y) →
      ∀ y ∈ u, y.call.target? ≠ some b.context.index := fun hu => silentTo_of_silent hu _
  have hw : (h.start e).2.written b.context.index = some ([], false) := by
    rw [← hb]
    exact h.written_start e
  have hopened := (only_resumeSessions B b.context).of_runs hopening
  have hw := Hub.spares_of_through (hquiet hopened) htopening _ hw
  have hw := Hub.spares_of_through (hquiet fun y hy => (hbefore y hy).silent) htbefore _ hw
  have hw := written_of_attempts (fun a ha => (hunwound.made a ha).1) htattempts hw
  have hw := Hub.spares_of_through (hquiet hunwound.unwinding.silent) htlast _ hw
  have hw := Hub.spares_of_through (hquiet fun y hy => (hafter y hy).silent) htafter _ hw
  rw [(Hub.dispatchState_of_written hw).1, List.nil_append]

end Unwinding

/-- **What a handler of failures does when it panics**, where panics are
caught. Attending to listeners unwinds with a payload exactly if it has got to
a listener on whose failure the handler of failures panics with this payload;
for this listener nothing is recorded, and those behind it are not attempted.
So a failure in the chain of a listener always makes the dispatch unwind, and
so does a handler that fails while it is awaited. If the handler was started
and fails on its own, the dispatch goes on, and behind the handle there is the
failure that the panic stands for. A dispatch that a scheduler runs has, when
it unwinds, recorded the outcomes of the listeners before; and one that
returns has been given an answer to each failure it has handed on. -/
theorem failure_unwinds (B : Behaviours β σ) (s : DispatchSettings) (handle : Answers β σ)
    (hs : s.catchPanics = true) (hB : B.onFailure = some handle) :
    (∀ c targets t p, (attendAll B s c targets).Runs t (.error p) ↔
      ∃ attempts x later, Unwound B s handle c targets t attempts x later ∧ x.payload = p) ∧
    (∀ c (r : ResolvedListener β) Q, r.Breaks B c Q →
      r.ChainFails B s c Q ∨ r.FailsApart B c Q) ∧
    (∀ c (r : ResolvedListener β) Q R, r.ChainFails B s c Q →
      (∀ f, Q f → (handle (r.context c) f).Panics R) → ∀ earlier later,
        (∀ r' ∈ earlier, (attempt B s c r').Ends fun e =>
          ∃ w, e = .ok (.ok w) ∧ w.isTruncated = false) →
        (attendAll B s c (earlier ++ r :: later)).Panics R) ∧
    (∀ c (r : ResolvedListener β) Q R, r.FailsApart B c Q →
      (∀ f, Q f → (handle (r.context c) f).Panics R) →
      ((attempt B s c r).Ends fun e => ∃ a, .ok (.ok (.async a)) = e) ∧
      (∀ a : Attempt β σ, a.listener = r → a.Made B s c →
        a.goesOn = true ∧ ∃ h, a.Starts B s c h) ∧
      (runJob B s (r.job c)).Panics R ∧
      ∀ (α : Type) hub (m m' : Scheduler β σ) patience (p : HubProgram β σ α) h,
        Scheduler.Reached hub m → m.hub.settings = s →
        ⟨.spawn (r.job c), h⟩ ∈
          m.exchanges B (patience.map (m.clock + ·)) Scheduler.stepLimit (.main p) →
        Scheduler.Later (m.run B patience p).2 m' →
        m'.Resolves h fun w => ∃ f, w = .failed f ∧ R f) ∧
    (∀ hub (m m' : Scheduler β σ) patience e p, Scheduler.Reached hub m → m.hub.settings = s →
      (∀ k, (B.matcher k (m.hub.start e).1.context).Ends fun e => ∃ x, e = .ok x) →
      (∀ i ∈ (m.hub.start e).1.processing,
        (B.processingInterceptor i.run (m.hub.start e).1.context).PassesOn) →
      m.dispatch B patience e = (some (.error p), m') →
      ∃ t attempts x later, Unwound B s handle (m.hub.start e).1.context
          (m.hub.start e).1.targets t attempts x later ∧ x.payload = p ∧
        (m'.hub.dispatchState (m.hub.start e).1.context).outcomes
          = attempts.filterMap (·.outcome?)) ∧
    ∀ hub (m m' : Scheduler β σ) patience e res, Scheduler.Reached hub m → m.hub.settings = s →
      m.dispatch B patience e = (some (.ok res), m') →
      ∃ t opening chain moves os attempts result stopped,
        Dispatched B s (m.hub.start e).1 t res opening chain moves os attempts result stopped ∧
        ∀ a ∈ attempts, ∀ f, s.caught a.ending = some (.ok (.failed f)) → ∃ w,
          a.result = .ok w ∧
          (ofRequests (handle (a.listener.context (m.hub.start e).1.context) f)).Runs a.handling
            (.ok w) := by
  refine ⟨fun c targets t p => attendAll_unwinds_iff hs hB,
    fun c r Q h => h.fails_in_or_apart hs, ?_, ?_, ?_, ?_⟩
  · intro c r Q R h hpanics earlier later hearlier
    exact panics_attendAll (h.panics_attempt hs hB hpanics) hearlier later
  · intro c r Q R h hpanics
    refine ⟨h.ends_attempt hs, ?_, h.panics_job hs hB hpanics, ?_⟩
    · rintro a rfl ha
      obtain ⟨handle, hstarts⟩ := h.toIsOpen.starts ha h.mode
      exact ⟨by rw [Attempt.goesOn_of_ok hstarts.result]; rfl, handle, hstarts⟩
    · intro α hub m m' patience p a hm hsettings hx hl
      exact h.resolves hs hB hpanics hm hsettings hx hl
  · rintro hub m m' patience e p hm rfl hcalm hpass hrun
    obtain ⟨t, hruns, ht⟩ := Scheduler.through_of_dispatch hm hrun
    obtain ⟨t', attempts, x, later, hunwound, hpayload, hhub⟩ :=
      unwound_of_dispatch hs hB hcalm hpass hruns
    exact ⟨t', attempts, x, later, hunwound, hpayload, hhub m.hub m'.hub rfl ht⟩
  · rintro hub m m' patience e res hm rfl hrun
    obtain ⟨t, hruns, -⟩ := Scheduler.through_of_dispatch hm hrun
    obtain ⟨opening, chain, moves, os, attempts, result, stopped, hall, -⟩ :=
      dispatched_of_runs hruns
    refine ⟨t, opening, chain, moves, os, attempts, result, stopped, hall, fun a ha f hf => ?_⟩
    obtain ⟨w, hresult, hhandling, -⟩ := (hall.processed.made ha).1.handled hf
    rw [handleFailure_failed hB] at hhandling
    exact ⟨w, hresult, hhandling⟩

/-- An outcome is that of the listener of its attempt. -/
theorem Attempt.listener_of_outcome? (a : Attempt β σ) {o : Outcome} (h : a.outcome? = some o) :
    a.listener.listener.id = o.listener := by
  unfold outcome? at h
  split at h
  · split at h
    · exact congrArg Outcome.listener (Option.some.inj h)
    · cases h
  · cases h

/-- Code with a handler that fails, one that is noted, and a handler of
failures that panics. -/
def Behaviours.stumbling : Behaviours Bool Bool where
  filter _ _ := .done true
  matcher _ _ := .done false
  handler fails _ :=
    if fails then .done (.error "bad")
    else .call (.request (.setMemory true)) fun _ => .done (.text "hi")
  listenerInterceptor _ _ := .call .proceed .done
  processingInterceptor _ _ := .call .proceed .done
  onFailure := some fun _ _ => .panic (.text "eh")

/-- The identifier of a listener that fails, or does not. -/
def Id.stumbling (fails : Bool) : Id := ⟨if fails then "a" else "b", by cases fails <;> decide⟩

/-- A listener without filters and interceptors. -/
def ResolvedListener.stumbling (fails : Bool) (mode : InvokeMode) : ResolvedListener Bool :=
  ⟨⟨.stumbling fails, .any, .normal, mode, [], [], ⟨[], fails⟩⟩, 0, [], []⟩

/-- A hub with a listener that fails and one behind it. -/
def Hub.stumbling (mode : InvokeMode) : Hub Bool Bool :=
  .fresh ⟨⟨[.stumbling true mode, .stumbling false .blocking], [], [], []⟩, 2⟩ .default false

/-- The handler of the first listener fails, and the handler of failures panics
on that: the dispatch unwinds if it has awaited the handler, and if it has
started it, the panic is behind the handle. -/
theorem failure_unwinds_stumbling :
    (∀ c, (attendAll Behaviours.stumbling .default c
      [.stumbling true .blocking, .stumbling false .blocking]).Panics (· = ⟨"eh", true⟩)) ∧
    ∃ m', (Scheduler.fresh (Hub.stumbling .async)).dispatch .stumbling none .bare
        = (some (.ok (.ok (.ofOutcomes
            [⟨.stumbling true, .async ⟨0⟩⟩, ⟨.stumbling false, .of (.str "hi")⟩]))), m') ∧
      ∀ m'', Scheduler.Later m' m'' → m''.Resolves ⟨0⟩ (· = .failed ⟨"eh", true⟩) := by
  obtain ⟨-, hbreaks, hin, hapart, -, -⟩ := failure_unwinds .stumbling .default _ rfl rfl
  have hpanics : ∀ f : Failure, f = .ofError "bad" →
      (Program.panic (.text "eh") : Program (requests Bool Bool) EventResult).Panics
        (· = ⟨"eh", true⟩) :=
    fun _ _ => Program.ends_panic_iff.mpr ⟨_, rfl, rfl⟩
  have hfails : ∀ mode c, (runHandler Behaviours.stumbling
      ((ResolvedListener.stumbling true mode).job c)).Ends
        fun out => ∃ f, asFailure out = .failed f ∧ f = .ofError "bad" :=
    fun _ _ => Program.ends_done_iff.mpr ⟨_, rfl, rfl⟩
  have hopen : ∀ mode c, (ResolvedListener.stumbling true mode).IsOpen .stumbling c :=
    fun _ _ => ⟨fun _ h => absurd h List.not_mem_nil, fun _ h => absurd h List.not_mem_nil,
      fun _ h => absurd h List.not_mem_nil⟩
  refine ⟨fun c => ?_, ?_⟩
  · rcases hbreaks c _ _ (.handler (hopen .blocking c) (hfails .blocking c)) with hchain | happart
    · exact hin c _ _ _ hchain hpanics [] _ fun _ h => absurd h List.not_mem_nil
    · exact absurd happart.mode (by decide)
  obtain ⟨m', hrun, houtcomes⟩ : ∃ m',
      (Scheduler.fresh (Hub.stumbling .async)).dispatch .stumbling none .bare
        = (some (.ok (.ok (.ofOutcomes
            [⟨.stumbling true, .async ⟨0⟩⟩, ⟨.stumbling false, .of (.str "hi")⟩]))), m') ∧
      (m'.hub.dispatchState ⟨0, .bare⟩).outcomes
        = [⟨.stumbling true, .async ⟨0⟩⟩, ⟨.stumbling false, .of (.str "hi")⟩] := ⟨_, rfl, rfl⟩
  refine ⟨m', hrun, fun m'' hl => ?_⟩
  obtain ⟨t, _, _, _, _, attempts, _, _, hall, hrecorded, hstarted⟩ :=
    Scheduler.started_of_dispatch .fresh hrun
  have houtcome : (⟨.stumbling true, .async ⟨0⟩⟩ : Outcome) ∈ attempts.filterMap (·.outcome?) :=
    hrecorded.outcomes ▸ houtcomes ▸ List.mem_cons_self
  obtain ⟨a, ha, hoa⟩ := List.mem_filterMap.mp houtcome
  obtain ⟨hmade, htarget, -⟩ := hall.processed.made ha
  have hlistener : a.listener = .stumbling true .async := by
    rcases List.mem_cons.mp htarget with hfirst | hother
    · exact hfirst
    · have hid := a.listener_of_outcome? hoa
      rw [List.mem_singleton.mp hother] at hid
      exact absurd hid (by decide)
  obtain ⟨-, hstarts, -, hresolves⟩ := hapart ⟨0, .bare⟩ (.stumbling true .async) _ _
    ⟨hopen .async _, rfl, hfails .async _⟩ hpanics
  obtain ⟨-, handle, hstart⟩ := hstarts a hlistener hmade
  obtain ⟨-, hresult⟩ := Outcome.mk.inj (Option.some.inj (hoa.symm.trans hstart.outcome))
  obtain rfl := EventResult.async.inj hresult
  have hspawned := hstarted a ha _ hstart
  rw [hlistener] at hspawned
  have hlater : Scheduler.Later ((Scheduler.fresh (Hub.stumbling .async)).dispatch .stumbling none
      .bare).2 m'' := by rwa [hrun]
  refine (hresolves _ _ _ _ none _ _ .fresh rfl hspawned hlater).mono ?_
  rintro w ⟨f, rfl, rfl⟩
  rfl

/-- **A panic of the handler of failures is not contained** by a dispatch. The
first listener fails, and the dispatch unwinds with the payload of the handler
of failures. Nothing is recorded, and the second listener is not called. -/
theorem failure_not_contained :
    ∃ m', (Scheduler.fresh (Hub.stumbling .blocking)).dispatch .stumbling none .bare
        = (some (.error (.text "eh")), m') ∧
      (m'.hub.dispatchState ⟨0, .bare⟩).outcomes = [] ∧ m'.hub.memory = false :=
  ⟨_, rfl, rfl, rfl⟩

end Switchboard
