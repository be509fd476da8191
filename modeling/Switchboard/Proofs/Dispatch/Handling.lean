import Switchboard.Proofs.Dispatch.Isolation
import Switchboard.Proofs.Dispatch.Modes

/-!
# The handler of failures

A failure of a handler reaches the handler of failures by one of two ways. A
dispatch that awaits the handler hands the failure on when the chain of the
listener has ended, and a handler that is started hands it on in its own
task. Each way is taken once, and nothing before it calls the handler of
failures: the chain of a listener, and the handler in it, run as they would
if there was none (`runListener_withoutAnswers`).

So if the interceptors of a listener pass on what they are given, the
handler of failures is called once with each failure of the handler, and its
answer is the result (`failure_handed_on`). A panic that is not caught is
the exception. A dispatch that awaits the handler panics itself, and leaves
no result. But a task in which the handler panics ends there, before the
failure is handed on, and what is behind its handle is the failure that the
end of the task is turned into (`Job.Gives.escapes`).
-/

namespace Switchboard

variable {β σ : Type}

open HubProgram

/-- The same code, where failures are not answered. -/
def Behaviours.withoutAnswers (B : Behaviours β σ) : Behaviours β σ := { B with onFailure := none }

/-- **The chain of a listener does not call the handler of failures.** -/
theorem runListener_withoutAnswers (B : Behaviours β σ) (s : DispatchSettings)
    (r : ResolvedListener β) (lc : ListenerContext) :
    runListener B.withoutAnswers s r lc = runListener B s r lc := by
  have hsame : r.SameCode B.withoutAnswers B :=
    ⟨fun _ _ => rfl, rfl, fun _ _ => rfl, fun _ _ => rfl⟩
  unfold runListener
  rw [hsame.matchThen_eq, listenerStages_congr hsame.before]

/-! ## What there is to show -/

/-- What becomes of failures. -/
abbrev Answers (β σ : Type) := ListenerContext → Failure → Program (requests β σ) EventResult

/-- No failure makes the handler of failures panic. -/
def Answers.Calm (handle : Answers β σ) : Prop :=
  ∀ lc f, (handle lc f).Ends fun e => ∃ w, e = .ok w

section Ways

variable (B : Behaviours β σ) (s : DispatchSettings) (handle : Answers β σ)

namespace Attempt

variable (c : EventContext)

/-- **A failure in an attempt is handed on, once**, and this is the answer. -/
structure Answered (a : Attempt β σ) (f : Failure) (w : EventResult) : Prop where
  /-- Until then the handler of failures is not called. -/
  chain : (runListener B.withoutAnswers s a.listener (a.listener.context c)).Runs a.chain a.ending
  handling : (ofRequests (handle (a.listener.context c) f)).Runs a.handling (.ok w)
  handed : a.handed B s = [f]
  result : a.result = .ok w
  /-- It is recorded, unless the failure is dropped. -/
  outcome : a.outcome? = if w.isValid then some ⟨a.listener.listener.id, w⟩ else none

/-- **How an attempt goes** with a listener whose interceptors pass on. -/
inductive Goes (a : Attempt β σ) : Prop
  /-- The filters do not accept the event, and the handler is not invoked. -/
  | refused {e : Except Payload Bool} :
      Around ByUser (acceptedBy B (a.listener.context c) a.listener.listener.filters) a.chain e →
      e ≠ .ok true → a.ending = e.map (fun _ => .ok .invalid) → Goes a
  /-- The handler is awaited, and does not fail. -/
  | succeeds {x : EventResult} : a.listener.listener.mode = .blocking →
      Around ByUser (runHandler B (a.listener.job c)) a.chain (.ok x) → (∀ f, x ≠ .failed f) →
      a.ending = .ok (.ok x) → a.result = .ok x → a.handling = [] → a.handed B s = [] → Goes a
  /-- The handler is awaited, and fails. -/
  | answered {out : Except Payload EventResult} {f : Failure} {w : EventResult} :
      a.listener.listener.mode = .blocking →
      Around ByUser (runHandler B (a.listener.job c)) a.chain out → asFailure out = .failed f →
      a.ending = .ok (.ok (.failed f)) → a.Answered B s handle c f w → Goes a
  /-- The handler is started. -/
  | starts {h : Handle} : a.listener.listener.mode = .async → a.ending = .ok (.ok (.async h)) →
      a.Starts B s c h → Goes a

end Attempt

/-- **What a handler that is started gives**, through these exchanges. -/
inductive Job.Gives (job : Job β) : HubTrace β σ → Except Payload EventResult → Prop
  /-- It does not fail, and the handler of failures is not called. -/
  | succeeds {t : HubTrace β σ} {x : EventResult} :
      (runHandler B.withoutAnswers job).Runs t (.ok x) → (∀ f, x ≠ .failed f) →
      Gives job t (.ok x)
  /-- It fails, and its failure is handed on, once. -/
  | answered {t u : HubTrace β σ} {out : Except Payload EventResult} {f : Failure}
      {w : EventResult} : s.catchPanics = true ∨ (∃ x, out = .ok x) →
      (runHandler B.withoutAnswers job).Runs t out → asFailure out = .failed f →
      (ofRequests (handle job.context f)).Runs u (.ok w) → Gives job (t ++ u) (.ok w)
  /-- It panics, and this is not caught: the handler of failures is not
  called. -/
  | escapes {t : HubTrace β σ} {p : Payload} : s.catchPanics = false →
      (runHandler B.withoutAnswers job).Runs t (.error p) → Gives job t (.error p)

end Ways

section Handling

variable {B : Behaviours β σ} {s : DispatchSettings} {handle : Answers β σ} {c : EventContext}
  {a : Attempt β σ}

/-! ## What is handed on -/

/-- What is no failure is left alone. -/
theorem handleFailure_of_ne {lc : ListenerContext} {x : EventResult} (hx : ∀ f, x ≠ .failed f) :
    handleFailure B lc x = .done x := by
  cases x with
  | failed f => exact absurd rfl (hx f)
  | _ => rfl

theorem handed_of_ne {x : EventResult} (hx : ∀ f, x ≠ .failed f) : B.handed x = [] := by
  cases x with
  | failed f => exact absurd rfl (hx f)
  | _ => rfl

theorem handleFailure_failed (hB : B.onFailure = some handle) (lc : ListenerContext)
    (f : Failure) : handleFailure B lc (.failed f) = ofRequests (handle lc f) := by
  unfold handleFailure
  rw [hB]

theorem handed_failed (hB : B.onFailure = some handle) (f : Failure) :
    B.handed (.failed f) = [f] := by
  unfold Behaviours.handed
  rw [hB]
  rfl

/-- A result is a failure or it is none. -/
theorem EventResult.failed_or (x : EventResult) : (∃ f, x = .failed f) ∨ ∀ f, x ≠ .failed f := by
  cases x with
  | failed f => exact .inl ⟨f, rfl⟩
  | _ => exact .inr fun f hf => absurd hf (by simp)

/-- An attempt whose chain ends in a failure hands it on. -/
theorem Attempt.Made.answered (hB : B.onFailure = some handle) (ha : a.Made B s c) {f : Failure}
    (hend : a.ending = .ok (.ok (.failed f))) : ∃ w, a.Answered B s handle c f w := by
  have hcaught : s.caught a.ending = some (.ok (.failed f)) := by
    rw [hend]
    rfl
  obtain ⟨w, hresult, hhandling, hhanded⟩ := ha.handled hcaught
  refine ⟨w, ?_, ?_, hhanded.trans (handed_failed hB f), hresult, ?_⟩
  · rw [runListener_withoutAnswers]
    exact ha.chain
  · rwa [handleFailure_failed hB] at hhandling
  · unfold Attempt.outcome?
    rw [hresult]

/-- An attempt whose chain ends in a result that is no failure has it. -/
theorem Attempt.Made.kept (ha : a.Made B s c) {x : EventResult} (hx : ∀ f, x ≠ .failed f)
    (hend : a.ending = .ok (.ok x)) :
    a.result = .ok x ∧ a.handling = [] ∧ a.handed B s = [] := by
  have hcaught : s.caught a.ending = some (.ok x) := by
    rw [hend]
    rfl
  obtain ⟨w, hresult, hhandling, hhanded⟩ := ha.handled hcaught
  rw [handleFailure_of_ne hx] at hhandling
  obtain ⟨hnone, hw⟩ := Program.runs_done_iff.mp hhandling
  obtain rfl := Except.ok.inj hw
  exact ⟨hresult, hnone, hhanded.trans (handed_of_ne hx)⟩

/-- A handler that an attempt has awaited has come to a result. -/
theorem Attempt.Made.guarded (ha : a.Made B s c) {out : Except Payload EventResult}
    {f : Frame EventResult}
    (hend : a.ending = resultOf ((s.guarded out).map fun x => (f, .ok x))) :
    s.guarded out = .ok (asFailure out) := by
  cases hout : s.guarded out with
  | ok x => rw [(guarded_eq_ok_iff.mp hout).2]
  | error p =>
    obtain ⟨hs, rfl⟩ := guarded_eq_error_iff.mp hout
    have hcaught : s.caught a.ending = none := by
      rw [hend, hout]
      exact if_neg (by rw [hs]; exact Bool.false_ne_true)
    rcases ha.final with ⟨d, hd, -⟩ | ⟨x, w, hx, -⟩
    · exact absurd (hcaught.symm.trans hd) (by simp)
    · exact absurd (hcaught.symm.trans hx) (by simp)

/-- **An attempt with a listener whose interceptors pass on** goes in one of
these ways. -/
theorem Attempt.Made.goes (hB : B.onFailure = some handle) (ha : a.Made B s c)
    (hpasses : a.listener.Passes B c) : a.Goes B s handle c := by
  rcases hpasses.runs ha.chain with ⟨e, haround, hrefused, hend⟩ | ⟨e', haround, hend⟩
  · exact .refused haround hrefused hend
  obtain ⟨u, v, w, hsplit, hv, hu, hw⟩ := haround
  cases hmode : a.listener.listener.mode with
  | async =>
    obtain ⟨h, rfl, rfl⟩ := invoke_runs_async hmode hv
    obtain ⟨hresult, hhandling, hhanded⟩ := ha.kept (x := .async h) (fun f hf => by cases hf) hend
    have hspawns : Around ByUser (.call (.spawn (a.listener.job c)) .done) a.chain (.ok h) :=
      ⟨u, _, w, hsplit, .call (.done h), hu, hw⟩
    exact .starts hmode hend (Attempt.starts_of_result hresult hspawns hhandling hhanded)
  | blocking =>
    obtain ⟨out, hout, rfl⟩ := invoke_runs_guarded hmode hv
    rw [ha.guarded hend] at hend
    have haround : Around ByUser (runHandler B (a.listener.job c)) a.chain out :=
      ⟨u, v, w, hsplit, hout, hu, hw⟩
    rcases (asFailure out).failed_or with ⟨f, hf⟩ | hne
    · rw [hf] at hend
      obtain ⟨x, hx⟩ := ha.answered hB hend
      exact .answered hmode haround hf hend hx
    · cases out with
      | error p => exact absurd rfl (hne _)
      | ok x =>
        obtain ⟨hresult, hhandling, hhanded⟩ := ha.kept hne hend
        exact .succeeds hmode haround hne hend hresult hhandling hhanded

/-- **A handler that is started** goes in one of these ways. -/
theorem gives_of_runs (hB : B.onFailure = some handle) (hcalm : handle.Calm) {job : Job β}
    {t : HubTrace β σ} {e : Except Payload EventResult} (hrun : (runJob B s job).Runs t e) :
    job.Gives B s handle t e := by
  rcases Program.runs_bind_iff.mp hrun with ⟨p, rfl, hp⟩ | ⟨x, u, v, rfl, hu, hv⟩
  · obtain ⟨out, hout, hguarded⟩ := guardHandler_runs_guarded.mp hp
    obtain ⟨hs, rfl⟩ := guarded_eq_error_iff.mp hguarded.symm
    exact .escapes hs hout
  · obtain ⟨out, hout, hguarded⟩ := guardHandler_runs_guarded.mp hu
    obtain ⟨hs, rfl⟩ := guarded_eq_ok_iff.mp hguarded.symm
    rcases (asFailure out).failed_or with ⟨f, hf⟩ | hne
    · rw [hf, handleFailure_failed hB] at hv
      obtain ⟨w, rfl⟩ := ends_ofRequests (hcalm job.context f) v e hv
      exact .answered hs hout hf hv
    · rw [handleFailure_of_ne hne] at hv
      obtain ⟨rfl, rfl⟩ := Program.runs_done_iff.mp hv
      rw [List.append_nil]
      cases out with
      | error p => exact absurd rfl (hne _)
      | ok x => exact .succeeds hout hne

end Handling

/-- **Every failure is handed on, once**, if failures can be answered without
a panic. Where a dispatch gets through a listener whose interceptors pass on,
and the handler is awaited and fails, the handler of failures is called once,
with this failure, and its answer is the result. A handler that is started
goes the same way in its own task, unless it panics where panics are not
caught, and what it comes to is what the handle that was recorded resolves
to, whatever happens later. -/
theorem failure_handed_on (B : Behaviours β σ) (s : DispatchSettings) (handle : Answers β σ)
    (hB : B.onFailure = some handle) (hcalm : handle.Calm) :
    (∀ e b t out, (dispatch B s e).Runs (⟨.start e, b⟩ :: t) (.ok out) →
      ∃ opening chain moves os attempts result stopped,
        Dispatched B s b t out opening chain moves os attempts result stopped ∧
        ∀ a ∈ attempts, a.listener.Passes B b.context → a.Goes B s handle b.context) ∧
    (∀ job t e, (runJob B s job).Runs t e → job.Gives B s handle t e) ∧
    (∀ (α : Type) hub (m m' : Scheduler β σ) patience (p : HubProgram β σ α) job h,
      Scheduler.Reached hub m → m.hub.settings = s →
      ⟨.spawn job, h⟩ ∈ m.exchanges B (patience.map (m.clock + ·)) Scheduler.stepLimit (.main p) →
      Scheduler.Later (m.run B patience p).2 m' →
      m'.Resolves h fun w => ∃ t e, job.Gives B s handle t e ∧ w = asFailure e) ∧
    ∀ hub (m m' : Scheduler β σ) patience e res, Scheduler.Reached hub m → m.hub.settings = s →
      m.dispatch B patience e = (some (.ok res), m') →
      ∃ t opening chain moves os attempts result stopped,
        Dispatched B s (m.hub.start e).1 t res opening chain moves os attempts result stopped ∧
        Recorded m'.hub (m.hub.start e).1.context os attempts ∧
        ∀ a ∈ attempts, a.listener.Passes B (m.hub.start e).1.context →
          a.Goes B s handle (m.hub.start e).1.context ∧
          ∀ h, a.Starts B s (m.hub.start e).1.context h → ∀ m'', Scheduler.Later m' m'' →
            m''.Resolves h fun w => ∃ t e',
              (a.listener.job (m.hub.start e).1.context).Gives B s handle t e' ∧
                w = asFailure e' := by
  have hgives : ∀ job w, Job.CanGive B s job w →
      ∃ t e, job.Gives B s handle t e ∧ w = asFailure e := by
    rintro job w ⟨t, e, hrun, rfl⟩
    exact ⟨t, e, gives_of_runs hB hcalm hrun, rfl⟩
  refine ⟨fun e b t out hrun => ?_, fun job t e hrun => gives_of_runs hB hcalm hrun, ?_, ?_⟩
  · obtain ⟨opening, chain, moves, os, attempts, result, stopped, hall, -⟩ :=
      dispatched_of_runs hrun
    refine ⟨opening, chain, moves, os, attempts, result, stopped, hall, fun a ha hpasses => ?_⟩
    exact (hall.processed.made ha).1.goes hB hpasses
  · rintro α hub m m' patience p job h hm rfl hx hl
    exact (Scheduler.promised_of_spawned hm hx hl).resolves.mono (hgives job)
  · rintro hub m m' patience e res hm rfl hrun
    obtain ⟨t, opening, chain, moves, os, attempts, result, stopped, hall, hrecorded, hstarted⟩ :=
      Scheduler.started_of_dispatch hm hrun
    refine ⟨t, opening, chain, moves, os, attempts, result, stopped, hall, hrecorded,
      fun a ha hpasses => ⟨(hall.processed.made ha).1.goes hB hpasses, fun h hstarts m'' hl => ?_⟩⟩
    have hlater : Scheduler.Later (m.dispatch B patience e).2 m'' := by rwa [hrun]
    exact (Scheduler.promised_of_spawned hm (hstarted a ha h hstarts) hlater).resolves.mono
      (hgives _)

/-- Code with a handler that panics, where failures are noted and answered. -/
def Behaviours.noting : Behaviours Unit (List Failure) where
  filter _ _ := .done true
  matcher _ _ := .done false
  handler _ _ := .panic (.text "boom")
  listenerInterceptor _ _ := .call .proceed .done
  processingInterceptor _ _ := .call .proceed .done
  onFailure := some fun _ f => .call .memory fun (seen : List Failure) =>
    .call (.setMemory (seen ++ [f])) fun _ => .done (.of (.str f.message))

/-- A hub with a listener whose handler is started. -/
def Hub.noting (catchPanics : Bool) : Hub Unit (List Failure) :=
  .fresh ⟨⟨[.wrapped .async], [], [], []⟩, 1⟩ ⟨catchPanics⟩ []

/-- The panic is caught and answered, and the answer is behind the handle. -/
theorem failure_handed_on_noting :
    ∃ m', (Scheduler.fresh (Hub.noting true)).dispatch .noting none .bare
        = (some (.ok (.ok (.ofOutcomes [⟨.ofInt 1, .async ⟨0⟩⟩]))), m') ∧
      ∀ m'', Scheduler.Later m' m'' → m''.Resolves ⟨0⟩ (· = .of (.str "boom")) := by
  have hcalm : Answers.Calm fun (_ : ListenerContext) f =>
      .call .memory fun (seen : List Failure) =>
        (.call (.setMemory (seen ++ [f])) fun _ => .done (.of (.str f.message)) :
          Program (requests Unit (List Failure)) EventResult) :=
    fun _ _ => Program.ends_call_iff.mpr fun _ => Program.ends_call_iff.mpr fun _ =>
      Program.ends_done_iff.mpr ⟨_, rfl⟩
  obtain ⟨-, -, -, hscheduler⟩ := failure_handed_on .noting ⟨true⟩ _ rfl hcalm
  obtain ⟨m', hrun, houtcomes⟩ : ∃ m',
      (Scheduler.fresh (Hub.noting true)).dispatch .noting none .bare
        = (some (.ok (.ok (.ofOutcomes [⟨.ofInt 1, .async ⟨0⟩⟩]))), m') ∧
      (m'.hub.dispatchState ⟨0, .bare⟩).outcomes = [⟨.ofInt 1, .async ⟨0⟩⟩] := ⟨_, rfl, rfl⟩
  refine ⟨m', hrun, fun m'' hl => ?_⟩
  obtain ⟨_, _, _, _, _, attempts, _, _, hall, hrecorded, hattempts⟩ :=
    hscheduler _ (.fresh (Hub.noting true)) m' none .bare _ .fresh rfl hrun
  have houtcome : (⟨.ofInt 1, .async ⟨0⟩⟩ : Outcome) ∈ attempts.filterMap (·.outcome?) :=
    hrecorded.outcomes ▸ houtcomes ▸ List.mem_singleton.mpr rfl
  obtain ⟨a, ha, hoa⟩ := List.mem_filterMap.mp houtcome
  obtain ⟨-, htarget, -⟩ := hall.processed.made ha
  obtain hlistener : a.listener = .wrapped .async := List.mem_singleton.mp htarget
  obtain ⟨hgoes, hresolves⟩ := hattempts a ha ⟨fun _ _ _ => rfl, fun _ _ _ => rfl⟩
  cases hgoes with
  | succeeds hmode => rw [hlistener] at hmode; exact absurd hmode (by decide)
  | answered hmode => rw [hlistener] at hmode; exact absurd hmode (by decide)
  | refused haround hrefused _ =>
    obtain ⟨_, v, _, -, hv, -, -⟩ := haround
    refine absurd (ends_acceptedBy (fun f _ => ?_) v _ hv) hrefused
    exact Program.ends_done_iff.mpr rfl
  | starts _ _ hstarts =>
    obtain ⟨-, hresult⟩ := Outcome.mk.inj (Option.some.inj (hoa.symm.trans hstarts.outcome))
    obtain rfl := EventResult.async.inj hresult
    obtain ⟨hkept, howed⟩ := hresolves _ hstarts m'' hl
    refine ⟨fun w hw => ?_, howed⟩
    obtain ⟨t, e, hgives, rfl⟩ := hkept w hw
    rw [hlistener] at hgives
    cases hgives with
    | succeeds hhandler _ => cases hhandler
    | escapes hs _ => cases hs
    | answered _ hhandler hf hanswer =>
      cases hhandler
      obtain rfl := EventResult.failed.inj hf
      obtain ⟨_, _, -, hnote⟩ := Program.runs_call_iff.mp hanswer
      obtain ⟨_, _, -, hdone⟩ := Program.runs_call_iff.mp hnote
      obtain ⟨-, hw⟩ := Program.runs_done_iff.mp hdone
      exact Except.ok.inj hw

/-- **A panic that is not caught is not handed on** if the handler was
started. The dispatch does not panic, and waiting for its result gives the
failure as it is. The handler of failures has noted nothing. -/
theorem failure_passed_over :
    ∃ m' m'', (Scheduler.fresh (Hub.noting false)).dispatch .noting none .bare
        = (some (.ok (.ok (.ofOutcomes [⟨.ofInt 1, .async ⟨0⟩⟩]))), m') ∧
      m'.run Behaviours.noting none
          (ofUser (DispatchResult.ofOutcomes [⟨.ofInt 1, .async ⟨0⟩⟩]).settle)
        = (some (.ok (.ofOutcomes [⟨.ofInt 1, .failed ⟨"boom", true⟩⟩])), m'') ∧
      m''.hub.memory = [] :=
  ⟨_, _, rfl, rfl, rfl⟩

end Switchboard
