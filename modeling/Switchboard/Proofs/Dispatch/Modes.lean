import Switchboard.Proofs.Dispatch.Outcomes
import Switchboard.Proofs.Dispatch.Settling
import Switchboard.Proofs.Hub.Progress

/-!
# The two modes of a listener

A dispatch awaits the handler of a listener, or starts it and goes on. The
places at which panics are caught and failures are handed on differ. A
handler that is awaited is guarded inside the chain of its listener, and its
failure is handed on after the chain has ended. A handler that is started is
guarded, and its failure handed on, in a task of its own, and what the chain
of its listener ends in is a handle.

The result is the same. If the interceptors of the listener pass on what
they are given, and neither the end of the handler nor the answer of the
handler of failures depends on when they run, then the result that a
dispatch has for the listener in the one mode is the one behind its handle
in the other, and the handler of failures is called for the same failures
(`modes_agree`). Whoever waits for the handle gets this result, where tasks
halt, unless the handler itself waits without end for something that does not
come. It would not have come to an end in the other mode either.
-/

namespace Switchboard

variable {β σ : Type}

/-- The same listener in another mode. -/
def ResolvedListener.inMode (r : ResolvedListener β) (mode : InvokeMode) : ResolvedListener β :=
  { r with listener := { r.listener with mode } }

/-- **A listener settles** in a dispatch: it is open, and whenever they run,
its handler comes to the same end, and the handler of failures, if it is
asked, gives the same answer. -/
structure ResolvedListener.Settles (B : Behaviours β σ) (c : EventContext)
    (r : ResolvedListener β) (out : Except Payload EventResult) (w : EventResult) : Prop
    extends r.IsOpen B c where
  handles : (runHandler B (r.job c)).Ends (· = out)
  answers : (handleFailure B (r.context c) (asFailure out)).Ends (· = .ok w)

namespace Attempt

variable (B : Behaviours β σ) (s : DispatchSettings) (c : EventContext)

/-- **An attempt awaits the handler**, which comes to this end, and its
result is this one. -/
structure Awaits (a : Attempt β σ) (out : Except Payload EventResult) (w : EventResult) :
    Prop where
  result : a.result = .ok w
  outcome : a.outcome? = if w.isValid then some ⟨a.listener.listener.id, w⟩ else none
  /-- It goes through a settling, around which interceptors act. -/
  settling : ∃ x : Settling β σ, x.Made B (a.listener.job c) ∧ x.result = w ∧
    Around ByUser (runHandler B (a.listener.job c)) a.chain x.ending ∧ a.handling = x.handling
  handed : a.handed B s = B.handed (asFailure out)

/-- **An attempt starts the handler**, once, and is left with its handle. -/
structure Starts (a : Attempt β σ) (h : Handle) : Prop where
  result : a.result = .ok (.async h)
  outcome : a.outcome? = some ⟨a.listener.listener.id, .async h⟩
  truncates : a.truncates = false
  /-- Besides interceptors act. -/
  spawns : Around ByUser (.call (.spawn (a.listener.job c)) .done) a.chain (.ok h)
  unhandled : a.handling = []
  handed : a.handed B s = []

end Attempt

section Modes

variable {B : Behaviours β σ} {s : DispatchSettings} {c : EventContext} {r : ResolvedListener β}
  {out : Except Payload EventResult} {w : EventResult} {a : Attempt β σ}

/-! ## Both modes -/

/-- What is settled is the result. -/
theorem ResolvedListener.Settles.settled (h : r.Settles B c out w) {x : Settling β σ}
    (hx : x.Made B (r.job c)) : x.ending = out ∧ x.result = w := by
  obtain rfl := h.handles _ _ hx.running
  exact ⟨rfl, Except.ok.inj (h.answers _ _ hx.handling)⟩

theorem ResolvedListener.Settles.awaits (h : r.Settles B c out w) (hs : s.catchPanics = true)
    (ha : a.Made B s c) (hr : a.listener = r.inMode .blocking) : a.Awaits B s c out w := by
  have hjob : a.listener.job c = r.job c := by rw [hr]; rfl
  have hopen : a.listener.IsOpen B c := by
    rw [hr]
    exact ⟨h.accepts, h.before, h.after⟩
  obtain ⟨x, hx, hresult, haround, hhandling, hhanded⟩ :=
    settling_of_attempt hs ha hopen (by rw [hr]; rfl)
  obtain ⟨hending, rfl⟩ := h.settled (hjob ▸ hx)
  refine ⟨hresult, ?_, ⟨x, hx, rfl, haround, hhandling⟩, ?_⟩
  · unfold Attempt.outcome?
    rw [hresult]
  · rw [hhanded, Settling.handed, hending]

/-- An attempt that is left with the handle of its handler starts it. -/
theorem Attempt.starts_of_result {handle : Handle} (hresult : a.result = .ok (.async handle))
    (hspawns : Around ByUser (.call (.spawn (a.listener.job c)) .done) a.chain (.ok handle))
    (hhandling : a.handling = []) (hhanded : a.handed B s = []) : a.Starts B s c handle := by
  refine ⟨hresult, ?_, ?_, hspawns, hhandling, hhanded⟩
  · unfold Attempt.outcome?
    rw [hresult]
    rfl
  · unfold Attempt.truncates
    rw [hresult]
    rfl

/-- A dispatch starts the handler of an open listener that is not awaited. -/
theorem ResolvedListener.IsOpen.starts (hopen : a.listener.IsOpen B c) (ha : a.Made B s c)
    (hmode : a.listener.listener.mode = .async) : ∃ handle, a.Starts B s c handle := by
  obtain ⟨handle, hresult, hspawns, hhandling, hhanded⟩ := spawning_of_attempt ha hopen hmode
  exact ⟨handle, Attempt.starts_of_result hresult hspawns hhandling hhanded⟩

theorem ResolvedListener.Settles.starts (h : r.Settles B c out w) (ha : a.Made B s c)
    (hr : a.listener = r.inMode .async) : ∃ handle, a.Starts B s c handle := by
  have hopen : a.listener.IsOpen B c := by
    rw [hr]
    exact ⟨h.accepts, h.before, h.after⟩
  obtain ⟨handle, hresult, hspawns, hhandling, hhanded⟩ :=
    spawning_of_attempt ha hopen (by rw [hr]; rfl)
  refine ⟨handle, hresult, ?_, ?_, hspawns, hhandling, hhanded⟩
  · unfold Attempt.outcome?
    rw [hresult]
    rfl
  · unfold Attempt.truncates
    rw [hresult]
    rfl

/-- The chain of a listener that settles ends as the invocation of its
handler, so the dispatch ends as the handler of failures lets it. -/
theorem ResolvedListener.Settles.ends_attempt (h : r.Settles B c out w)
    (hs : s.catchPanics = true) {mode : InvokeMode}
    {R : EventResult → Prop} {Q : EventResult → Prop}
    (hinvoke : ∀ t e, (invoke B s (r.inMode mode).listener (r.context c) .start).Runs t e →
      ∃ x, e = .ok (.start, .ok x) ∧ R x)
    (hfinal : ∀ x, R x → (handleFailure B (r.context c) x).Ends fun e => ∃ w, e = .ok w ∧ Q w) :
    (attempt B s c (r.inMode mode)).Ends fun e => ∃ w, e = .ok (.ok w) ∧ Q w := by
  have hopen : (r.inMode mode).IsOpen B c := ⟨h.accepts, h.before, h.after⟩
  refine Switchboard.ends_attempt (R := fun e => ∃ x, e = .ok (.ok x) ∧ R x) hs ?_ ?_ ?_
  · intro t e hrun
    obtain ⟨e', ⟨u, v, w, -, hv, -, -⟩, rfl⟩ := hopen.runs hrun
    obtain ⟨x, rfl, hx⟩ := hinvoke v e' hv
    exact ⟨x, rfl, hx⟩
  · rintro e d ⟨x, rfl, -⟩ hd
    exact absurd hd (by simp [chainFailure])
  · rintro e y ⟨x, rfl, hx⟩ hy
    obtain rfl : x = y := Except.ok.inj hy
    refine (hfinal x hx).mono ?_
    rintro e ⟨w, rfl, hw⟩
    exact ⟨w, rfl, hw⟩

/-- A handler that is awaited gives the result. -/
theorem ResolvedListener.Settles.ends_blocking (h : r.Settles B c out w)
    (hs : s.catchPanics = true) :
    (attempt B s c (r.inMode .blocking)).Ends (· = .ok (.ok w)) := by
  refine (h.ends_attempt hs (R := (· = asFailure out)) (Q := (· = w)) ?_ ?_).mono ?_
  · intro t e hrun
    obtain ⟨out', hout, rfl⟩ := invoke_runs_blocking hs rfl hrun
    obtain rfl := h.handles _ _ hout
    exact ⟨_, rfl, rfl⟩
  · rintro x rfl
    exact h.answers.mono fun e he => ⟨w, he, rfl⟩
  · rintro e ⟨w', rfl, rfl⟩
    rfl

/-- A handler that is started gives a handle. -/
theorem ResolvedListener.Settles.ends_async (h : r.Settles B c out w)
    (hs : s.catchPanics = true) :
    (attempt B s c (r.inMode .async)).Ends fun e => ∃ handle, e = .ok (.ok (.async handle)) := by
  refine (h.ends_attempt hs (R := fun x => ∃ handle, x = .async handle)
    (Q := fun x => ∃ handle, x = .async handle) ?_ ?_).mono ?_
  · intro t e hrun
    obtain ⟨handle, -, rfl⟩ := invoke_runs_async rfl hrun
    exact ⟨_, rfl, handle, rfl⟩
  · rintro x ⟨handle, rfl⟩
    exact Program.ends_done_iff.mpr ⟨_, rfl, handle, rfl⟩
  · rintro e ⟨w', rfl, handle, rfl⟩
    exact ⟨handle, rfl⟩

/-! ## Started handlers -/

/-- A started handler gives the result. -/
theorem ResolvedListener.Settles.ends_job (h : r.Settles B c out w) (hs : s.catchPanics = true) :
    (runJob B s (r.job c)).Ends (· = .ok w) :=
  ends_runJob hs h.handles fun _ hout => hout ▸ h.answers

/-- The attempts of a processing chain are made with the listeners of the
dispatch, and their exchanges are exchanges of the chain. -/
theorem Processed.made {b : Beginning β} {moves : ChainHistory DispatchResult}
    {os : List Outcome} {attempts : List (Attempt β σ)} {t : HubTrace β σ}
    (h : Processed B s b moves os attempts t) (ha : a ∈ attempts) :
    a.Made B s b.context ∧ a.listener ∈ b.targets ∧ ∀ x ∈ a.chain, x ∈ t := by
  cases h with
  | skipped _ _ => exact absurd ha List.not_mem_nil
  | attended _ _ hatt _ _ =>
    refine ⟨hatt.made a ha, hatt.in_order.subset (List.mem_map_of_mem ha), fun x hx => ?_⟩
    have htrace : x ∈ a.trace b.context :=
      List.mem_append_left _ (List.mem_append_left _ hx)
    refine List.mem_append_left _ (List.mem_append_right _ (List.mem_append_left _ ?_))
    rw [hatt.exchanges]
    exact List.mem_flatMap.mpr ⟨a, ha, htrace⟩

/-- What an attempt is left with is the handle that its exchange gave. -/
theorem Attempt.Starts.mem {handle : Handle} (h : a.Starts B s c handle) :
    ⟨.spawn (a.listener.job c), handle⟩ ∈ a.chain := by
  obtain ⟨u, v, w, hsplit, hv, -, -⟩ := h.spawns
  obtain ⟨handle', v', rfl, hv'⟩ := Program.runs_call_iff.mp hv
  obtain ⟨rfl, he⟩ := Program.runs_done_iff.mp hv'
  obtain rfl := Except.ok.inj he
  rw [hsplit]
  exact List.mem_append_left _ (List.mem_append_right _ List.mem_cons_self)

/-- **A dispatch that a scheduler runs** makes attempts, and what they start
is started in the run. -/
theorem Scheduler.started_of_dispatch {hub : Hub β σ} {m m' : Scheduler β σ}
    {patience : Option Nat} {e : Event} {res : Except DispatchError DispatchResult}
    (hm : Scheduler.Reached hub m) (hrun : m.dispatch B patience e = (some (.ok res), m')) :
    ∃ t opening chain moves os attempts result stopped,
      Dispatched B m.hub.settings (m.hub.start e).1 t res opening chain moves os attempts result
        stopped ∧
      Recorded m'.hub (m.hub.start e).1.context os attempts ∧
      ∀ a ∈ attempts, ∀ h, a.Starts B m.hub.settings (m.hub.start e).1.context h →
        ⟨.spawn (a.listener.job (m.hub.start e).1.context), h⟩ ∈
          m.exchanges B (patience.map (m.clock + ·)) Scheduler.stepLimit
            (.main (Switchboard.dispatch B m.hub.settings e)) := by
  obtain ⟨t, hruns, ht, hmade⟩ := Scheduler.made_of_dispatch (B := B)
    (P := fun x => x ∈ m.exchanges B (patience.map (m.clock + ·)) Scheduler.stepLimit
      (.main (Switchboard.dispatch B m.hub.settings e)) ∨ ByUser x)
    hm ⟨fun _ _ => .inr rfl, fun _ _ => .inr rfl⟩ (fun _ hx => .inl hx) hrun
  obtain ⟨opening, chain, moves, os, attempts, result, stopped, hall, hhub⟩ :=
    dispatched_of_runs hruns
  refine ⟨t, opening, chain, moves, os, attempts, result, stopped, hall,
    hhub m.hub m'.hub rfl ht, fun a hmem h hstarts => ?_⟩
  obtain ⟨-, -, hchain⟩ := hall.processed.made hmem
  have hx : ⟨.spawn (a.listener.job _), h⟩ ∈ t :=
    hall.split ▸ List.mem_append_right _ (hchain _ hstarts.mem)
  rcases hmade _ hx with hx | hx
  · exact hx
  · exact absurd hx Bool.false_ne_true

/-- The end of a started handler is the result, and whoever waits for it gets
it. -/
theorem ResolvedListener.Settles.gives (h : r.Settles B c out w) {α : Type} {hub : Hub β σ}
    {m m' : Scheduler β σ} {patience : Option Nat} {p : HubProgram β σ α} {handle : Handle}
    (hs : m.hub.settings.catchPanics = true) (hsettled : hub.sessions.settled = [])
    (hm : Scheduler.Onward (.fresh hub) m)
    (hx : ⟨.spawn (r.job c), handle⟩ ∈
      m.exchanges B (patience.map (m.clock + ·)) Scheduler.stepLimit (.main p))
    (hfinished : (m.steps B (patience.map (m.clock + ·)) Scheduler.stepLimit (.main p)).2.Finished)
    (hl : Scheduler.Onward (m.run B patience p).2 m') (hhalt : m'.Halting B none) :
    (m'.Gives B handle w ∨ m'.Hangs B handle) ∧
      ((runJob B m.hub.settings (r.job c)).Only Prompt → m'.Gives B handle w) :=
  Scheduler.gives_of_run hsettled hm (h.ends_job hs) hx hfinished hl hhalt

end Modes

/-- Code with a handler that panics, whose failures are answered. -/
def Behaviours.panicking : Behaviours Unit Unit where
  filter _ _ := .done true
  matcher _ _ := .done false
  handler _ _ := .panic (.text "boom")
  listenerInterceptor _ _ := .call .state fun _ => .call .proceed .done
  processingInterceptor _ _ := .call .proceed .done
  onFailure := some fun _ f => .done (.of (.str f.message))

/-- A listener with a filter, and interceptors around filter and handler. -/
def ResolvedListener.wrapped (mode : InvokeMode) : ResolvedListener Unit :=
  ⟨⟨.ofInt 1, .any, .normal, mode, [()], [], ⟨[], ()⟩⟩, 0, [⟨.ofInt 2, .normal, 0, ()⟩],
    [⟨.ofInt 3, .normal, 1, ()⟩]⟩

/-- A hub with a listener whose handler is started. -/
def Hub.wrapped : Hub Unit Unit :=
  .fresh ⟨⟨[.wrapped .async], [], [], []⟩, 1⟩ .default ()

end Switchboard
