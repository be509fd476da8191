import Mathlib.Data.List.Forall2
import Switchboard.Proofs.Dispatch.Failures
import Switchboard.Proofs.Dispatch.Modes

/-!
# Failures are contained

Two dispatches attend to the same listeners but one, which fails in the
second of them. Nothing that the other listeners do comes out differently,
if they cannot tell the two dispatches apart.

What listeners can tell apart is a matter of their `Surroundings`: states
that exchanges lead from one to another, and when two of these states look
alike. Listeners do not communicate if an attempt with one of them, made in
surroundings that look alike, comes to the same result and leaves
surroundings that look alike, and if the surroundings look the same whatever
has been recorded (`Surroundings.Parallel`).

Then the two dispatches go side by side (`Surroundings.Alongside`), from
attempt to attempt. A listener that fails does not stop its dispatch, and
neither does the one in whose place it is, so the listeners behind them are
attempted in both (`failure_contained`).
-/

namespace Switchboard

variable {β σ : Type}

/-! ## Surroundings -/

/-- **The surroundings of a dispatch**, and when they look alike to the code
of its listeners. -/
structure Surroundings (β σ : Type) where
  State : Type
  /-- An exchange leads from one state to another. -/
  makes : State → Exchange (hubCalls β σ) → State → Prop
  Alike : State → State → Prop
  /-- Two results are the same, up to the numbers of handles for example. -/
  Same : EventResult → EventResult → Prop
  valid : ∀ {w w'}, Same w w' → w.isValid = w'.isValid
  truncated : ∀ {w w'}, Same w w' → w.isTruncated = w'.isTruncated
  /-- What a dispatch writes about itself is not seen, in either state. -/
  unseen : ∀ {e e' f x}, x.call.target?.isSome → makes e x e' → Alike e f → Alike e' f
  unseen' : ∀ {e f f' x}, x.call.target?.isSome → makes f x f' → Alike e f → Alike e f'

namespace Surroundings

variable (S : Surroundings β σ)

/-- Exchanges lead from one state to another, one after the other. -/
def Happens : S.State → HubTrace β σ → S.State → Prop
  | e, [], e' => e' = e
  | e, x :: t, e' => ∃ e₁, S.makes e x e₁ ∧ Happens e₁ t e'

/-- Two results of attempts are the same. -/
inductive SameResult : Except DispatchError EventResult → Except DispatchError EventResult → Prop
  | ok {w w' : EventResult} : S.Same w w' → SameResult (.ok w) (.ok w')
  | error {d : DispatchError} : SameResult (.error d) (.error d)

/-- **Two attempts correspond**: they are made with the same listener, come
to the same result, and the same is recorded. -/
structure Corresponds (a a' : Attempt β σ) : Prop where
  listener : a.listener = a'.listener
  result : S.SameResult a.result a'.result
  outcome : Option.Rel (fun o o' => o.listener = o'.listener ∧ S.Same o.result o'.result)
    a.outcome? a'.outcome?

/-- **Attempts in parallel** with two listeners: made in surroundings that
look alike, they leave such, and their results are related. -/
def Parallel (B : Behaviours β σ) (s : DispatchSettings) (c : EventContext)
    (Related : Except DispatchError EventResult → Except DispatchError EventResult → Prop)
    (r r' : ResolvedListener β) : Prop :=
  ∀ ⦃a a' : Attempt β σ⦄ ⦃e e' f f' : S.State⦄, a.Made B s c → a'.Made B s c →
    a.listener = r → a'.listener = r' → S.Alike e f →
    S.Happens e (a.chain ++ a.handling) e' → S.Happens f (a'.chain ++ a'.handling) f' →
    S.Alike e' f' ∧ Related a.result a'.result

variable {S} {B : Behaviours β σ} {s : DispatchSettings} {c : EventContext}
  {e e' f f' : S.State} {t u : HubTrace β σ}

theorem happens_append_iff :
    S.Happens e (t ++ u) e' ↔ ∃ e₁, S.Happens e t e₁ ∧ S.Happens e₁ u e' := by
  induction t generalizing e with
  | nil =>
    constructor
    · exact fun h => ⟨e, rfl, h⟩
    · rintro ⟨e₁, rfl, h⟩
      exact h
  | cons x t ih =>
    constructor
    · rintro ⟨e₁, hx, h⟩
      obtain ⟨e₂, ht, hu⟩ := ih.mp h
      exact ⟨e₂, ⟨e₁, hx, ht⟩, hu⟩
    · rintro ⟨e₂, ⟨e₁, hx, ht⟩, hu⟩
      exact ⟨e₁, hx, ih.mpr ⟨e₂, ht, hu⟩⟩

/-- What is recorded after an attempt leaves what such exchanges leave. -/
theorem of_records {P : S.State → Prop} {a : Attempt β σ}
    (hP : ∀ {e e' x}, x.call.target?.isSome → S.makes e x e' → P e → P e') (h : P e)
    (hrec : S.Happens e (a.records c) e') : P e' := by
  have hwrites : ∀ x ∈ a.records c, x.call.target?.isSome :=
    List.filter_eq_self.mp (writes_records a c)
  generalize a.records c = t at hrec hwrites
  induction t generalizing e with
  | nil =>
    obtain rfl := hrec
    exact h
  | cons x t ih =>
    obtain ⟨e₁, hx, ht⟩ := hrec
    exact ih (hP (hwrites x List.mem_cons_self) hx h) ht
      fun y hy => hwrites y (List.mem_cons_of_mem x hy)

/-- **Attempts in parallel, with what is recorded after them.** -/
theorem Parallel.trace {Related : Except DispatchError EventResult →
      Except DispatchError EventResult → Prop} {r r' : ResolvedListener β}
    (h : S.Parallel B s c Related r r') {a a' : Attempt β σ} (ha : a.Made B s c)
    (ha' : a'.Made B s c) (hr : a.listener = r) (hr' : a'.listener = r') (halike : S.Alike e f)
    (he : S.Happens e (a.trace c) e') (hf : S.Happens f (a'.trace c) f') :
    S.Alike e' f' ∧ Related a.result a'.result := by
  obtain ⟨e₁, he₁, herec⟩ := happens_append_iff.mp he
  obtain ⟨f₁, hf₁, hfrec⟩ := happens_append_iff.mp hf
  obtain ⟨hbetween, hresults⟩ := h ha ha' hr hr' halike he₁ hf₁
  have hleft : S.Alike e' f₁ :=
    of_records (P := (S.Alike · f₁)) (fun hx hm hp => S.unseen hx hm hp) hbetween herec
  exact ⟨of_records (P := (S.Alike e' ·)) (fun hx hm hp => S.unseen' hx hm hp) hleft hfrec,
    hresults⟩

/-! ## Side by side -/

variable {a a' : Attempt β σ}

/-- Attempts with one listener that come to the same result correspond. -/
theorem corresponds_of_result (hl : a.listener = a'.listener)
    (hr : S.SameResult a.result a'.result) : S.Corresponds a a' := by
  refine ⟨hl, hr, ?_⟩
  unfold Attempt.outcome?
  generalize a.result = x at hr
  generalize a'.result = x' at hr
  cases hr with
  | @ok w w' hw =>
    simp only [← S.valid hw]
    cases w.isValid with
    | true => exact .some ⟨by rw [hl], hw⟩
    | false => exact .none
  | error => exact .none

/-- Attempts with one listener that does not communicate correspond. -/
theorem Parallel.corresponds {q : ResolvedListener β} (h : S.Parallel B s c S.SameResult q q)
    (ha : a.Made B s c) (ha' : a'.Made B s c) (hq : a.listener = q) (hq' : a'.listener = q)
    (halike : S.Alike e f) (he : S.Happens e (a.trace c) e') (hf : S.Happens f (a'.trace c) f') :
    S.Alike e' f' ∧ S.Corresponds a a' := by
  obtain ⟨hafter, hresult⟩ := h.trace ha ha' hq hq' halike he hf
  exact ⟨hafter, corresponds_of_result (hq.trans hq'.symm) hresult⟩

/-- After attempts that correspond, both dispatches stop, in the same way,
or both go on. -/
theorem Corresponds.agree (h : S.Corresponds a a') :
    a'.goesOn = a.goesOn ∧
      (a.goesOn = false → a'.result.map (fun _ => ()) = a.result.map fun _ => ()) := by
  have hr := h.result
  unfold Attempt.goesOn
  generalize a.result = x at hr
  generalize a'.result = x' at hr
  cases hr with
  | ok hw => exact ⟨by simp only [S.truncated hw], fun _ => rfl⟩
  | error => exact ⟨rfl, fun _ => rfl⟩

/-- **Two dispatches go side by side**: in surroundings that look alike they
come to the same end, through attempts that are related. -/
def Alongside (S : Surroundings β σ) (B : Behaviours β σ) (s : DispatchSettings)
    (c : EventContext) (Related : List (Attempt β σ) → List (Attempt β σ) → Prop)
    (rs rs' : List (ResolvedListener β)) : Prop :=
  ∀ ⦃e e' f f' : S.State⦄ ⦃t u : HubTrace β σ⦄ ⦃x y : Except Payload (Except DispatchError Unit)⦄,
    S.Alike e f → (attendAll B s c rs).Runs t x → S.Happens e t e' →
    (attendAll B s c rs').Runs u y → S.Happens f u f' →
    ∃ as as' out, x = .ok out ∧ y = .ok out ∧ Attended B s c rs as t out ∧
      Attended B s c rs' as' u out ∧ Related as as'

theorem alongside_nil {Related : List (Attempt β σ) → List (Attempt β σ) → Prop}
    (h : Related [] []) : S.Alongside B s c Related [] [] := by
  intro e e' f f' t u x y _ hx _ hy _
  obtain ⟨rfl, rfl⟩ := Program.runs_done_iff.mp hx
  obtain ⟨rfl, rfl⟩ := Program.runs_done_iff.mp hy
  exact ⟨[], [], .ok (), rfl, rfl, attended_nil, attended_nil, h⟩

/-- **One attempt on either side**, and the rest is side by side. -/
theorem Alongside.cons {Rest Related : List (Attempt β σ) → List (Attempt β σ) → Prop}
    {T : Attempt β σ → Attempt β σ → Prop} {r r' : ResolvedListener β}
    {rs rs' : List (ResolvedListener β)} (hs : s.catchPanics = true) (hB : B.Forgiving)
    (hturn : ∀ {a a' : Attempt β σ} {e e' f f' : S.State}, a.Made B s c → a'.Made B s c →
      a.listener = r → a'.listener = r' → S.Alike e f → S.Happens e (a.trace c) e' →
      S.Happens f (a'.trace c) f' → S.Alike e' f' ∧ T a a')
    (hagree : ∀ {a a'}, T a a' → a'.goesOn = a.goesOn ∧
      (a.goesOn = false → a'.result.map (fun _ => ()) = a.result.map fun _ => ()))
    (hstop : ∀ {a a'}, a.listener = r → T a a' → a.goesOn = false → Related [a] [a'])
    (hgo : ∀ {a a' as as'}, a.listener = r → T a a' → Rest as as' →
      Related (a :: as) (a' :: as'))
    (h : S.Alongside B s c Rest rs rs') : S.Alongside B s c Related (r :: rs) (r' :: rs') := by
  intro e e' f f' t u x y halike hx ht hy hu
  rcases attendAll_cons_runs hx with ⟨p, -, hp⟩ | ⟨a, v, rfl, ha, rfl, hnext⟩
  · obtain ⟨z, hz⟩ := ends_attempt_ok hs hB _ _ _ hp
    exact absurd hz (by simp)
  rcases attendAll_cons_runs hy with ⟨p, -, hp⟩ | ⟨a', v', rfl, ha', rfl, hnext'⟩
  · obtain ⟨z, hz⟩ := ends_attempt_ok hs hB _ _ _ hp
    exact absurd hz (by simp)
  obtain ⟨e₁, he, hrest⟩ := happens_append_iff.mp ht
  obtain ⟨f₁, hf, hrest'⟩ := happens_append_iff.mp hu
  obtain ⟨halike₁, hT⟩ := hturn ha ha' rfl rfl halike he hf
  obtain ⟨hsame, hends⟩ := hagree hT
  rcases hnext with ⟨hon, hv⟩ | ⟨hoff, rfl, rfl⟩
  · rcases hnext' with ⟨hon', hv'⟩ | ⟨hoff', -, -⟩
    · obtain ⟨as, as', out, rfl, rfl, hatt, hatt', hR⟩ := h halike₁ hv hrest hv' hrest'
      exact ⟨a :: as, a' :: as', out, rfl, rfl, hatt.cons ha hon, hatt'.cons ha' hon',
        hgo rfl hT hR⟩
    · exact absurd (hoff'.symm.trans (hsame.trans hon)) (by simp)
  · rcases hnext' with ⟨hon', -⟩ | ⟨hoff', rfl, rfl⟩
    · exact absurd (hon'.symm.trans (hsame.trans hoff)) (by simp)
    · have hstopped := attended_singleton rs' ha' hoff'
      rw [hends hoff] at hstopped
      rw [List.append_nil, List.append_nil]
      exact ⟨[a], [a'], _, rfl, congrArg _ (hends hoff), attended_singleton rs ha hoff, hstopped,
        hstop rfl hT hoff⟩

/-- **Dispatches to the same listeners go side by side**, if these do not
communicate. -/
theorem alongside_same {rs : List (ResolvedListener β)} (hs : s.catchPanics = true)
    (hB : B.Forgiving) (h : ∀ q ∈ rs, S.Parallel B s c S.SameResult q q) :
    S.Alongside B s c (List.Forall₂ S.Corresponds) rs rs := by
  induction rs with
  | nil => exact alongside_nil .nil
  | cons q rs ih =>
    have hq := h q List.mem_cons_self
    exact (ih fun q' hq' => h q' (List.mem_cons_of_mem q hq')).cons hs hB hq.corresponds
      (fun hT => hT.agree) (fun _ hT _ => .cons hT .nil) fun _ hT hrest => .cons hT hrest

/-! ## A failure in one of them -/

/-- **A failure is contained**: the attempts of two dispatches to the same
listeners but one, which fails in the second. The listeners before it are
given. -/
inductive Contained (S : Surroundings β σ) (B : Behaviours β σ) (s : DispatchSettings)
    (c : EventContext) (Q : Failure → Prop) (r r' : ResolvedListener β) :
    List (ResolvedListener β) → List (Attempt β σ) → List (Attempt β σ) → Prop
  /-- Both dispatches stop before the listener that fails. -/
  | short {pre : List (ResolvedListener β)} {as as' : List (Attempt β σ)} :
      as.map (·.listener) <+: pre → List.Forall₂ S.Corresponds as as' →
      Contained S B s c Q r r' pre as as'
  /-- Both attempt the listeners before it, it fails, and both go on. -/
  | through {pre : List (ResolvedListener β)} {as as' bs bs' : List (Attempt β σ)}
      {a a' : Attempt β σ} : as.map (·.listener) = pre → List.Forall₂ S.Corresponds as as' →
      a.listener = r → a'.listener = r' → a'.Fails B s c Q → List.Forall₂ S.Corresponds bs bs' →
      Contained S B s c Q r r' pre (as ++ a :: bs) (as' ++ a' :: bs')

variable {Q : Failure → Prop} {r r' : ResolvedListener β}

theorem Contained.cons {pre : List (ResolvedListener β)} {as as' : List (Attempt β σ)}
    (h : S.Contained B s c Q r r' pre as as') (ha : S.Corresponds a a') :
    S.Contained B s c Q r r' (a.listener :: pre) (a :: as) (a' :: as') := by
  cases h with
  | short hpre hsame => exact .short ((List.prefix_cons_inj _).mpr hpre) (.cons ha hsame)
  | through hpre hsame hr hr' hfails hrest =>
    exact .through (by rw [List.map_cons, hpre]) (.cons ha hsame) hr hr' hfails hrest

/-- **Dispatches with one listener that fails in the second of them go side
by side.** -/
theorem alongside_contained {pre post : List (ResolvedListener β)} (hs : s.catchPanics = true)
    (hB : B.Forgiving) (hothers : ∀ q ∈ pre ++ post, S.Parallel B s c S.SameResult q q)
    (hown : S.Parallel B s c (fun x _ => ∃ w, x = .ok w ∧ w.isTruncated = false) r r')
    (hbreaks : r'.Breaks B c Q) :
    S.Alongside B s c (S.Contained B s c Q r r' pre) (pre ++ r :: post) (pre ++ r' :: post) := by
  induction pre with
  | nil =>
    refine (alongside_same hs hB hothers).cons hs hB
      (T := fun a a' => a.goesOn = true ∧ a'.listener = r' ∧ a'.Fails B s c Q) ?_ ?_ ?_ ?_
    · intro a a' e e' f f' ha ha' hr hr' halike he hf
      obtain ⟨hafter, w, hw, htr⟩ := hown.trace ha ha' hr hr' halike he hf
      have hon : a.goesOn = true := by
        rw [Attempt.goesOn_of_ok hw, htr]
        rfl
      have hfails : a'.listener.Breaks B c Q := by
        rw [hr']
        exact hbreaks
      exact ⟨hafter, hon, hr', hfails.fails hs hB ha'⟩
    · rintro a a' ⟨hon, -, hfails⟩
      exact ⟨(hfails.goesOn hB).trans hon.symm, fun hoff => absurd (hon.symm.trans hoff) (by simp)⟩
    · rintro a a' - ⟨hon, -, -⟩ hoff
      exact absurd (hon.symm.trans hoff) (by simp)
    · rintro a a' bs bs' hr ⟨-, hr', hfails⟩ hrest
      have hthrough := Contained.through rfl .nil hr hr' hfails hrest
      exact hthrough
  | cons q pre ih =>
    have hq := hothers q List.mem_cons_self
    refine (ih fun q' hq' => hothers q' (List.mem_cons_of_mem q hq')).cons hs hB hq.corresponds
      (fun hT => hT.agree) ?_ ?_
    · rintro a a' rfl hT -
      exact .short ⟨pre, rfl⟩ (.cons hT .nil)
    · rintro a a' as as' rfl hT hrest
      exact hrest.cons hT

end Surroundings

/-- **Failures are contained.** Where panics are caught and failures are
forgiven, take two dispatches to listeners that do not communicate, alike
but for one, which neither truncates nor ends in an error in the first
dispatch, and breaks in the second, be it in a filter, in an interceptor or
in its handler. The second dispatch does not panic, whatever the listeners
do. It attempts the same other listeners as the first, in the same order and
with the same outcomes. And the final result of the one that breaks is what
is made of its failure, at once, or behind a handle if it is a handler that
was started. Which failures it breaks with is what `Q` says: for a panic
with payload `p` that they are `Failure.ofPanic p`, for an error that they
are `Failure.ofError` of its message. -/
theorem failure_contained (B : Behaviours β σ) (s : DispatchSettings) (hs : s.catchPanics = true)
    (hB : B.Forgiving) (S : Surroundings β σ) (c : EventContext) (Q : Failure → Prop)
    (pre post : List (ResolvedListener β)) (r r' : ResolvedListener β)
    (hothers : ∀ q ∈ pre ++ post, S.Parallel B s c S.SameResult q q)
    (hown : S.Parallel B s c (fun x _ => ∃ w, x = .ok w ∧ w.isTruncated = false) r r')
    (hbreaks : r'.Breaks B c Q) :
    (∀ processing, (listenersStage B s ⟨processing, pre ++ r' :: post, c⟩).Ends
      fun e => ∃ given, e = .ok given) ∧
    S.Alongside B s c (S.Contained B s c Q r r' pre) (pre ++ r :: post) (pre ++ r' :: post) ∧
    ∀ (α : Type) hub (m m' : Scheduler β σ) patience (p : HubProgram β σ α) handle,
      Scheduler.Reached hub m → m.hub.settings = s →
      (runHandler B (r'.job c)).Ends (fun out => ∃ f, asFailure out = .failed f ∧ Q f) →
      ⟨.spawn (r'.job c), handle⟩ ∈
        m.exchanges B (patience.map (m.clock + ·)) Scheduler.stepLimit (.main p) →
      Scheduler.Later (m.run B patience p).2 m' →
      m'.Resolves handle (B.MadeOf (r'.context c) Q) := by
  refine ⟨fun processing => ends_listenersStage hs hB _,
    Surroundings.alongside_contained hs hB hothers hown hbreaks, ?_⟩
  rintro α hub m m' patience p handle hm rfl hfails hx hl
  exact Scheduler.resolves_of_run hm (ends_job_of_fails hs hB hfails) hx hl

/-- A hub as surroundings, for listeners that do not look at it. -/
def Surroundings.ofHub : Surroundings β σ where
  State := Hub β σ
  makes := Hub.Makes
  Alike _ _ := True
  Same w w' := w = w'
  valid h := h ▸ rfl
  truncated h := h ▸ rfl
  unseen _ _ _ := trivial
  unseen' _ _ _ := trivial

/-- Code with handlers of which some panic. -/
def Behaviours.fragile : Behaviours Bool Unit where
  filter _ _ := .done true
  matcher _ _ := .done false
  handler panics _ := if panics then .panic (.text "boom") else .done .nothing
  listenerInterceptor _ _ := .call .proceed .done
  processingInterceptor _ _ := .call .proceed .done
  onFailure := none

/-- A listener with an interceptor, whose handler panics or does not. -/
def ResolvedListener.fragile (id : Int) (panics : Bool) : ResolvedListener Bool :=
  ⟨⟨.ofInt id, .any, .normal, .blocking, [false], [], ⟨[], panics⟩⟩, 0,
    [⟨.ofInt 9, .normal, 0, false⟩], []⟩

/-- What is recorded of a listener. -/
def Exchange.recorded (id : Int) (w : EventResult) : Exchange (hubCalls Bool Unit) :=
  ⟨.record ⟨0, .bare⟩ ⟨.ofInt id, w⟩, ()⟩

/-- The second of three handlers panics, and the third listener has its
outcome all the same. -/
theorem failure_contained_fragile :
    ∃ as as' out, Attended .fragile .default ⟨0, .bare⟩
        [.fragile 1 false, .fragile 2 false, .fragile 3 false] as
        [.recorded 1 .empty, .recorded 2 .empty, .recorded 3 .empty] out ∧
      Attended .fragile .default ⟨0, .bare⟩
        [.fragile 1 false, .fragile 2 true, .fragile 3 false] as'
        [.recorded 1 .empty, .recorded 2 (.failed ⟨"boom", true⟩), .recorded 3 .empty] out ∧
      (Surroundings.ofHub (σ := Unit)).Contained .fragile .default ⟨0, .bare⟩
        (· = .ofPanic (.text "boom")) (.fragile 2 false) (.fragile 2 true) [.fragile 1 false]
        as as' := by
  have hforgiving : Behaviours.fragile.Forgiving :=
    fun _ h => absurd h (by simp [Behaviours.fragile])
  have hsettles : ∀ id, (ResolvedListener.fragile id false).Settles .fragile ⟨0, .bare⟩
      (.ok .empty) .empty := fun id =>
    { accepts := fun _ _ => Program.ends_done_iff.mpr rfl
      before := fun _ _ _ => rfl
      after := fun _ h => absurd h List.not_mem_nil
      handles := Program.ends_done_iff.mpr rfl
      answers := Program.ends_done_iff.mpr rfl }
  have hresult : ∀ {id} {a : Attempt Bool Unit}, a.Made .fragile .default ⟨0, .bare⟩ →
      a.listener = .fragile id false → a.result = .ok .empty :=
    fun ha hl => ((hsettles _).awaits rfl ha hl).result
  let S : Surroundings Bool Unit := .ofHub
  have hparallel : ∀ id, S.Parallel .fragile .default ⟨0, .bare⟩ S.SameResult
      (.fragile id false) (.fragile id false) := by
    intro id a a' e e' f f' ha ha' hl hl' _ _ _
    rw [hresult ha hl, hresult ha' hl']
    exact ⟨trivial, .ok rfl⟩
  have hothers : ∀ q ∈ [ResolvedListener.fragile 1 false] ++ [.fragile 3 false],
      S.Parallel .fragile .default ⟨0, .bare⟩ S.SameResult q q := by
    intro q hq
    rcases List.mem_pair.mp hq with rfl | rfl
    · exact hparallel 1
    · exact hparallel 3
  have hbreaks : (ResolvedListener.fragile 2 true).Breaks .fragile ⟨0, .bare⟩
      (· = .ofPanic (.text "boom")) := by
    refine .handler ⟨?_, ?_, ?_⟩ (Program.ends_panic_iff.mpr ⟨_, rfl, rfl⟩)
    · exact fun _ _ => Program.ends_done_iff.mpr rfl
    · exact fun _ _ _ => rfl
    · exact fun _ h => absurd h List.not_mem_nil
  obtain ⟨-, halongside, -⟩ := failure_contained .fragile .default rfl hforgiving S
    ⟨0, .bare⟩ (· = .ofPanic (.text "boom")) [.fragile 1 false] [.fragile 3 false]
    (.fragile 2 false) (.fragile 2 true) hothers
    (fun _ _ _ _ _ _ ha _ hl _ _ _ _ => ⟨trivial, _, hresult ha hl, rfl⟩) hbreaks
  obtain ⟨as, as', out, -, -, hatt, hatt', hcontained⟩ := halongside
    (e := .fresh .empty .default ()) (f := .fresh .empty .default ()) trivial
    (.call (.call (.call (.done _)))) ⟨_, .inl rfl, _, .inl rfl, _, .inl rfl, rfl⟩
    (.call (.call (.call (.done _)))) ⟨_, .inl rfl, _, .inl rfl, _, .inl rfl, rfl⟩
  exact ⟨as, as', out, hatt, hatt', hcontained⟩

end Switchboard
