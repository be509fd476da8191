import Switchboard.Proofs.Hub.Bystanders

/-!
# The outcomes of a dispatch

The processing chain of a dispatch leads to the listeners once or not at
all (`Processed`). If it does, the listeners are attended to, and unless
one of them ends in an error the dispatch asks for the outcomes it has
recorded and makes its result of them. What the chain does with that
result is up to its interceptors.

The attempts are all that writes: nothing else in the dispatch records
anything, for itself or for another dispatch (`Processed.writes`). So in
a hub, where nobody but the dispatch writes to it, the outcomes it is told
are those of its attempts, and they are still there at its end
(`processed_of_runs`). That nobody else does is what the scheduler sees to
(`Scheduler.through_of_dispatch`).
-/

namespace Switchboard

variable {β σ : Type}

open HubProgram

/-- The exchanges that write to some dispatch. -/
def HubTrace.writes (t : HubTrace β σ) : HubTrace β σ := t.filter (·.call.target?.isSome)

theorem HubTrace.writes_append (t u : HubTrace β σ) : (t ++ u).writes = t.writes ++ u.writes :=
  List.filter_append ..

/-- Silent exchanges write nothing. -/
theorem writes_eq_nil {t : HubTrace β σ} (h : ∀ x ∈ t, Silent x) : t.writes = [] := by
  unfold HubTrace.writes
  rw [List.filter_eq_nil_iff]
  intro x hx
  rw [h x hx]
  exact Bool.false_ne_true

/-- Silent exchanges do not write to a dispatch. -/
theorem silentTo_of_silent {t : HubTrace β σ} (h : ∀ x ∈ t, Silent x) (i : Nat) :
    ∀ x ∈ t, SilentTo i x :=
  fun x hx => (h x hx).to i

section Written

variable {B : Behaviours β σ} {s : DispatchSettings} {c : EventContext} {h h' : Hub β σ}
  {os : List Outcome} {ended : Bool}

/-! ## What attempts write -/

/-- What is recorded after an attempt is written, all of it. -/
theorem writes_records (a : Attempt β σ) (c : EventContext) :
    (a.records c).writes = a.records c := by
  unfold HubTrace.writes
  rw [List.filter_eq_self]
  intro x hx
  rcases List.mem_append.mp hx with hx | hx
  · obtain ⟨o, -, rfl⟩ := List.mem_map.mp hx
    rfl
  · cases htr : a.truncates with
    | false =>
      rw [htr] at hx
      exact absurd hx List.not_mem_nil
    | true =>
      rw [htr] at hx
      rw [List.mem_singleton.mp hx]
      rfl

/-- **Attempts write what is recorded after them**, and nothing else. -/
theorem writes_of_attempts {attempts : List (Attempt β σ)} (hm : ∀ a ∈ attempts, a.Made B s c) :
    HubTrace.writes (attempts.flatMap (·.trace c)) = attempts.flatMap (·.records c) := by
  induction attempts with
  | nil => rfl
  | cons a attempts ih =>
    rw [List.flatMap_cons, List.flatMap_cons, HubTrace.writes_append,
      ih fun b hb => hm b (List.mem_cons_of_mem a hb), Attempt.trace, HubTrace.writes_append,
      writes_eq_nil (hm a List.mem_cons_self).silent, writes_records, List.nil_append]

/-- What is recorded after an attempt comes after what was recorded before. -/
theorem written_of_records {a : Attempt β σ} (ht : Hub.Through c.index h (a.records c) h')
    (hw : h.written c.index = some (os, ended)) :
    h'.written c.index = some (os ++ a.outcome?.toList, ended || a.truncates) := by
  unfold Attempt.records at ht
  obtain ⟨h₁, hrecord, hmark⟩ := Hub.through_append_iff.mp ht
  have hw₁ : h₁.written c.index = some (os ++ a.outcome?.toList, ended) := by
    cases ho : a.outcome? with
    | none =>
      rw [ho] at hrecord
      rw [Option.toList_none, List.append_nil]
      exact hrecord _ hw
    | some o =>
      rw [ho] at hrecord
      exact Hub.written_of_through_record hrecord hw
  cases htr : a.truncates with
  | false =>
    rw [htr, if_neg Bool.false_ne_true] at hmark
    rw [Bool.or_false]
    exact hmark _ hw₁
  | true =>
    rw [htr, if_pos rfl] at hmark
    rw [Bool.or_true]
    exact Hub.written_of_through_markTruncated hmark hw₁

/-- An attempt writes what is recorded after it, and nothing else. -/
theorem written_of_attempt {a : Attempt β σ} (hm : a.Made B s c)
    (ht : Hub.Through c.index h (a.trace c) h')
    (hw : h.written c.index = some (os, ended)) :
    h'.written c.index = some (os ++ a.outcome?.toList, ended || a.truncates) := by
  obtain ⟨h₁, hquiet, hrecords⟩ := Hub.through_append_iff.mp ht
  have hspares : Hub.Spares c.index h h₁ :=
    Hub.spares_of_through (silentTo_of_silent hm.silent c.index) hquiet
  exact written_of_records hrecords (hspares _ hw)

/-- **Attempts write their outcomes in their order**, and that the dispatch
has ended for later listeners if one of them says so. -/
theorem written_of_attempts {attempts : List (Attempt β σ)} (hm : ∀ a ∈ attempts, a.Made B s c)
    (ht : Hub.Through c.index h (attempts.flatMap (·.trace c)) h')
    (hw : h.written c.index = some (os, ended)) :
    h'.written c.index =
      some (os ++ attempts.filterMap (·.outcome?), ended || attempts.any (·.truncates)) := by
  induction attempts generalizing h os ended with
  | nil =>
    rw [List.filterMap_nil, List.append_nil, List.any_nil, Bool.or_false]
    exact ht _ hw
  | cons a attempts ih =>
    rw [List.flatMap_cons] at ht
    obtain ⟨h₁, hfirst, hrest⟩ := Hub.through_append_iff.mp ht
    have hw₁ := written_of_attempt (hm a List.mem_cons_self) hfirst hw
    have hall := ih (fun b hb => hm b (List.mem_cons_of_mem a hb)) hrest hw₁
    rw [hall, List.any_cons, Bool.or_assoc]
    cases ho : a.outcome? with
    | none => rw [List.filterMap_cons_none ho, Option.toList_none, List.append_nil]
    | some o =>
      rw [List.filterMap_cons_some ho, Option.toList_some, List.append_assoc,
        List.singleton_append]

end Written

/-! ## The end of the processing chain -/

variable {B : Behaviours β σ} {s : DispatchSettings} {b : Beginning β}

/-- After listeners have been attended to without an error, the outcomes
are asked for. -/
def asking (c : EventContext) (os : List Outcome) : Except DispatchError Unit → HubTrace β σ
  | .ok () => [⟨.user (.request (.outcomes c)), os⟩]
  | .error _ => []

/-- Asking for outcomes writes nothing. -/
theorem asking_silent {c : EventContext} {os : List Outcome} {ended : Except DispatchError Unit} :
    ∀ x ∈ asking (β := β) (σ := σ) c os ended, Silent x := by
  intro x hx
  cases ended with
  | error e => exact absurd hx List.not_mem_nil
  | ok u =>
    rw [List.mem_singleton.mp hx]
    rfl

/-- **The end of the processing chain** is attending to the listeners and
then, unless there was an error, asking for the outcomes. -/
theorem listenersStage_runs {t : HubTrace β σ} {given : Except DispatchError DispatchResult}
    (hrun : (listenersStage B s b).Runs t (.ok given)) :
    ∃ attempts listening ended os, t = listening ++ asking b.context os ended ∧
      Attended B s b.context b.targets attempts listening ended ∧
      given = (ended.map fun _ => .ofOutcomes os) ∧
      (∀ e, ended = .error e → os = attempts.filterMap (·.outcome?)) := by
  obtain ⟨ended, listening, rest, rfl, hlisten, hrest⟩ := Program.runs_bind_ok_iff.mp hrun
  obtain ⟨attempts, hatt⟩ := attendAll_runs hlisten
  cases ended with
  | error e =>
    obtain ⟨rfl, hd⟩ := Program.runs_done_iff.mp hrest
    cases hd
    exact ⟨attempts, listening, .error e, _, by simp [asking], hatt, rfl, fun _ _ => rfl⟩
  | ok u =>
    obtain ⟨os, asked, last, rfl, hask, hlast⟩ := Program.runs_bind_ok_iff.mp hrest
    obtain ⟨rfl, hd⟩ := Program.runs_done_iff.mp hlast
    cases hd
    obtain ⟨reply, v, rfl, hv⟩ := Program.runs_call_iff.mp hask
    obtain ⟨rfl, hd⟩ := Program.runs_done_iff.mp hv
    cases hd
    exact ⟨attempts, listening, .ok (), os, by simp [asking], hatt, rfl,
      fun e he => absurd he (by simp)⟩

/-! ## What the processing chain does with the listeners -/

/-- **What a processing chain does with the listeners**, through these
moves and these exchanges, where the dispatch is told these outcomes. -/
inductive Processed (B : Behaviours β σ) (s : DispatchSettings) (b : Beginning β)
    (moves : ChainHistory DispatchResult) (os : List Outcome) :
    List (Attempt β σ) → HubTrace β σ → Prop
  /-- The chain does not lead to the listeners; only interceptors act. -/
  | skipped {t : HubTrace β σ} : .enter b.processing.length ∉ moves → (∀ x ∈ t, ByUser x) →
      Processed B s b moves os [] t
  /-- The chain leads to the listeners, which are attended to; before that
  and after it interceptors act. An error of a listener is what they are
  left with, and otherwise the outcomes. -/
  | attended {attempts : List (Attempt β σ)} {before listening after : HubTrace β σ}
      {ended : Except DispatchError Unit} : .enter b.processing.length ∈ moves →
      (∀ x ∈ before, ByUser x) → Attended B s b.context b.targets attempts listening ended →
      .leave b.processing.length (ended.map fun _ => .ofOutcomes os) ∈ moves →
      (∀ x ∈ after, ByUser x) →
      Processed B s b moves os attempts
        (before ++ (listening ++ asking b.context os ended) ++ after)

variable {moves : ChainHistory DispatchResult} {os : List Outcome} {attempts : List (Attempt β σ)}
  {t : HubTrace β σ}

/-- A processing chain writes what its attempts write. -/
theorem Processed.writes (h : Processed B s b moves os attempts t) :
    t.writes = attempts.flatMap (·.records b.context) := by
  cases h with
  | skipped _ hskip => exact writes_eq_nil fun x hx => (hskip x hx).silent
  | attended _ hbefore hatt _ hafter =>
    rw [HubTrace.writes_append, HubTrace.writes_append, HubTrace.writes_append,
      writes_eq_nil fun x hx => (hbefore x hx).silent,
      writes_eq_nil fun x hx => (hafter x hx).silent, writes_eq_nil asking_silent,
      hatt.exchanges, writes_of_attempts hatt.made, List.nil_append, List.append_nil,
      List.append_nil]

/-- **A run of a processing chain** attends to the listeners or skips
them. In a hub it is told the outcomes of its attempts, and has written
them at its end. -/
theorem processed_of_runs {out : Except DispatchError (DispatchResult × Bool)}
    (hrun : (runChainNoted lift (listenersStage B s b)
      (processingStages B b.context b.processing)).Runs t (.ok (moves, out))) :
    ∃ attempts os, Processed B s b moves os attempts t ∧
      ∀ h h' : Hub β σ, Hub.Through b.context.index h t h' →
        h.written b.context.index = some ([], false) →
        os = attempts.filterMap (·.outcome?) ∧ h'.written b.context.index =
          some (attempts.filterMap (·.outcome?), attempts.any (·.truncates)) := by
  have hquiet : ∀ {t : HubTrace β σ}, (∀ x ∈ t, ByUser x) →
      ∀ x ∈ t, x.call.target? ≠ some b.context.index :=
    fun ht => silentTo_of_silent (fun x hx => (ht x hx).silent) _
  have hsplit := runChainNoted_split only_lift hrun
  rw [processingStages, List.length_map] at hsplit
  -- the end of the processing chain has run once or not at all
  rcases hsplit with ⟨hent, hskip⟩ |
    ⟨before, middle, after, given, rfl, hstage, hbefore, hafter, hent, hleave⟩
  · refine ⟨[], [], .skipped hent hskip, fun h h' ht hw => ⟨rfl, ?_⟩⟩
    exact Hub.spares_of_through (hquiet hskip) ht _ hw
  · obtain ⟨attempts, listening, ended, os, rfl, hatt, rfl, herror⟩ := listenersStage_runs hstage
    refine ⟨attempts, os, .attended hent hbefore hatt hleave hafter, fun h h' ht hw => ?_⟩
    obtain ⟨h₄, ht, htafter⟩ := Hub.through_append_iff.mp ht
    obtain ⟨h₁, htbefore, ht⟩ := Hub.through_append_iff.mp ht
    obtain ⟨h₂, htlisten, htask⟩ := Hub.through_append_iff.mp ht
    have hw₁ : h₁.written b.context.index = some ([], false) :=
      Hub.spares_of_through (hquiet hbefore) htbefore _ hw
    have hw₂ : h₂.written b.context.index =
        some (attempts.filterMap (·.outcome?), attempts.any (·.truncates)) := by
      rw [hatt.exchanges] at htlisten
      simpa using written_of_attempts hatt.made htlisten hw₁
    have hw₄ : h₄.written b.context.index =
        some (attempts.filterMap (·.outcome?), attempts.any (·.truncates)) :=
      Hub.spares_of_through (silentTo_of_silent asking_silent _) htask _ hw₂
    refine ⟨?_, Hub.spares_of_through (hquiet hafter) htafter _ hw₄⟩
    cases ended with
    | error e => exact herror e rfl
    | ok u => exact Hub.reply_of_through_outcomes htask hw₂

/-! ## The whole dispatch -/

/-- **A dispatch from its beginning to its end**, whatever the
interceptors, filters and handlers do. -/
structure Dispatched (B : Behaviours β σ) (s : DispatchSettings) (b : Beginning β)
    (t : HubTrace β σ) (out : Except DispatchError DispatchResult) (opening chain : HubTrace β σ)
    (moves : ChainHistory DispatchResult) (os : List Outcome) (attempts : List (Attempt β σ))
    (result : Except DispatchError DispatchResult) (stopped : Bool) : Prop where
  split : t = opening ++ chain
  /-- Sessions are offered the event. -/
  sessions : (resumeSessions B b.context).Runs opening (.ok ())
  /-- Then the processing chain runs, with these moves. -/
  runs : (runChainNoted lift (listenersStage B s b)
    (processingStages B b.context b.processing)).Runs chain (.ok (moves, result.map (·, stopped)))
  processed : Processed B s b moves os attempts chain
  /-- What is written is what is recorded after the attempts, in their
  order, and nothing else. -/
  writes : t.writes = attempts.flatMap (·.records b.context)
  /-- The result is the one that the first place of the chain was left with. -/
  outermost : moves.getLast? = some (.leave 0 result)
  /-- It is marked if some stage has stopped the chain. -/
  returned : out = result.map (·.ofChain stopped)
  stopped_iff : stopped = true ↔ ∃ i < b.processing.length, moves.StoppedBy i

/-- **A hub has recorded attempts**, and has told the dispatch so when it
asked: their outcomes, and that it has ended for later listeners exactly if
one of the attempts says so. -/
structure Recorded (h : Hub β σ) (c : EventContext) (os : List Outcome)
    (attempts : List (Attempt β σ)) : Prop where
  told : os = attempts.filterMap (·.outcome?)
  outcomes : (h.dispatchState c).outcomes = attempts.filterMap (·.outcome?)
  truncated : (h.dispatchState c).truncated = attempts.any (·.truncates)

/-- A run of a dispatch, and what it leaves in a hub where nobody else
writes to it. -/
theorem dispatched_of_runs {e : Event} {out : Except DispatchError DispatchResult}
    (hrun : (dispatch B s e).Runs (⟨.start e, b⟩ :: t) (.ok out)) :
    ∃ opening chain moves os attempts result stopped,
      Dispatched B s b t out opening chain moves os attempts result stopped ∧
      ∀ h h' : Hub β σ, (h.start e).1 = b → Hub.Through b.context.index (h.start e).2 t h' →
        Recorded h' b.context os attempts := by
  obtain ⟨b', u, hu, hrest⟩ := Program.runs_call_iff.mp hrun
  cases hu
  obtain ⟨⟨⟩, opening, v, rfl, hopening, hv⟩ := Program.runs_bind_ok_iff.mp hrest
  obtain ⟨r, chain, w, rfl, hchain, hw⟩ := Program.runs_bind_ok_iff.mp hv
  obtain ⟨rfl, hd⟩ := Program.runs_done_iff.mp hw
  rw [← runChainNoted_forget] at hchain
  obtain ⟨⟨moves, out'⟩, chain, w, rfl, hnoted, hw⟩ := Program.runs_bind_ok_iff.mp hchain
  obtain ⟨rfl, hd'⟩ := Program.runs_done_iff.mp hw
  cases hd'
  cases hd
  rw [List.append_nil, List.append_nil]
  have hsilent : ∀ x ∈ opening, Silent x := (only_resumeSessions B b.context).of_runs hopening
  obtain ⟨attempts, os, hprocessed, hhub⟩ := processed_of_runs hnoted
  obtain ⟨result, stopped, rfl, hleft⟩ := left_of_runChainNoted hnoted
  obtain ⟨past, hpast⟩ := hleft.left
  refine ⟨opening, chain, moves, os, attempts, result, stopped,
    ⟨rfl, hopening, hnoted, hprocessed, ?_, ?_, ?_, ?_⟩, fun h h' hb ht => ?_⟩
  · rw [HubTrace.writes_append, writes_eq_nil hsilent, hprocessed.writes, List.nil_append]
  · rw [hpast, List.getLast?_concat]
  · cases result with
    | error e => rfl
    | ok r => rfl
  · have hiff := hleft.stopped_iff
    unfold ChainHistory.Stopped at hiff
    rwa [List.length_map, processingStages, List.length_map] at hiff
  · obtain ⟨h₁, htopening, htchain⟩ := Hub.through_append_iff.mp ht
    have hstart : (h.start e).2.written b.context.index = some ([], false) := by
      rw [← hb]
      exact h.written_start e
    have hw₁ : h₁.written b.context.index = some ([], false) :=
      Hub.spares_of_through (silentTo_of_silent hsilent _) htopening _ hstart
    obtain ⟨hos, hwritten⟩ := hhub h₁ h' htchain hw₁
    obtain ⟨houtcomes, htruncated⟩ := Hub.dispatchState_of_written hwritten
    exact ⟨hos, houtcomes, htruncated⟩

/-- **What a dispatch does with its listeners.** Every run of a dispatch,
in whatever surroundings, makes attempts and writes what is recorded after
them. And where the scheduler runs a dispatch, with tasks and inner
dispatches in between, what the hub has recorded at the end are the
outcomes of these attempts. -/
theorem dispatch_attends (B : Behaviours β σ) (s : DispatchSettings) (e : Event) :
    (∀ b t out, (dispatch B s e).Runs (⟨.start e, b⟩ :: t) (.ok out) →
      ∃ opening chain moves os attempts result stopped,
        Dispatched B s b t out opening chain moves os attempts result stopped) ∧
      ∀ hub (m m' : Scheduler β σ) patience out, Scheduler.Reached hub m → m.hub.settings = s →
        m.dispatch B patience e = (some (.ok out), m') →
        ∃ t opening chain moves os attempts result stopped,
          Dispatched B s (m.hub.start e).1 t out opening chain moves os attempts result stopped ∧
            Recorded m'.hub (m.hub.start e).1.context os attempts := by
  constructor
  · intro b t out hrun
    obtain ⟨opening, chain, moves, os, attempts, result, stopped, hall, -⟩ :=
      dispatched_of_runs hrun
    exact ⟨opening, chain, moves, os, attempts, result, stopped, hall⟩
  · rintro hub m m' patience out hm rfl hrun
    obtain ⟨t, hruns, ht⟩ := Scheduler.through_of_dispatch hm hrun
    obtain ⟨opening, chain, moves, os, attempts, result, stopped, hall, hhub⟩ :=
      dispatched_of_runs hruns
    exact ⟨t, opening, chain, moves, os, attempts, result, stopped, hall,
      hhub m.hub m'.hub rfl ht⟩

/-- Code that is named by what it returns. -/
def Behaviours.returning : Behaviours Returned Unit where
  filter _ _ := .done true
  matcher _ _ := .done false
  handler r _ := .done r
  listenerInterceptor _ _ := .call .proceed .done
  processingInterceptor _ _ := .call .proceed .done
  onFailure := none

/-- A listener for all events, named by what its handler returns. -/
def ResolvedListener.returning (id : Int) (r : Returned) : ResolvedListener Returned :=
  ⟨⟨.ofInt id, .any, .normal, .blocking, [], [], ⟨[], r⟩⟩, 0, [], []⟩

/-- Four listeners – the first handles nothing, the third ends the
dispatch – and an interceptor that proceeds. -/
def Hub.returning : Hub Returned Unit :=
  .fresh ⟨⟨[.returning 1 .absent, .returning 2 .nothing, .returning 3 (.result .truncate),
    .returning 4 .nothing], [⟨.ofInt 5, .normal, 0, .nothing⟩], [], []⟩, 1⟩ .default ()

/-- An event without anything. -/
def Event.bare : Event := ⟨.any, "", none, none, .null⟩

/-- What the second and the third listener return. -/
def Outcome.returned : List Outcome := [⟨.ofInt 2, .empty⟩, ⟨.ofInt 3, .truncate⟩]

/-- Of the four listeners the second and the third have outcomes, and the
fourth is not attended to. -/
theorem dispatch_attends_returning :
    ∃ m', (Scheduler.fresh Hub.returning).dispatch .returning none .bare
        = (some (.ok (.ok (.ofOutcomes Outcome.returned))), m') ∧
      ∃ attempts : List (Attempt Returned Unit),
        attempts.filterMap (·.outcome?) = Outcome.returned ∧
          attempts.any (·.truncates) = true := by
  refine ⟨_, rfl, ?_⟩
  obtain ⟨-, hscheduler⟩ := dispatch_attends Behaviours.returning .default .bare
  obtain ⟨_, _, _, _, _, attempts, _, _, -, hrecorded⟩ :=
    hscheduler _ (.fresh Hub.returning) _ none _ .fresh rfl rfl
  exact ⟨attempts, hrecorded.outcomes.symm, hrecorded.truncated.symm⟩

end Switchboard
