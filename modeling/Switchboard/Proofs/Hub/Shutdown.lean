import Switchboard.Proofs.Dispatch.Outcomes
import Switchboard.Proofs.Hub.Enrolment
import Switchboard.Proofs.Hub.Threads

/-!
# Shutting a hub down

To shut a hub down is to empty its registry, to close its sessions, and to
wait until no started handler is unfinished. These are three calls, and other
threads go on in between and while the wait goes on. They may open sessions,
register listeners, dispatch events and start more handlers.

Who takes part in a dispatch that begins was registered since the registry was
emptied (`Run.enrolled`), and a session that was closed is closed for good, for
nobody is given its identifier again (`Run.gone`). When the wait is over, all
handles have results, for a handle without one has a task (`Step.finished`).

No lock is held for more than one of the calls. So a dispatch on another thread can
come in between the first two, and resume a session that was pending when shutting
down was begun.
-/

namespace Switchboard

variable {β σ α : Type}

open HubProgram

namespace History

/-- Somebody who waits for a session is told this. -/
def Told (x : History β σ) (s : Id) (r : Except SessionError Event) : Prop :=
  ∃ i timeout, (i, .made ⟨.user (.wait (.session s timeout)), r⟩) ∈ x

/-- What is seen is seen on some thread. -/
theorem mem_own {x : History β σ} {i : Nat} {o : Occurrence β σ} (h : (i, o) ∈ x) : o ∈ x.own i :=
  List.mem_filterMap.mpr ⟨(i, o), h, if_pos rfl⟩

end History

namespace Hub

variable {h h' : Hub β σ} {o : Option (Occurrence β σ)}

/-- A session that has received an event had received it before, or it is
delivered to it. -/
theorem Takes.of_mem_received (ht : h.Takes o h') {s : Id} {e : Event}
    (hmem : (s, e) ∈ h'.sessions.received) :
    (s, e) ∈ h.sessions.received ∨ o = some (.made ⟨.deliver s e, ()⟩) := by
  rw [ht.sessions.received] at hmem
  cases o with
  | none => exact .inl hmem
  | some o =>
    cases hd : o.deed? with
    | none =>
      simp only [Option.bind_some, hd] at hmem
      exact .inl hmem
    | some d =>
      simp only [Option.bind_some, hd] at hmem
      refine (Sessions.of_mem_received_apply hmem).imp_right ?_
      rintro rfl
      cases Occurrence.does_of_deed? hd
      rfl

/-- What a registry holds was registered before, or by what is seen. -/
theorem Takes.enrolled (ht : h.Takes o h') {past : HubTrace β σ}
    (he : h.registry.Enrolled past) :
    h'.registry.Enrolled (past ++ (o.bind (·.exchange?)).toList) := by
  cases ht with
  | served hs hh =>
    rw [hh.registry]
    exact he.serve hs
  | unserved _ hr _ _ =>
    rw [hr]
    exact he.append _

end Hub

namespace Threads

variable {B : Behaviours β σ} {T T' T₁ T₂ : Threads β σ α} {x y z : History β σ} {s : Id}

/-! ## Sessions -/

/-- **Sessions that are opened have identifiers that are drawn then.** -/
theorem Run.opening (h : Run B T x T') {w : Waiter β} (hw : w ∈ openings x.deeds) :
    ∃ k, T.shared.hub.drawn ≤ k ∧ k < T'.shared.hub.drawn ∧ w.id = Id.ofEntropy k := by
  induction h with
  | refl => exact absurd hw List.not_mem_nil
  | @step x y T₁ T₂ hrun hstep ih =>
    obtain ⟨i, o, rfl, ht⟩ := hstep.takes
    rw [History.deeds_append, History.deeds_on, openings, List.filterMap_append] at hw
    rcases List.mem_append.mp hw with hw | hw
    · obtain ⟨k, hle, hlt, hid⟩ := ih hw
      exact ⟨k, hle, Nat.lt_of_lt_of_le hlt ht.drawn_le, hid⟩
    · obtain ⟨d, hd, hw⟩ := List.mem_filterMap.mp hw
      obtain ⟨hid, hlt⟩ := ht.opening (Option.mem_toList.mp hd) hw
      exact ⟨_, hrun.drawn_le, hlt, hid⟩

/-- **Sessions stay among some identifiers**, if those are that are opened. -/
theorem Run.within {K : Id → Prop} (h : Run B T x T') (hs : T.shared.hub.sessions.Within K)
    (hopen : ∀ w ∈ openings x.deeds, K w.id) : T'.shared.hub.sessions.Within K := by
  induction h with
  | refl => exact hs
  | step _ hstep ih =>
    obtain ⟨i, o, rfl, ht⟩ := hstep.takes
    rw [History.deeds_append, History.deeds_on, openings, List.filterMap_append] at hopen
    refine ((ih fun w hw => hopen w (List.mem_append_left _ hw)).applyAll fun w hw => ?_).congr
      ht.sessions
    exact hopen w (List.mem_append_right _ hw)

/-- All sessions have identifiers that were drawn. -/
theorem Run.within_drawn {registry : Registry β} {settings : DispatchSettings} {memory : σ}
    (h : Run B (fresh (.fresh registry settings memory)) x T) :
    T.shared.hub.sessions.Within T.shared.Drawn := by
  refine h.within ⟨fun _ hw => absurd hw List.not_mem_nil, fun _ hx => absurd hx List.not_mem_nil⟩
    fun w hw => ?_
  obtain ⟨k, -, hlt, hid⟩ := h.opening hw
  exact ⟨k, hlt, hid⟩

/-- **A session that is gone is gone for good**, as long as there are enough
identifiers for the sessions that are opened later. -/
theorem Run.gone (h : Run B T x T') (hgone : T.shared.hub.sessions.Within (· ≠ s))
    (hs : T.shared.Drawn s) (hroom : T'.shared.hub.drawn ≤ Number.twoTo 122) :
    T'.shared.hub.sessions.Within (· ≠ s) := by
  refine h.within hgone fun w hw => ?_
  obtain ⟨k, hle, hlt, hid⟩ := h.opening hw
  exact hid ▸ hs.draws hroom k hle hlt

/-- Events that sessions have received were delivered to them. -/
theorem Run.of_mem_received (h : Run B T x T') {e : Event}
    (hmem : (s, e) ∈ T'.shared.hub.sessions.received) :
    (s, e) ∈ T.shared.hub.sessions.received ∨ ∃ i, (i, .made ⟨.deliver s e, ()⟩) ∈ x := by
  induction h with
  | refl => exact .inl hmem
  | step _ hstep ih =>
    obtain ⟨i, o, rfl, ht⟩ := hstep.takes
    rcases ht.of_mem_received hmem with hmem | rfl
    · exact (ih hmem).imp_right fun ⟨j, hj⟩ => ⟨j, List.mem_append_left _ hj⟩
    · exact .inr ⟨i, List.mem_append_right _ (List.mem_singleton.mpr rfl)⟩

/-- What sessions have received they have received for good. -/
theorem Run.keeps_received (h : Run B T x T') :
    T.shared.hub.sessions.received <+: T'.shared.hub.sessions.received := by
  induction h with
  | refl => exact List.prefix_refl _
  | step _ hstep ih =>
    obtain ⟨i, o, -, ht⟩ := hstep.takes
    rw [ht.sessions.received]
    exact ih.trans (Sessions.received_applyAll _ _)

/-- **A wait for a session that has received nothing** was told that the session
was closed, or that the time was up. -/
theorem Run.told_nothing {r : Except SessionError Event} (h : Run B T x T') (hr : x.Told s r)
    (hs : ∀ a ∈ T'.shared.hub.sessions.received, a.1 ≠ s) :
    r = .error (.closed s) ∨ ∃ ms, r = .error (.timedOut s ms) := by
  obtain ⟨i, timeout, hmem⟩ := hr
  obtain ⟨y, z, rfl⟩ := List.append_of_mem hmem
  obtain ⟨T₁, T₂, -, hstep, hrest⟩ := h.occurs rfl
  obtain ⟨deadline, m', hreply⟩ := hstep.of_waited (by simp)
  cases Scheduler.replies_of_reply? hreply with
  | received he =>
    have hkept := Sessions.status_of_kept he (hstep.run.trans hrest).keeps_received
    rcases T'.shared.hub.sessions.status_cases s with ⟨e', hmem, -⟩ | ⟨-, ⟨-, hw⟩ | ⟨-, hc⟩⟩
    · exact absurd rfl (hs _ hmem)
    · exact absurd (hw.symm.trans hkept) (by simp)
    · exact absurd (hc.symm.trans hkept) (by simp)
  | closed _ => exact .inl rfl
  | timedOut _ _ => exact .inr ⟨_, rfl⟩

/-- **A session is closed for good**: whatever threads do, whoever waits for it
is told so, be the time up or not. The room is for the identifiers of sessions,
which would be given out a second time beyond it. -/
def Closed (B : Behaviours β σ) (T : Threads β σ α) (s : Id) : Prop :=
  ∀ (x : History β σ) (T' : Threads β σ α), Run B T x T' →
    T'.shared.hub.drawn ≤ Number.twoTo 122 →
    (∀ r, x.Told s r → r = .error (.closed s)) ∧
    ∀ deadline timeout,
      T'.shared.reply? deadline (.session s timeout) = some (.error (.closed s), T'.shared)

/-- A session that is gone is closed for good. -/
theorem closed_of_gone (hgone : T.shared.hub.sessions.Within (· ≠ s)) (hs : T.shared.Drawn s) :
    T.Closed B s := by
  intro x T' h hroom
  refine ⟨?_, Scheduler.reply?_of_gone (h.gone hgone hs hroom)⟩
  rintro r ⟨i, timeout, hmem⟩
  obtain ⟨y, z, rfl⟩ := List.append_of_mem hmem
  obtain ⟨T₁, T₂, hfirst, hstep, hrest⟩ := h.occurs rfl
  have hroom₁ : T₁.shared.hub.drawn ≤ Number.twoTo 122 :=
    Nat.le_trans (hstep.run.trans hrest).drawn_le hroom
  obtain ⟨deadline, m', hr⟩ := hstep.of_waited (by simp)
  rw [Scheduler.reply?_of_gone (hfirst.gone hgone hs hroom₁)] at hr
  exact (Prod.mk.inj (Option.some.inj hr)).1.symm

/-- **Closing the sessions** closes those for good that have received nothing. -/
theorem Step.closed {i : Nat}
    (h : Step B T [(i, .made ⟨.user (.request .clearSessions), ()⟩)] T')
    (hs : ∀ a ∈ T.shared.hub.sessions.received, a.1 ≠ s) (hdrawn : T.shared.Drawn s) :
    T'.Closed B s := by
  obtain ⟨j, o, hx, ht⟩ := h.takes
  obtain ⟨rfl, rfl⟩ := History.on_eq_singleton_iff.mp hx.symm
  have hsessions : T.shared.hub.sessions.clear.Agree T'.shared.hub.sessions := ht.sessions
  obtain ⟨k, hk, hid⟩ := hdrawn
  have hcleared : T.shared.hub.sessions.clear.Within (· ≠ s) :=
    ⟨fun _ hw => absurd hw List.not_mem_nil, hs⟩
  exact closed_of_gone (hcleared.congr hsessions) ⟨k, Nat.lt_of_lt_of_le hk ht.drawn_le, hid⟩

/-- **A session that is pending some time before the sessions are closed** has been
resumed by then, or is closed for good. -/
theorem Run.resumed_or_closed {i : Nat} (hbefore : Run B T₁ x T)
    (hstep : Step B T [(i, .made ⟨.user (.request .clearSessions), ()⟩)] T')
    (hafter : Run B T' y T₂) (hwaiting : T₁.shared.hub.sessions.status s = .waiting)
    (hdrawn : T₁.shared.Drawn s) (hroom : T₂.shared.hub.drawn ≤ Number.twoTo 122) :
    (∃ j e, (j, .made ⟨.deliver s e, ()⟩) ∈ x ∧ T₂.shared.hub.sessions.status s = .received e) ∨
      (∀ r, x.Told s r → r = .error (.closed s) ∨ ∃ ms, r = .error (.timedOut s ms)) ∧
        (∀ r, y.Told s r → r = .error (.closed s)) ∧ T₂.Closed B s := by
  rcases T.shared.hub.sessions.status_cases s with ⟨e, hmem, hreceived⟩ | ⟨hnone, -⟩
  · have hnone := (Sessions.status_eq_waiting_iff.mp hwaiting).1
    obtain ⟨j, hj⟩ := (hbefore.of_mem_received hmem).resolve_left fun h => hnone _ h rfl
    exact .inl ⟨j, e, hj,
      Sessions.status_of_kept hreceived (hstep.run.trans hafter).keeps_received⟩
  · obtain ⟨k, hk, hid⟩ := hdrawn
    have hclosed := hstep.closed hnone ⟨k, Nat.lt_of_lt_of_le hk hbefore.drawn_le, hid⟩
    refine .inr ⟨fun r hr => hbefore.told_nothing hr hnone, (hclosed _ _ hafter hroom).1,
      fun z T₃ hz hroom₃ => ?_⟩
    obtain ⟨htold, hreply⟩ := hclosed _ _ (hafter.trans hz) hroom₃
    exact ⟨fun r ⟨j, timeout, hr⟩ => htold r ⟨j, timeout, List.mem_append_right _ hr⟩, hreply⟩

/-! ## Registries -/

/-- **What a registry holds later** was registered on the way, or before. -/
theorem Run.enrolled (h : Run B T x T') {past : HubTrace β σ}
    (he : T.shared.hub.registry.Enrolled past) :
    T'.shared.hub.registry.Enrolled (past ++ x.exchanges) := by
  induction h with
  | refl => exact he.append _
  | step _ hstep ih =>
    obtain ⟨i, o, rfl, ht⟩ := hstep.takes
    rw [History.exchanges_append, History.exchanges_on, ← List.append_assoc]
    exact ht.enrolled ih

/-- **Whoever takes part in a dispatch that begins** after the registry was
emptied was registered in between. -/
theorem Run.enrolled_of_start (h : Run B T x T')
    (hr : T.shared.hub.registry.Enrolled ([] : HubTrace β σ)) {j : Nat} {e : Event}
    {b : Beginning β} (hx : x = y ++ (j, .made ⟨.start e, b⟩) :: z) :
    b.Enrolled y.exchanges := by
  obtain ⟨T₁, T₂, hfirst, hstep, -⟩ := h.occurs hx
  obtain ⟨-, -, hb, -⟩ := hstep.of_served (by simp)
  cases hb
  exact Registry.enrolled_start (hfirst.enrolled hr) e

/-- Emptying a registry leaves nothing in it. -/
theorem Step.emptied {i : Nat}
    (h : Step B T [(i, .made ⟨.user (.request .clearRegistry), ()⟩)] T') :
    T'.shared.hub.registry.Enrolled ([] : HubTrace β σ) := by
  obtain ⟨j, o, hx, ht⟩ := h.takes
  obtain ⟨rfl, rfl⟩ := History.on_eq_singleton_iff.mp hx.symm
  cases ht with
  | served hs hh =>
    rw [hh.registry, Hub.registry_of_serve hs]
    exact Registry.enrolled_clear _
  | unserved ho _ _ _ => cases ho

/-! ## Handlers -/

/-- **From now on whoever waits for a handle is given this result** at once. -/
def Yields (B : Behaviours β σ) (T : Threads β σ α) (a : Handle) (w : EventResult) : Prop :=
  ∀ (x : History β σ) (T' : Threads β σ α), Run B T x T' → ∀ deadline,
    ∃ m', T'.shared.reply? deadline (.handle a) = some (w, m')

/-- When nothing is there to wait for, no task is unfinished. -/
theorem Step.finished {i : Nat} (h : Step B T [(i, .made ⟨.user (.wait .idle), ()⟩)] T') :
    T.shared.tasks = [] := by
  obtain ⟨deadline, m', hr⟩ := h.of_waited (by simp)
  cases Scheduler.replies_of_reply? hr with
  | idle hempty => exact hempty

/-- Threads to which nothing has happened are tidy. -/
theorem tidy_fresh (hub : Hub β σ) : (fresh hub : Threads β σ α).Lasts Scheduler.Tidy :=
  ⟨Scheduler.tidy_fresh hub, fun _ => Scheduler.tidy_fresh hub⟩

/-- **Where no task is unfinished**, every handler that was started has a result
that its program can end in, and yields it from then on. -/
theorem Run.yields {hub : Hub β σ} (h : Run B (fresh hub) x T) (hidle : T.shared.tasks = [])
    {job : Job β} {a : Handle} (hx : ⟨.spawn job, a⟩ ∈ x.exchanges) (hy : Run B T y T') :
    ∃ w, job.CanGive B hub.settings w ∧ T'.Yields B a w := by
  have hpromised := (h.promised_of_mem (tidy_fresh hub) hx).1
  cases hw : T.shared.hub.handles.result? a with
  | none =>
    obtain ⟨k, hk, -⟩ := hpromised.owed hw
    exact absurd (hidle ▸ hk) List.not_mem_nil
  | some w =>
    refine ⟨w, hpromised.kept w hw, fun z T'' hz deadline => ?_⟩
    rw [Scheduler.reply?, (hy.trans hz).result hw]
    exact ⟨_, rfl⟩

/-! ## Threads that have turns -/

/-- Whether a thread may make its next call. -/
def permits (T : Threads β σ α) (i : Nat) : Bool :=
  (T.thread i).call?.all fun c => !c.needsSessions || T.holder.all (· == i)

theorem permits_iff {i : Nat} : T.permits i = true ↔ T.Permits i (T.thread i).call? := by
  unfold permits Permits
  cases (T.thread i).call? with
  | none => simp
  | some c =>
    cases hneeds : c.needsSessions with
    | false => simp [hneeds]
    | true => cases T.holder <;> simp [hneeds]

/-- **Threads have turns in this order.** Who may not make its next call lets its
turn pass. -/
def turns (B : Behaviours β σ) : List Nat → Threads β σ α → History β σ × Threads β σ α
  | [], T => ([], T)
  | i :: is, T =>
    if T.permits i then
      let (y, T') := turns B is (T.acted B i)
      (.on i (((T.thread i).exchange? T.shared).map .made) ++ y, T')
    else turns B is T

/-- To have turns is to take steps. -/
theorem run_turns (B : Behaviours β σ) (is : List Nat) (T : Threads β σ α) :
    Run B T (T.turns B is).1 (T.turns B is).2 := by
  induction is generalizing T with
  | nil => exact .refl
  | cons i is ih =>
    unfold turns
    split
    · next hp => exact (Step.acts i (permits_iff.mp hp)).run.trans (ih _)
    · exact ih T

/-- A caller begins with a program, and threads have turns. -/
theorem Run.of_idle {i : Nat} {p : HubProgram β σ α} (hi : T.thread i = .idle) (hp : p.Calm B)
    (is : List Nat) :
    Run B T ((T.set i T.shared (.runs p)).turns B is).1
      ((T.set i T.shared (.runs p)).turns B is).2 :=
  (Step.begins i hi hp).run.trans (run_turns B is _)

/-! ## Shutting down -/

/-- To shut down is to make three calls. -/
theorem runs_shutdown_iff {t : HubTrace β σ} {r : Except Payload Unit} :
    (Scheduler.shutdown : HubProgram β σ Unit).Runs t r ↔
      t = [⟨.user (.request .clearRegistry), ()⟩, ⟨.user (.request .clearSessions), ()⟩,
        ⟨.user (.wait .idle), ()⟩] ∧ r = .ok () := by
  constructor
  · intro h
    cases h with
    | call h =>
      cases h with
      | call h =>
        cases h with
        | call h =>
          obtain ⟨rfl, rfl⟩ := Program.runs_done_iff.mp h
          exact ⟨rfl, rfl⟩
  · rintro ⟨rfl, rfl⟩
    exact .call (.call (.call (.done ())))

theorem calm_shutdown (B : Behaviours β σ) : (Scheduler.shutdown : HubProgram β σ Unit).Calm B :=
  Program.calm_ofUser (.call (.request .clearRegistry) fun _ =>
    .call (.request .clearSessions) fun _ => .call (.wait .idle) .done)

/-- **Shutting a hub down.** Take threads that share a hub to which nothing had
happened. Whatever they have done, one of them makes the calls of shutting down,
while the others go on.

Every handler that was started before the wait is over has a result that its
program can end in, and yields it from then on. A session that was pending at
the beginning is closed for good when the sessions are closed, unless another
thread has resumed it before that. Until then, whoever waits for it can only be
told that it was closed or that the time is up. And who takes part in a dispatch
that begins after the registry was emptied was registered since. -/
theorem shutdown_complete {registry : Registry β} {settings : DispatchSettings} {memory : σ}
    {i : Nat} {t : HubTrace β σ}
    (hx : Run B (fresh (.fresh registry settings memory)) x T₁) (hy : Run B T₁ y T₂)
    (hshutdown : Scheduler.shutdown.Runs t (.ok ())) (hown : y.own i = t.map .made) :
    (∀ {before after : History β σ} {job a},
      y = before ++ (i, .made ⟨.user (.wait .idle), ()⟩) :: after →
      ⟨.spawn job, a⟩ ∈ History.exchanges (x ++ before) →
      ∃ w, job.CanGive B settings w ∧ T₂.Yields B a w) ∧
    (∀ {before after : History β σ} {s},
      y = before ++ (i, .made ⟨.user (.request .clearSessions), ()⟩) :: after →
      T₁.shared.hub.sessions.status s = .waiting → T₂.shared.hub.drawn ≤ Number.twoTo 122 →
      (∃ j e, j ≠ i ∧ (j, .made ⟨.deliver s e, ()⟩) ∈ before ∧
          T₂.shared.hub.sessions.status s = .received e) ∨
        (∀ r, before.Told s r → r = .error (.closed s) ∨ ∃ ms, r = .error (.timedOut s ms)) ∧
          (∀ r, after.Told s r → r = .error (.closed s)) ∧ T₂.Closed B s) ∧
    ∀ {before between after z : History β σ} {T₃ j e b}, Run B T₂ z T₃ →
      y ++ z = before ++ (i, .made ⟨.user (.request .clearRegistry), ()⟩) ::
        (between ++ (j, .made ⟨.start e, b⟩) :: after) →
      b.Enrolled between.exchanges := by
  obtain ⟨rfl, -⟩ := runs_shutdown_iff.mp hshutdown
  refine ⟨fun hwait hspawn => ?_, fun {before after s} hclose hwaiting hroom => ?_,
    fun hz hstart => ?_⟩
  · obtain ⟨T, T', hbefore, hstep, hafter⟩ := hy.occurs hwait
    exact (hx.trans hbefore).yields hstep.finished hspawn (hstep.run.trans hafter)
  · obtain ⟨T, T', hbefore, hstep, hafter⟩ := hy.occurs hclose
    have hdrawn : T₁.shared.Drawn s := by
      obtain ⟨w, hw, rfl⟩ := (Sessions.status_eq_waiting_iff.mp hwaiting).2
      exact hx.within_drawn.waiters w hw
    refine (hbefore.resumed_or_closed hstep hafter hwaiting hdrawn hroom).imp_left ?_
    rintro ⟨j, e, hj, hreceived⟩
    refine ⟨j, e, ?_, hj, hreceived⟩
    rintro rfl
    -- the thread that shuts down delivers nothing
    have hdeliver : .made ⟨.deliver s e, ()⟩ ∈ y.own j := by
      rw [hclose, History.own_append]
      exact List.mem_append_left _ (History.mem_own hj)
    rw [hown] at hdeliver
    obtain ⟨a, ha, he⟩ := List.mem_map.mp hdeliver
    have hcall := congrArg Exchange.call (Occurrence.made.inj he)
    simp only [List.mem_cons, List.not_mem_nil, or_false] at ha
    rcases ha with rfl | rfl | rfl <;> exact absurd hcall (by simp)
  · obtain ⟨T, T', -, hstep, hrest⟩ := (hy.trans hz).occurs hstart
    exact hrest.enrolled_of_start hstep.emptied rfl

end Threads

/-- Code that lets a session say whether it accepts an event. Handlers wait for
the first session before they return a text. -/
def Behaviours.expectant : Behaviours Bool Unit where
  filter _ _ := .done true
  matcher accepts _ := .done accepts
  handler _ _ := .call (.wait (.session (Id.ofEntropy 0) none)) fun _ => .done (.text "hi")
  listenerInterceptor _ _ := .call .proceed .done
  processingInterceptor _ _ := .call .proceed .done
  onFailure := none

/-- Dispatches an event and opens a session that accepts none. -/
def Program.engaging : Program (userCalls Bool Unit) Unit :=
  .call (.dispatch .bare) fun _ => .call (.request (.openSession false false)) fun _ => .done ()

/-- Opens two sessions that accept all events and dispatches one. -/
def Program.luring : Program (userCalls Bool Unit) Unit :=
  .call (.request (.openSession false true)) fun _ =>
    .call (.request (.openSession false true)) fun _ => .call (.dispatch .bare) fun _ => .done ()

/-- Does not wait long for the second session. -/
def Program.hasty : Program (userCalls Bool Unit) Unit :=
  .call (.wait (.session (Id.ofEntropy 1) (some ⟨0, none⟩))) fun _ => .done ()

namespace Threads

/-- Threads whose hub has a listener with a handler. -/
def expectant : Threads Bool Unit Unit :=
  fresh (.fresh ⟨⟨[⟨⟨.ofInt 1, .any, .normal, .async, [], [], ⟨[], true⟩⟩, 0, [], []⟩], [], [], []⟩,
    1⟩ .default ())

/-- One of them dispatches an event and opens a session. -/
def engaging : History Bool Unit × Threads Bool Unit Unit :=
  (expectant.set 1 expectant.shared (.runs (ofUser .engaging))).turns .expectant
    [1, 1, 1, 1, 1, 1, 1, 1]

/-- Another one makes the first two calls of shutting down. -/
def closing : History Bool Unit × Threads Bool Unit Unit :=
  (engaging.2.set 0 engaging.2.shared (.runs Scheduler.shutdown)).turns .expectant [0, 0]

/-- What the handler is called with. -/
def expectantJob : Job Bool := ⟨⟨[], true⟩, ⟨⟨0, .bare⟩, .ofInt 1, .any, .normal⟩⟩

/-- The handler is run, and then nothing is left to wait for. -/
def ending : History Bool Unit × Threads Bool Unit Unit :=
  (closing.2.set 2 closing.2.shared
    (.task ⟨0⟩ (runJob .expectant .default expectantJob))).turns .expectant [2, 2, 0]

/-- Another event is dispatched. -/
def later : History Bool Unit × Threads Bool Unit Unit :=
  (ending.2.set 3 ending.2.shared
    (.runs (ofUser (.call (.dispatch .bare) fun _ => .done ())))).turns .expectant [3, 3]

/-- A handler waits for a session that is pending when shutting down is begun. It is
told that the session was closed, and gives its text. No listener takes part in a
dispatch that begins later. -/
theorem shutdown_complete_expectant :
    let s := Id.ofEntropy 0
    ∃ (x y z : History Bool Unit) (T₁ T₂ T₃ : Threads Bool Unit Unit) (b : Beginning Bool),
      Run .expectant expectant x T₁ ∧ Run .expectant T₁ y T₂ ∧ Run .expectant T₂ z T₃ ∧
      T₁.shared.hub.sessions.status s = .waiting ∧ T₁.shared.tasks.map (·.handle) = [⟨0⟩] ∧
      y.Told s (.error (.closed s)) ∧ T₂.Closed .expectant s ∧
      T₂.Yields .expectant ⟨0⟩ (.of (.str "hi")) ∧
      z = [(3, .made ⟨.start .bare, b⟩)] ∧ b.targets = [] := by
  intro s
  let T₁ : Threads Bool Unit Unit := engaging.2.set 0 engaging.2.shared (.runs Scheduler.shutdown)
  have hwaiters : T₁.shared.hub.sessions.waiters = [⟨s, false, false, false⟩] := rfl
  have hnone : T₁.shared.hub.sessions.received = [] := rfl
  have hwaiting : T₁.shared.hub.sessions.status s = .waiting :=
    Sessions.status_eq_waiting_iff.mpr
      ⟨fun a ha => absurd (hnone ▸ ha) List.not_mem_nil, _, hwaiters ▸ List.mem_cons_self, rfl⟩
  have hspawn : engaging.1[3]? = some (1, .made ⟨.spawn expectantJob, ⟨0⟩⟩) := rfl
  have hresult : ending.2.shared.hub.handles.result? ⟨0⟩ = some (.of (.str "hi")) := rfl
  have hdrawn : ending.2.shared.hub.drawn = 1 := rfl
  obtain ⟨b, hlater⟩ : ∃ b, later.1 = [(3, .made ⟨.start .bare, b⟩)] := ⟨_, rfl⟩
  -- what is seen while the hub is shut down, and of the dispatch after that
  let clears : Nat × Occurrence Bool Unit := (0, .made ⟨.user (.request .clearRegistry), ()⟩)
  let closes : Nat × Occurrence Bool Unit := (0, .made ⟨.user (.request .clearSessions), ()⟩)
  let tells : Nat × Occurrence Bool Unit :=
    (2, .made ⟨.user (.wait (.session s none)), .error (.closed s)⟩)
  let waits : Nat × Occurrence Bool Unit := (0, .made ⟨.user (.wait .idle), ()⟩)
  let starts : Nat × Occurrence Bool Unit := (3, .made ⟨.start .bare, b⟩)
  have hx : Run .expectant expectant (engaging.1 ++ []) T₁ :=
    (Run.of_idle rfl (Program.calm_ofUser .engaging) _).trans
      (Step.begins 0 rfl (calm_shutdown _)).run
  have hfree : closing.2.Free ⟨0⟩ := by
    intro i p h
    match i with
    | 0 => exact nomatch h
    | 1 => exact nomatch h
    | _ + 2 => exact nomatch h
  have hstarts : Step .expectant closing.2 [] (closing.2.set 2 closing.2.shared
      (.task ⟨0⟩ (runJob .expectant .default expectantJob))) :=
    .starts (k := ⟨⟨0⟩, .fresh _⟩) 2 rfl (List.mem_singleton.mpr rfl) hfree rfl
  have hy : Run .expectant T₁ (closing.1 ++ ([] ++ ending.1)) ending.2 :=
    (run_turns .expectant [0, 0] T₁).trans (hstarts.run.trans (run_turns .expectant _ _))
  have hy : Run .expectant T₁ [clears, closes, tells, waits] ending.2 := hy
  have hz : Run .expectant ending.2 later.1 later.2 :=
    Run.of_idle rfl (Program.calm_ofUser _) [3, 3]
  have hz : Run .expectant ending.2 [starts] later.2 := hlater ▸ hz
  have hown : History.own [clears, closes, tells, waits] 0
      = [.made ⟨.user (.request .clearRegistry), ()⟩,
        .made ⟨.user (.request .clearSessions), ()⟩, .made ⟨.user (.wait .idle), ()⟩] := rfl
  obtain ⟨hgives, hcloses, hlisted⟩ :=
    shutdown_complete hx hy (runs_shutdown_iff.mpr ⟨rfl, rfl⟩) hown
  have hspawned : ⟨.spawn expectantJob, ⟨0⟩⟩ ∈
      History.exchanges (engaging.1 ++ [] ++ [clears, closes, tells]) :=
    List.mem_filterMap.mpr ⟨_, List.mem_append_left _ (List.mem_append_left _
      (List.mem_of_getElem? hspawn)), rfl⟩
  obtain ⟨w, -, hyields⟩ := hgives
    (show _ = [clears, closes, tells] ++ waits :: [] from rfl) hspawned
  obtain rfl : w = .of (.str "hi") := by
    obtain ⟨m', h⟩ := hyields [] ending.2 .refl none
    rw [Scheduler.reply?, hresult] at h
    exact (Prod.mk.inj (Option.some.inj h)).1.symm
  have hclosed : ending.2.Closed .expectant s := by
    rcases hcloses (show _ = [clears] ++ closes :: [tells, waits] from rfl) hwaiting
      (hdrawn ▸ by decide) with ⟨j, e, hj, hmem, -⟩ | ⟨-, -, hclosed⟩
    · exact absurd (congrArg Prod.fst (List.mem_singleton.mp hmem)) hj
    · exact hclosed
  have henrolled : b.Enrolled (History.exchanges [closes, tells, waits]) :=
    hlisted hz (show _ = [] ++ clears :: ([closes, tells, waits] ++ starts :: []) from rfl)
  refine ⟨_, _, _, T₁, ending.2, later.2, b, hx, hy, hz, hwaiting, rfl, ⟨2, none, ?_⟩, hclosed,
    hyields, rfl, List.eq_nil_iff_forall_not_mem.mpr fun l hl => ?_⟩
  · exact List.mem_cons_of_mem _ (List.mem_cons_of_mem _ List.mem_cons_self)
  · obtain ⟨a, ha, hregisters⟩ := henrolled.targets l hl
    cases hregisters with
    | listener hmem =>
      obtain ⟨o, ho, he⟩ := List.mem_filterMap.mp ha
      simp only [List.mem_cons, List.not_mem_nil, or_false] at ho
      rcases ho with rfl | rfl | rfl <;>
        exact absurd (congrArg Exchange.call (Option.some.inj he)) (by simp)

/-- Two sessions are open. One thread is about to dispatch an event, another one to
wait for a session, and a third one to shut the hub down. -/
def luring : Threads Bool Unit Unit :=
  let T : Threads Bool Unit Unit := fresh (.fresh .empty .default ())
  let opened := ((T.set 1 T.shared (.runs (ofUser .luring))).turns .expectant [1, 1]).2
  let joined := opened.set 2 opened.shared (.runs (ofUser .hasty))
  joined.set 0 joined.shared (.runs Scheduler.shutdown)

/-- Everybody has turns while the hub is shut down. -/
def overtaking : History Bool Unit × Threads Bool Unit Unit :=
  luring.turns .expectant [0, 2, 1, 1, 1, 1, 1, 0, 0]

/-- Between the first two calls of shutting down, somebody is told that the time of a
session is up, and an event is dispatched, which the other session receives. Both of
them were pending. -/
theorem shutdown_overtaken :
    let s := Id.ofEntropy 0
    let s' := Id.ofEntropy 1
    ∃ (x y : History Bool Unit) (T₁ T₂ : Threads Bool Unit Unit) (t : HubTrace Bool Unit),
      Run .expectant (fresh (.fresh .empty .default ())) x T₁ ∧ Run .expectant T₁ y T₂ ∧
      Scheduler.shutdown.Runs t (.ok ()) ∧ y.own 0 = t.map .made ∧
      T₁.shared.hub.sessions.status s = .waiting ∧
      T₂.shared.reply? none (.session s none) = some (.ok .bare, T₂.shared) ∧
      T₁.shared.hub.sessions.status s' = .waiting ∧ y.Told s' (.error (.timedOut s' 0)) := by
  intro s s'
  have hx : Run .expectant (fresh (.fresh .empty .default ())) _ luring :=
    (Run.of_idle rfl (Program.calm_ofUser .luring) [1, 1]).trans
      ((Step.begins 2 rfl (Program.calm_ofUser .hasty)).run.trans
        (Step.begins 0 rfl (calm_shutdown _)).run)
  have hwaiters : luring.shared.hub.sessions.waiters
      = [⟨s, false, true, false⟩, ⟨s', false, true, false⟩] := rfl
  have hnone : luring.shared.hub.sessions.received = [] := rfl
  have hown : overtaking.1.own 0 = [.made ⟨.user (.request .clearRegistry), ()⟩,
    .made ⟨.user (.request .clearSessions), ()⟩, .made ⟨.user (.wait .idle), ()⟩] := rfl
  have htold : overtaking.1[1]? = some
    (2, .made ⟨.user (.wait (.session s' (some ⟨0, none⟩))), .error (.timedOut s' 0)⟩) := rfl
  have hreceived : overtaking.2.shared.hub.sessions.received = [(s, .bare)] := rfl
  have hwaiting : ∀ id, id = s ∨ id = s' → luring.shared.hub.sessions.status id = .waiting := by
    intro id hid
    refine Sessions.status_eq_waiting_iff.mpr
      ⟨fun a ha => absurd (hnone ▸ ha) List.not_mem_nil, ?_⟩
    rcases hid with rfl | rfl
    · exact ⟨_, hwaiters ▸ List.mem_cons_self, rfl⟩
    · exact ⟨_, hwaiters ▸ List.mem_cons_of_mem _ List.mem_cons_self, rfl⟩
  have hstatus : overtaking.2.shared.hub.sessions.status s = .received .bare := by
    refine Sessions.status_eq_received (hreceived ▸ List.mem_singleton_self _) fun a ha _ => ?_
    exact congrArg Prod.snd (List.mem_singleton.mp (hreceived ▸ ha))
  refine ⟨_, overtaking.1, luring, overtaking.2, _, hx, run_turns _ _ _,
    runs_shutdown_iff.mpr ⟨rfl, rfl⟩, hown, hwaiting s (.inl rfl), ?_, hwaiting s' (.inr rfl),
    2, some ⟨0, none⟩, List.mem_of_getElem? htold⟩
  rw [Scheduler.reply?, hstatus]

end Threads

end Switchboard
