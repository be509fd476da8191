import Mathlib.Data.List.Nodup
import Switchboard.Proofs.Hub.Threads

/-!
# How a dispatch asks the sessions

A dispatch that begins takes hold of the sessions and asks them one after the
other, on whatever thread it runs, and other threads go on in between. They
cannot open or close a session then, for that needs the list. But they can
give one up.

What a dispatch does until it lets go of the sessions can be told from the
exchanges of its own thread (`Asked`): each session that waits is asked, its
matcher answers, and if it accepts, the event is delivered to it. `Open` says
how far a dispatch has come with this, and `HasOffered` that it has done it.
`Open.step` is a step of the thread of the dispatch, and `Open.other` one of
another thread.
-/

namespace Switchboard

variable {β σ α γ : Type} {B : Behaviours β σ}

open HubProgram

/-! ## Matchers -/

/-- A program of requests does not need the list of sessions, whatever it is
told. -/
def Program.SparesList (q : Program (requests β σ) α) : Prop :=
  q.Only fun x => (HubCall.user (.request x.call) : HubCall β σ).needsSessions = false

/-- **A session can be asked on any thread**: whatever its matcher is told, it
does not need the list of sessions, and it does not panic. -/
structure Waiter.Quiet (B : Behaviours β σ) (w : Waiter β) : Prop where
  spares : ∀ c, (B.matcher w.matcher c).SparesList
  answers : ∀ c, (B.matcher w.matcher c).Ends fun e => ∃ b, e = .ok b

namespace Waiter.Quiet

variable {w : Waiter β}

theorem question_spares (h : w.Quiet B) (c : EventContext) : (question B c w).SparesList := by
  unfold question
  split
  · exact Program.only_done _
  · exact h.spares c

theorem question_answers (h : w.Quiet B) (c : EventContext) :
    (question B c w).Ends fun e => ∃ b, e = .ok b := by
  unfold question
  split
  · exact Program.ends_done_iff.mpr ⟨false, rfl⟩
  · exact h.answers c

end Waiter.Quiet

/-! ## What is seen of the questions -/

/-- What is seen of an exchange of a matcher. -/
def Exchange.seen (x : Exchange (requests β σ)) : Occurrence β σ :=
  .made ⟨.user (.request x.call), x.reply⟩

/-- What is seen of a session that has answered, besides its matcher. -/
def receipt (c : EventContext) : Waiter β × Bool → List (Occurrence β σ)
  | (w, true) => [.made ⟨.deliver w.id c.event, ()⟩]
  | (_, false) => []

theorem made_deliver_inj {s s' : Id} {e e' : Event} :
    (.made ⟨.deliver s e, ()⟩ : Occurrence β σ) = .made ⟨.deliver s' e', ()⟩ ↔ s = s' ∧ e = e' := by
  constructor
  · intro h
    exact HubCall.deliver.inj (congrArg Exchange.call (Occurrence.made.inj h))
  · rintro ⟨rfl, rfl⟩
    rfl

/-- **Sessions are asked one after the other**, and answer: what is seen of
this on the thread that asks. -/
inductive Asked (B : Behaviours β σ) (c : EventContext) :
    List (Waiter β × Bool) → List (Occurrence β σ) → Prop
  | nobody : Asked B c [] []
  | next {answers : List (Waiter β × Bool)} {seen : List (Occurrence β σ)} {w : Waiter β} {b : Bool}
      {t : List (Exchange (requests β σ))} : Asked B c answers seen →
      (question B c w).Runs t (.ok b) →
      Asked B c (answers ++ [(w, b)]) (seen ++ (t.map Exchange.seen ++ receipt c (w, b)))

/-- Events are delivered to those who accept, and to nobody else. -/
theorem Asked.delivered_iff {c : EventContext} {answers : List (Waiter β × Bool)}
    {seen : List (Occurrence β σ)} (h : Asked B c answers seen) {s : Id} {e : Event} :
    .made ⟨.deliver s e, ()⟩ ∈ seen ↔ e = c.event ∧ ∃ w, (w, true) ∈ answers ∧ w.id = s := by
  induction h with
  | nobody => simp
  | @next answers seen w b t _ _ ih =>
    have hnot : .made ⟨.deliver s e, ()⟩ ∉ t.map (Exchange.seen (β := β) (σ := σ)) := by
      intro hmem
      obtain ⟨x, -, hx⟩ := List.mem_map.mp hmem
      exact absurd (congrArg Exchange.call (Occurrence.made.inj hx)) (by simp)
    rw [List.mem_append, List.mem_append, ih, or_iff_right hnot]
    cases b with
    | false => simp [receipt]
    | true =>
      rw [receipt, List.mem_singleton, made_deliver_inj]
      constructor
      · rintro (⟨rfl, v, hv, rfl⟩ | ⟨rfl, rfl⟩)
        · exact ⟨rfl, v, List.mem_append_left _ hv, rfl⟩
        · exact ⟨rfl, w, List.mem_append_right _ (List.mem_singleton.mpr rfl), rfl⟩
      · rintro ⟨rfl, v, hv, rfl⟩
        rcases List.mem_append.mp hv with hv | hv
        · exact .inl ⟨rfl, v, hv, rfl⟩
        · obtain ⟨rfl, -⟩ := Prod.mk.inj (List.mem_singleton.mp hv)
          exact .inr ⟨rfl, rfl⟩

/-! ## Programs that ask -/

/-- **A program offers an event to these sessions**, and has done so as far as
it is seen. Then it asks the next one, or delivers the event to it, or lets go
of all of them. -/
inductive Offers (B : Behaviours β σ) (c : EventContext)
    (f : Except Payload Unit → HubProgram β σ γ) (everybody : List (Waiter β)) :
    List (Occurrence β σ) → HubProgram β σ γ → Prop
  | asks {answers : List (Waiter β × Bool)} {seen : List (Occurrence β σ)} {w : Waiter β}
      {ws : List (Waiter β)} {t : List (Exchange (requests β σ))} {r : Request β σ}
      {next : r.Reply → Program (requests β σ) Bool} : Asked B c answers seen →
      answers.map (·.1) ++ w :: ws.filter (!·.abandoned) = everybody →
      (.call r next : Program (requests β σ) Bool).SparesList →
      (∀ u e, (.call r next : Program (requests β σ) Bool).Runs u e →
        (question B c w).Runs (t ++ u) e) →
      Offers B c f everybody (seen ++ t.map Exchange.seen) (.call (.user (.request r)) fun x =>
        ((ofRequests (next x)).recover.bind
          (Scheduler.afterQuestion B c (refusals answers) w ws)).recover.bind f)
  | delivers {answers : List (Waiter β × Bool)} {seen : List (Occurrence β σ)} {w : Waiter β}
      {ws : List (Waiter β)} {t : List (Exchange (requests β σ))} : Asked B c answers seen →
      answers.map (·.1) ++ w :: ws.filter (!·.abandoned) = everybody →
      (question B c w).Runs t (.ok true) →
      Offers B c f everybody (seen ++ t.map Exchange.seen) (.call (.deliver w.id c.event) fun _ =>
        (offer B c (refusals answers) ws).recover.bind f)
  | letsGo {answers : List (Waiter β × Bool)} {seen : List (Occurrence β σ)} :
      Asked B c answers seen → answers.map (·.1) = everybody →
      Offers B c f everybody seen (.call (.keepSessions (refusals answers)) fun _ => f (.ok ()))

section Offers

variable {c : EventContext} {f : Except Payload Unit → HubProgram β σ γ}
  {everybody : List (Waiter β)} {answers : List (Waiter β × Bool)} {seen : List (Occurrence β σ)}

/-- A matcher goes on, or the session has answered. -/
theorem offers_of_question {w : Waiter β} {ws : List (Waiter β)}
    {t : List (Exchange (requests β σ))} {q : Program (requests β σ) Bool} (hw : w.Quiet B)
    (hws : ∀ {answers seen}, Asked B c answers seen →
      answers.map (·.1) ++ ws.filter (!·.abandoned) = everybody →
      Offers B c f everybody seen ((offer B c (refusals answers) ws).recover.bind f))
    (ha : Asked B c answers seen)
    (hall : answers.map (·.1) ++ w :: ws.filter (!·.abandoned) = everybody)
    (hspares : q.SparesList)
    (hruns : ∀ u e, q.Runs u e → (question B c w).Runs (t ++ u) e) :
    Offers B c f everybody (seen ++ t.map Exchange.seen)
      (((ofRequests q).recover.bind
        (Scheduler.afterQuestion B c (refusals answers) w ws)).recover.bind f) := by
  cases q with
  | done b =>
    have hb : (question B c w).Runs t (.ok b) := List.append_nil t ▸ hruns [] _ (.done b)
    cases b with
    | true => exact .delivers ha hall hb
    | false =>
      have hnext := hws (ha.next hb) (by rw [← hall, List.map_append, List.append_assoc]; rfl)
      have hrefused : refusals (answers ++ [(w, false)]) = refusals answers ++ [w] := by
        unfold refusals
        rw [List.filter_append, List.map_append]
        rfl
      rw [hrefused, receipt, List.append_nil] at hnext
      exact hnext
  | panic p =>
    obtain ⟨b, hb⟩ := hw.question_answers c _ _ (hruns [] _ (.panic p))
    exact absurd hb (by simp)
  | call r next => exact .asks ha hall hspares hruns

/-- **An offering that goes on with some sessions** is one to all of them, with
those that have answered. -/
theorem offers_of_offer {ws : List (Waiter β)}
    (hquiet : ∀ w ∈ ws, w.abandoned = false → w.Quiet B) (ha : Asked B c answers seen)
    (hall : answers.map (·.1) ++ ws.filter (!·.abandoned) = everybody) :
    Offers B c f everybody seen ((offer B c (refusals answers) ws).recover.bind f) := by
  induction ws generalizing answers seen with
  | nil => exact .letsGo ha ((List.append_nil _).symm.trans hall)
  | cons w ws ih =>
    obtain ⟨hw, hquiet⟩ := List.forall_mem_cons.mp hquiet
    rw [offer]
    split
    · next hgone =>
      rw [List.filter_cons_of_neg (by simp [hgone])] at hall
      exact ih hquiet ha hall
    · next hpresent =>
      have hwaits : w.abandoned = false := Bool.eq_false_iff.mpr hpresent
      rw [List.filter_cons_of_pos (by simp [hwaits])] at hall
      rw [acceptedByWaiter_eq]
      have hnext := offers_of_question (f := f) (t := []) (q := question B c w) (hw hwaits)
          (ih hquiet) ha
        hall ((hw hwaits).question_spares c) fun u e hrun => hrun
      rw [List.map_nil, List.append_nil] at hnext
      exact hnext

/-- A call that asks does to the sessions what is allowed while they are held. -/
theorem deed_of_spares {x : Exchange (hubCalls β σ)} (hx : x.call.needsSessions = false)
    {d : SessionDeed β} (hd : x.deed? = some d) : ∃ s, d = .abandoned s := by
  have hdoes : (Occurrence.made x).Does d := Occurrence.does_of_deed? hd
  cases hdoes with
  | abandoned => exact ⟨_, rfl⟩
  | timedOut => exact ⟨_, rfl⟩
  | _ => exact absurd hx (by simp [HubCall.needsSessions])

/-- An offering neither waits nor begins a dispatch. -/
theorem Offers.call? {p : HubProgram β σ γ} (h : Offers B c f everybody seen p) :
    ∃ call, p.call? = some call ∧ call.begins? = none ∧ ∀ w, call ≠ .user (.wait w) := by
  cases h with
  | asks _ _ _ _ => exact ⟨_, rfl, rfl, fun w => by simp⟩
  | delivers _ _ _ => exact ⟨_, rfl, rfl, fun w => by simp⟩
  | letsGo _ _ => exact ⟨_, rfl, rfl, fun w => by simp⟩

/-- An event is delivered to a session that has accepted it, whose turn it was
to be asked. -/
theorem Offers.of_deliver {p : HubProgram β σ γ} (h : Offers B c f everybody seen p) {s : Id}
    {e : Event} (hp : p.call? = some (.deliver s e)) :
    ∃ answers w, answers.map (·.1) ++ [w] <+: everybody ∧ w.id = s ∧ c.event = e ∧
      Asked B c (answers ++ [(w, true)]) (seen ++ [.made ⟨.deliver s e, ()⟩]) := by
  cases h with
  | asks _ _ _ _ => exact absurd (Option.some.inj hp) (by simp)
  | @delivers answers seen w ws t ha hall hb =>
    obtain ⟨rfl, rfl⟩ := HubCall.deliver.inj (Option.some.inj hp)
    refine ⟨answers, w, ⟨ws.filter (!·.abandoned), ?_⟩, rfl, rfl, ?_⟩
    · rw [List.append_assoc]
      exact hall
    · rw [List.append_assoc]
      exact ha.next hb
  | letsGo _ _ => exact absurd (Option.some.inj hp) (by simp)

/-- Sessions are let go of when all have answered, and those are kept that have
refused the event. -/
theorem Offers.of_keep {p : HubProgram β σ γ} (h : Offers B c f everybody seen p)
    {ws : List (Waiter β)} (hp : p.call? = some (.keepSessions ws)) :
    ∃ answers, ws = refusals answers ∧ Asked B c answers seen ∧ answers.map (·.1) = everybody := by
  cases h with
  | asks _ _ _ _ => exact absurd (Option.some.inj hp) (by simp)
  | delivers _ _ _ => exact absurd (Option.some.inj hp) (by simp)
  | @letsGo answers seen ha hall =>
    exact ⟨answers, (HubCall.keepSessions.inj (Option.some.inj hp)).symm, ha, hall⟩

/-- No sessions are lost. -/
theorem Offers.not_loses {p : HubProgram β σ γ} (h : Offers B c f everybody seen p)
    {ws : List (Waiter β)} : p.call? ≠ some (.loseSessions ws) := by
  intro hp
  cases h with
  | asks _ _ _ _ => exact absurd (Option.some.inj hp) (by simp)
  | delivers _ _ _ => exact absurd (Option.some.inj hp) (by simp)
  | letsGo _ _ => exact absurd (Option.some.inj hp) (by simp)

/-- They are not taken hold of again. -/
theorem Offers.not_holds {p : HubProgram β σ γ} (h : Offers B c f everybody seen p) :
    p.call? ≠ some .holdSessions := by
  intro hp
  cases h with
  | asks _ _ _ _ => exact absurd (Option.some.inj hp) (by simp)
  | delivers _ _ _ => exact absurd (Option.some.inj hp) (by simp)
  | letsGo _ _ => exact absurd (Option.some.inj hp) (by simp)

/-- **An offering takes a step**: it goes on, or it lets go of all sessions. -/
theorem Offers.step {p : HubProgram β σ γ} (h : Offers B c f everybody seen p)
    (hquiet : ∀ w ∈ everybody, w.Quiet B) (m : Scheduler β σ) :
    ∃ call r q, m.exchange? p = some ⟨call, r⟩ ∧ (m.advance B p).2 = .running q ∧
      ((Offers B c f everybody (seen ++ [.made ⟨call, r⟩]) q ∧ (∀ i b, call.holder i b = b) ∧
          ∀ d, Exchange.deed? ⟨call, r⟩ = some d →
            (∃ s, d = .abandoned s) ∨ ∃ s, d = .delivered s c.event) ∨
        ∃ answers, call = .keepSessions (refusals answers) ∧ Asked B c answers seen ∧
          answers.map (·.1) = everybody ∧ q = f (.ok ())) := by
  cases h with
  | @asks answers seen w ws t r next ha hall hspares hruns =>
    have hw : w.Quiet B := hquiet w (hall ▸ List.mem_append_right _ List.mem_cons_self)
    have hws : ∀ v ∈ ws, v.abandoned = false → v.Quiet B := fun v hv hwaits =>
      hquiet v (hall ▸ List.mem_append_right _ (List.mem_cons_of_mem _
        (List.mem_filter.mpr ⟨hv, by simp [hwaits]⟩)))
    have hr := hspares (m.hub.answer r).1
    refine ⟨.user (.request r), (m.hub.answer r).1, _, rfl, rfl,
      .inl ⟨?_, fun i b => rfl, fun d hd => .inl (deed_of_spares hr.1 hd)⟩⟩
    have hnext := offers_of_question (f := f) (t := t ++ [⟨r, (m.hub.answer r).1⟩])
      (q := next (m.hub.answer r).1) hw (offers_of_offer hws) ha hall hr.2 fun u e hrun => by
        rw [List.append_assoc]
        exact hruns _ _ (.call hrun)
    rw [List.map_append, ← List.append_assoc] at hnext
    exact hnext
  | @delivers answers seen w ws t ha hall hb =>
    have hws : ∀ v ∈ ws, v.abandoned = false → v.Quiet B := fun v hv hwaits =>
      hquiet v (hall ▸ List.mem_append_right _ (List.mem_cons_of_mem _
        (List.mem_filter.mpr ⟨hv, by simp [hwaits]⟩)))
    refine ⟨.deliver w.id c.event, (), _, rfl, rfl,
      .inl ⟨?_, fun i b => rfl, fun d hd => .inr ⟨w.id, (Option.some.inj hd).symm⟩⟩⟩
    have hanswered : (answers ++ [(w, true)]).map (·.1) ++ ws.filter (!·.abandoned)
        = everybody := by
      rw [← hall, List.map_append, List.append_assoc]
      rfl
    have hnext := offers_of_offer (f := f) hws (ha.next hb) hanswered
    have hrefused : refusals (answers ++ [(w, true)]) = refusals answers := by
      unfold refusals
      rw [List.filter_append, List.map_append]
      exact List.append_nil _
    rw [hrefused, ← List.append_assoc] at hnext
    exact hnext
  | @letsGo answers seen ha hall =>
    exact ⟨.keepSessions (refusals answers), (), _, rfl, rfl, .inr ⟨answers, rfl, ha, hall, rfl⟩⟩

end Offers

/-! ## How far a dispatch has come -/

/-- **The sessions are left alone** while a thread has hold of them: they can
only be given up, or receive the event that is offered. -/
def Undisturbed (i : Nat) (c : EventContext) (asked : History β σ) : Prop :=
  ∀ a ∈ asked, ∀ d, a.2.deed? = some d →
    (∃ s, d = .abandoned s) ∨ a.1 = i ∧ ∃ s, d = .delivered s c.event

/-- **A dispatch has offered its event** on a thread: all sessions that were
pending have answered, in their order, and this is what was seen of it. -/
structure Offering (B : Behaviours β σ) (i : Nat) (c : EventContext) (before asked : History β σ)
    (answers : List (Waiter β × Bool)) : Prop where
  everybody : answers.map (·.1) = pending before.deeds
  undisturbed : Undisturbed i c asked
  asked : Asked B c answers (asked.own i)

/-- **What an offering comes to**: whoever has accepted the event has received
it and whoever has refused it is pending, unless the owner has given up
meanwhile, and letting go of the sessions keeps all that are pending, in their
order. -/
structure Answered (c : EventContext) (deeds : List (SessionDeed β))
    (answers : List (Waiter β × Bool)) : Prop where
  accepted : ∀ w, (w, true) ∈ answers →
    fate deeds w.id = .ended (.received c.event) ∨ fate deeds w.id = .ended .abandoned
  refused : ∀ w, (w, false) ∈ answers →
    fate deeds w.id = .pending ∨ fate deeds w.id = .ended .abandoned
  pending : pending deeds = (refusals answers).filter fun w => (fate deeds w.id).isPending
  kept : Switchboard.pending (deeds ++ [.kept (refusals answers)]) = Switchboard.pending deeds

namespace Offering

variable {i : Nat} {c : EventContext} {before asked : History β σ}
  {answers : List (Waiter β × Bool)}

/-- While an event is offered, owners give up and the event is delivered. -/
theorem deeds (h : Offering B i c before asked answers) :
    ∀ d ∈ asked.deeds, (∃ s, d = .abandoned s) ∨ ∃ s, d = .delivered s c.event := by
  intro d hd
  obtain ⟨a, ha, hd⟩ := List.mem_filterMap.mp hd
  exact (h.undisturbed a ha d hd).imp_right And.right

/-- The event is delivered to those that accept it. -/
theorem delivered_iff (h : Offering B i c before asked answers) {s : Id} :
    .delivered s c.event ∈ asked.deeds ↔ ∃ w, (w, true) ∈ answers ∧ w.id = s := by
  have hown : .made ⟨.deliver s c.event, ()⟩ ∈ asked.own i ↔ ∃ w, (w, true) ∈ answers ∧ w.id = s :=
    h.asked.delivered_iff.trans (and_iff_right rfl)
  rw [← hown]
  constructor
  · intro hmem
    obtain ⟨⟨j, o⟩, ha, hd⟩ := List.mem_filterMap.mp hmem
    rcases h.undisturbed _ ha _ hd with ⟨s', he⟩ | ⟨hj, -⟩
    · exact absurd he (by simp)
    · refine List.mem_filterMap.mpr ⟨_, ha, (if_pos hj).trans (congrArg some ?_)⟩
      cases Occurrence.does_of_deed? hd with
      | delivered => rfl
  · intro hmem
    obtain ⟨⟨j, o⟩, ha, ho⟩ := List.mem_filterMap.mp hmem
    refine List.mem_filterMap.mpr ⟨_, ha, ?_⟩
    split at ho
    · obtain rfl := Option.some.inj ho
      rfl
    · exact absurd ho (by simp)

/-- No session is opened meanwhile. -/
theorem openings_eq (h : Offering B i c before asked answers) : openings asked.deeds = [] := by
  refine List.filterMap_eq_nil_iff.mpr fun d hd => ?_
  rcases h.deeds d hd with ⟨s, rfl⟩ | ⟨s, rfl⟩ <;> rfl

/-- **Whoever accepts the event receives it, and nobody else.** -/
theorem answered (h : Offering B i c before asked answers)
    (ho : Orderly (before.deeds ++ asked.deeds)) :
    Answered c (before.deeds ++ asked.deeds) answers := by
  have hwaits : ∀ {w b}, (w, b) ∈ answers → fate before.deeds w.id = .pending := by
    intro w b hw
    have hmem : w ∈ answers.map (·.1) := List.mem_map.mpr ⟨_, hw, rfl⟩
    rw [h.everybody] at hmem
    exact (mem_pending_iff.mp hmem).2
  have hdistinct : (answers.map (·.1.id)).Nodup := by
    have hnodup := ho.of_append.nodup_pending
    rw [← h.everybody, List.map_map] at hnodup
    exact hnodup
  have haccepted : ∀ w, (w, true) ∈ answers →
      fate (before.deeds ++ asked.deeds) w.id = .ended (.received c.event) ∨
        fate (before.deeds ++ asked.deeds) w.id = .ended .abandoned := by
    intro w hw
    rcases fate_append_of_offering h.deeds (hwaits hw) with ⟨-, hno⟩ | hf | ⟨hf, -⟩
    · exact absurd (h.delivered_iff.mpr ⟨w, hw, rfl⟩) hno
    · exact .inr hf
    · exact .inl hf
  have hpending : pending (before.deeds ++ asked.deeds) = (refusals answers).filter fun w =>
      (fate (before.deeds ++ asked.deeds) w.id).isPending := by
    rw [pending_append_of_openings h.openings_eq, ← h.everybody]
    unfold refusals
    rw [List.filter_map, List.filter_map, List.filter_filter]
    refine congrArg (List.map _) (List.filter_congr fun a ha => ?_)
    obtain ⟨w, b⟩ := a
    cases b with
    | false => exact (Bool.and_true _).symm
    | true => rcases haccepted w ha with hf | hf <;> simp [hf, SessionFate.isPending]
  refine ⟨haccepted, fun w hw => ?_, hpending, ?_⟩
  · rcases fate_append_of_offering h.deeds (hwaits hw) with ⟨hf, -⟩ | hf | ⟨-, hmem⟩
    · exact .inl hf
    · exact .inr hf
    · obtain ⟨v, hv, hid⟩ := h.delivered_iff.mp hmem
      have hsame := List.inj_on_of_nodup_map hdistinct hv hw hid
      exact absurd (Prod.mk.inj hsame).2 (by simp)
  · have horderly : Orderly (before.deeds ++ asked.deeds ++ [.kept (refusals answers)]) :=
      orderly_append_singleton_iff.mpr ⟨ho, fun w hw => absurd hw (by simp [SessionDeed.opening?])⟩
    rw [pending_append_singleton horderly]
    refine (List.append_nil _).trans (List.filter_eq_self.mpr fun w hw => ?_)
    rw [hpending] at hw
    have hany : ((refusals answers).any (·.id == w.id)) = true :=
      List.any_eq_true.mpr ⟨w, (List.mem_filter.mp hw).1, beq_self_eq_true _⟩
    simp [SessionDeed.ending?, hany]

end Offering

/-- After it has begun, a dispatch has taken hold of the sessions, has offered
its event to them and has let go of them again. -/
def HasOffered (B : Behaviours β σ) (i : Nat) (c : EventContext) (before later : History β σ) :
    Prop :=
  ∃ between ws asked answers rest, later = between ++ (i, .made ⟨.holdSessions, ws⟩) ::
      (asked ++ (i, .made ⟨.keepSessions (refusals answers), ()⟩) :: rest) ∧
    between.own i = [] ∧ Offering B i c (before ++ between) asked answers

/-- **A dispatch has not yet let go of the sessions**: it has yet to take hold
of them, or it is about to offer its event. -/
inductive Open (B : Behaviours β σ) (i : Nat) (c : EventContext) (before later : History β σ)
    (holder : Option Nat) : HubProgram β σ γ → Prop
  | begun {f : Except Payload Unit → HubProgram β σ γ} : holder ≠ some i → later.own i = [] →
      (∀ r, (f r).Calm B) → Open B i c before later holder ((resumeSessions B c).recover.bind f)
  | offers {f : Except Payload Unit → HubProgram β σ γ} {p : HubProgram β σ γ}
      {between asked : History β σ} {ws : List (Waiter β)} : holder = some i →
      later = between ++ (i, .made ⟨.holdSessions, ws⟩) :: asked → between.own i = [] →
      Undisturbed i c asked → Offers B c f (pending (before ++ between).deeds) (asked.own i) p →
      (∀ r, (f r).Calm B) → Open B i c before later holder p

section Open

variable {i : Nat} {c : EventContext} {before later : History β σ} {holder holder' : Option Nat}
  {p : HubProgram β σ γ}

theorem HasOffered.append (h : HasOffered B i c before later) (x : History β σ) :
    HasOffered B i c before (later ++ x) := by
  obtain ⟨between, ws, asked, answers, rest, rfl, hown, hoffering⟩ := h
  exact ⟨between, ws, asked, answers, rest ++ x, by simp, hown, hoffering⟩

theorem Undisturbed.append {asked : History β σ} (h : Undisturbed i c asked) {j : Nat}
    {o : Option (Occurrence β σ)}
    (ho : ∀ d, o.bind (·.deed?) = some d →
      (∃ s, d = .abandoned s) ∨ j = i ∧ ∃ s, d = .delivered s c.event) :
    Undisturbed i c (asked ++ .on j o) := by
  intro a ha d hd
  rcases List.mem_append.mp ha with ha | ha
  · exact h a ha d hd
  · cases o with
    | none => exact absurd ha List.not_mem_nil
    | some o =>
      obtain rfl := List.mem_singleton.mp ha
      exact ho d hd

/-- **Another thread takes a step.** -/
theorem Open.other (h : Open B i c before later holder p) {j : Nat} (hj : j ≠ i)
    {o : Option (Occurrence β σ)} (hholder : holder' = some i ↔ holder = some i)
    (ho : holder = some i → ∀ d, o.bind (·.deed?) = some d → ∃ s, d = .abandoned s) :
    Open B i c before (later ++ .on j o) holder' p := by
  have hown : ∀ x : History β σ, (x ++ .on j o).own i = x.own i := fun x => by
    rw [History.own_append, History.own_on_of_ne hj, List.append_nil]
  cases h with
  | begun hfree hnothing hf =>
    exact .begun (fun he => hfree (hholder.mp he)) ((hown _).trans hnothing) hf
  | @offers f _ between asked ws hhold hlater hbetween hundisturbed hoffers hf =>
    have hsplit : later ++ .on j o
        = between ++ (i, .made ⟨.holdSessions, ws⟩) :: (asked ++ .on j o) := by
      rw [hlater, List.append_assoc, List.cons_append]
    exact .offers (hholder.mpr hhold) hsplit hbetween
      (hundisturbed.append fun d hd => .inl (ho hhold d hd)) ((hown asked).symm ▸ hoffers) hf

/-- **The thread of the dispatch takes a step.** -/
theorem Open.step (h : Open B i c before later holder p) {m : Scheduler β σ}
    (hm : m.hub.sessions.waiters.filter (!·.abandoned) = pending (before ++ later).deeds)
    (hquiet : ∀ w ∈ openings (before ++ later).deeds, w.Quiet B) :
    ∃ call r q, m.exchange? p = some ⟨call, r⟩ ∧ (m.advance B p).2 = .running q ∧
      (Open B i c before (later ++ [(i, .made ⟨call, r⟩)]) (call.holder i holder) q ∨
        HasOffered B i c before (later ++ [(i, .made ⟨call, r⟩)]) ∧ q.Calm B ∧
          call.holder i holder = none) := by
  cases h with
  | @begun f hfree hnothing hf =>
    refine ⟨.holdSessions, m.hub.sessions.waiters, _, rfl, rfl, .inl ?_⟩
    have hsplit : later ++ [(i, .made ⟨.holdSessions, m.hub.sessions.waiters⟩)]
        = later ++ (i, .made ⟨.holdSessions, m.hub.sessions.waiters⟩) :: [] := rfl
    refine .offers rfl hsplit hnothing (fun a ha => absurd ha List.not_mem_nil) ?_ hf
    rw [← hm]
    refine offers_of_offer (f := f) (fun w hw hwaits => hquiet w ?_) .nobody rfl
    have hmem : w ∈ m.hub.sessions.waiters.filter (!·.abandoned) :=
      List.mem_filter.mpr ⟨hw, by simp [hwaits]⟩
    rw [hm] at hmem
    exact (mem_pending_iff.mp hmem).1
  | @offers f _ between asked ws hhold hlater hbetween hundisturbed hoffers hf =>
    subst hlater
    have hquiet' : ∀ w ∈ pending (before ++ between).deeds, w.Quiet B := fun w hw => by
      refine hquiet w ?_
      rw [← List.append_assoc, History.deeds_append, openings, List.filterMap_append]
      exact List.mem_append_left _ (mem_pending_iff.mp hw).1
    obtain ⟨call, r, q, hx, hq, ⟨hnext, hholder, hdeed⟩ | ⟨answers, rfl, hasked, hall, rfl⟩⟩ :=
      hoffers.step hquiet' m
    · have hsplit : between ++ (i, .made ⟨.holdSessions, ws⟩) :: asked
            ++ .on i (some (.made ⟨call, r⟩))
          = between ++ (i, .made ⟨.holdSessions, ws⟩) ::
              (asked ++ .on i (some (.made ⟨call, r⟩))) :=
        List.append_assoc ..
      refine ⟨call, r, q, hx, hq, .inl (.offers ((hholder i holder).trans hhold) hsplit hbetween
        (hundisturbed.append fun d hd => (hdeed d hd).imp_right fun hs => ⟨rfl, hs⟩) ?_ hf)⟩
      rw [History.own_append, History.own_on_self]
      exact hnext
    · refine ⟨.keepSessions (refusals answers), r, _, hx, hq, .inr ⟨?_, hf _, rfl⟩⟩
      exact ⟨between, ws, asked, answers, [], List.append_assoc .., hbetween, hall, hundisturbed,
        hasked⟩

end Open

end Switchboard
