import Switchboard.Proofs.Hub.Turns

/-!
# Offering an event to the sessions

Before anything else a dispatch offers its event to the sessions that wait.
It takes hold of them all, asks the matcher of each of them in turn, delivers
the event to whoever accepts it, and lets go of the others. All this takes
many steps, but the program that dispatches does not wait in between, so with
the scheduler nobody else has a turn (`Walks`).

As long as no matcher touches the sessions, the steps come to what the
matchers answer, one after the other (`Hub.Asks`): whoever has accepted has
received the event, and the others wait on (`leads_asked`).
-/

namespace Switchboard

variable {β σ α γ : Type}

open HubProgram

/-! ## Programs of requests -/

/-- A hub with other sessions. -/
def Hub.withSessions (h : Hub β σ) (s : Sessions β) : Hub β σ := { h with sessions := s }

/-- **What a program of requests comes to** in a hub, and the hub after it. -/
def Hub.evaluate (h : Hub β σ) : Program (requests β σ) α → Except Payload α × Hub β σ
  | .done a => (.ok a, h)
  | .panic p => (.error p, h)
  | .call r next => (h.answer r).2.evaluate (next (h.answer r).1)

/-- Whether a request neither looks at the sessions nor changes them. -/
def Request.sparesSessions : Request β σ → Bool
  | openSession _ _ => false
  | cancelSession _ => false
  | abandonSession _ => false
  | clearSessions => false
  | pendingSessions => false
  | _ => true

/-- **A program does not touch the sessions of a hub**, but may panic in it. -/
def Program.SparesSessions (h : Hub β σ) : Program (requests β σ) α → Prop
  | done _ => True
  | panic _ => True
  | call r next =>
    Request.sparesSessions r = true ∧ (next (h.answer r).1).SparesSessions (h.answer r).2

/-- A request that spares the sessions does the same whatever they are. -/
theorem Hub.answer_withSessions (h : Hub β σ) (s : Sessions β) {r : Request β σ}
    (hr : r.sparesSessions = true) :
    (h.withSessions s).answer r = ((h.answer r).1, (h.answer r).2.withSessions s) := by
  cases r with
  | attributes scope => cases scope <;> rfl
  | setAttributes scope a => cases scope <;> rfl
  | openSession forMessages matcher => exact absurd hr Bool.false_ne_true
  | cancelSession s => exact absurd hr Bool.false_ne_true
  | abandonSession s => exact absurd hr Bool.false_ne_true
  | clearSessions => exact absurd hr Bool.false_ne_true
  | pendingSessions => exact absurd hr Bool.false_ne_true
  | _ => rfl

/-- The question that a session puts to the context of a dispatch. -/
def question (B : Behaviours β σ) (c : EventContext) (w : Waiter β) :
    Program (requests β σ) Bool :=
  if w.forMessages && c.event.message.isNone then .done false else B.matcher w.matcher c

theorem acceptedByWaiter_eq (B : Behaviours β σ) (c : EventContext) (w : Waiter β) :
    acceptedByWaiter B c w = ofRequests (question B c w) := by
  unfold acceptedByWaiter question
  split <;> rfl

/-- **A session can be asked safely**: in no hub does its matcher touch the
sessions. -/
def Waiter.SparesSessions (B : Behaviours β σ) (w : Waiter β) : Prop :=
  ∀ c h, (B.matcher w.matcher c).SparesSessions h

theorem Waiter.SparesSessions.question {B : Behaviours β σ} {w : Waiter β}
    (hw : w.SparesSessions B) (c : EventContext) (h : Hub β σ) :
    (question B c w).SparesSessions h := by
  unfold Switchboard.question
  split
  · trivial
  · exact hw c h

/-- **Sessions are asked one after the other, and answer**: what they answer,
and the hub after it. -/
inductive Hub.Asks (B : Behaviours β σ) (c : EventContext) :
    Hub β σ → List (Waiter β × Bool) → Hub β σ → Prop
  | nobody {h : Hub β σ} : Asks B c h [] h
  | next {h h₁ h' : Hub β σ} {w : Waiter β} {b : Bool} {answers : List (Waiter β × Bool)} :
      h.evaluate (question B c w) = (.ok b, h₁) → Asks B c h₁ answers h' →
      Asks B c h ((w, b) :: answers) h'

/-- The sessions that have refused an event. -/
def refusals (answers : List (Waiter β × Bool)) : List (Waiter β) :=
  (answers.filter (!·.2)).map (·.1)

theorem refusals_cons (a : Waiter β × Bool) (answers : List (Waiter β × Bool)) :
    refusals (a :: answers) = refusals [a] ++ refusals answers := by
  unfold refusals
  rw [← List.map_append, ← List.filter_append]
  rfl

namespace Sessions

/-- The sessions once those that have accepted an event have received it. -/
def delivered (s : Sessions β) (e : Event) (answers : List (Waiter β × Bool)) : Sessions β :=
  answers.foldl (fun s a => if a.2 then s.deliver a.1.id e else s) s

variable {s s' : Sessions β}

theorem Agree.delivered (h : s.Agree s') (e : Event) (answers : List (Waiter β × Bool)) :
    (s.delivered e answers).Agree (s'.delivered e answers) := by
  induction answers generalizing s s' with
  | nil => exact h
  | cons a answers ih =>
    obtain ⟨w, accepted⟩ := a
    cases accepted with
    | true => exact ih (h.deliver w.id e)
    | false => exact ih h

end Sessions

/-! ## Walking -/

namespace Scheduler

/-- **A program walks to another one**: it goes on for so many steps while
it has its turn. -/
inductive Walks (B : Behaviours β σ) :
    Nat → Scheduler β σ → HubProgram β σ α → Scheduler β σ → HubProgram β σ α → Prop
  | here {m : Scheduler β σ} {p : HubProgram β σ α} : Walks B 0 m p m p
  | step {k : Nat} {m m₁ m' : Scheduler β σ} {p p₁ p' : HubProgram β σ α} :
      m.advance B p = (m₁, .running p₁) → Walks B k m₁ p₁ m' p' → Walks B (k + 1) m p m' p'

variable {B : Behaviours β σ} {k : Nat} {m m₁ m' : Scheduler β σ} {p p₁ p' : HubProgram β σ α}

theorem Walks.trans {k' : Nat} (h₁ : Walks B k m p m₁ p₁) (h₂ : Walks B k' m₁ p₁ m' p') :
    Walks B (k + k') m p m' p' := by
  induction h₁ with
  | here => rwa [Nat.zero_add]
  | step hstep _ ih =>
    rw [Nat.succ_add]
    exact .step hstep (ih h₂)

/-- The main program walks in its turn. -/
theorem Walks.steps_main (h : Walks B k m p m' p') (limit : Option Nat) :
    m.steps B limit k (.main p) = (m', .main p') := by
  induction h with
  | here => rfl
  | step hstep _ ih =>
    rw [steps_succ]
    simp only [Scheduler.step, hstep]
    exact ih

/-! ## Asking -/

/-- **A program leads to another one**: it walks there, the hub is a given
one then but for the sessions, which agree with given ones, and no handlers
are started. -/
structure Leads (B : Behaviours β σ) (k : Nat) (m : Scheduler β σ) (p : HubProgram β σ α)
    (h : Hub β σ) (s : Sessions β) (p' : HubProgram β σ α) (m' : Scheduler β σ) : Prop where
  walks : Walks B k m p m' p'
  hub : m'.hub = h.withSessions m'.hub.sessions
  sessions : s.Agree m'.hub.sessions
  tasks : m'.tasks = m.tasks

variable {k k' : Nat} {h h₁ : Hub β σ} {s s₁ : Sessions β}

theorem Leads.here (hm : m.hub = h.withSessions m.hub.sessions) :
    Leads B 0 m p h m.hub.sessions p m :=
  ⟨.here, hm, .refl _, rfl⟩

theorem Leads.step (hstep : m.advance B p = (m₁, .running p₁)) (ht : m₁.tasks = m.tasks)
    (hl : Leads B k m₁ p₁ h s p' m') : Leads B (k + 1) m p h s p' m' :=
  ⟨.step hstep hl.walks, hl.hub, hl.sessions, hl.tasks.trans ht⟩

theorem Leads.trans (h₁ : Leads B k m p h₁ s₁ p₁ m₁) (h₂ : Leads B k' m₁ p₁ h s p' m') :
    Leads B (k + k') m p h s p' m' :=
  ⟨h₁.walks.trans h₂.walks, h₂.hub, h₂.sessions, h₂.tasks.trans h₁.tasks⟩

theorem Leads.congr (hl : Leads B k m p h s p' m') (hs : s₁.Agree s) :
    Leads B k m p h s₁ p' m' :=
  ⟨hl.walks, hl.hub, hs.trans hl.sessions, hl.tasks⟩

/-- A request is answered, and the owners of sessions are woken. -/
theorem advance_request (B : Behaviours β σ) (m : Scheduler β σ) (r : Request β σ)
    (next : r.Reply → HubProgram β σ α) :
    m.advance B (.call (.user (.request r)) next)
      = ({ m with hub := (m.hub.answer r).2 }.wakeSettled, .running (next (m.hub.answer r).1)) :=
  rfl

/-- **Putting a question** leads to its answer, be it a panic. -/
theorem leads_question {q : Program (requests β σ) Bool}
    (f : Except Payload Bool → HubProgram β σ α) (hm : m.hub = h.withSessions m.hub.sessions)
    (hq : q.SparesSessions h) :
    ∃ k m', Leads B k m ((ofRequests q).recover.bind f) (h.evaluate q).2 m.hub.sessions
      (f (h.evaluate q).1) m' := by
  induction q generalizing m h with
  | done b => exact ⟨0, m, .here hm⟩
  | panic p => exact ⟨0, m, .here hm⟩
  | call r next ih =>
    obtain ⟨hr, hnext⟩ := hq
    let hub := (h.answer r).2.withSessions m.hub.sessions
    have hanswer : m.hub.answer r = ((h.answer r).1, hub) := by
      conv => lhs; rw [hm]
      exact h.answer_withSessions _ hr
    let m₁ := { m with hub }.wakeSettled
    have hwakes := wakes_wakeSettled { m with hub }
    obtain ⟨k, m', hl⟩ := ih (h.answer r).1 (m := m₁) (hwakes.hub ▸ rfl) hnext
    have hstep : m.advance B ((ofRequests (.call r next)).recover.bind f)
        = (m₁, .running ((ofRequests (next (h.answer r).1)).recover.bind f)) :=
      (advance_request B m r _).trans (by rw [hanswer]; rfl)
    exact ⟨k + 1, m', .step hstep hwakes.tasks
      (hl.congr (alike_wakeSettled { m with hub }).sessions)⟩

/-- Other sessions are of no account to a hub that is given but for them. -/
theorem hub_eq_of_withSessions (hm : m.hub = h.withSessions m.hub.sessions)
    (hm₁ : m₁.hub = m.hub.withSessions s) : m₁.hub = h.withSessions m₁.hub.sessions := by
  rw [hm₁, hm]
  rfl

variable {c : EventContext}

/-- Sessions that were given up are dropped. -/
theorem offer_append {gone : List (Waiter β)} (hgone : ∀ w ∈ gone, w.abandoned = true)
    (kept ws : List (Waiter β)) : offer B c kept (gone ++ ws) = offer B c kept ws := by
  induction gone with
  | nil => rfl
  | cons w gone ih =>
    obtain ⟨hw, hgone⟩ := List.forall_mem_cons.mp hgone
    rw [List.cons_append, offer, if_pos hw]
    exact ih hgone

/-- What follows the question to a session that is next. -/
def afterQuestion (B : Behaviours β σ) (c : EventContext) (kept : List (Waiter β)) (w : Waiter β)
    (ws : List (Waiter β)) : Except Payload Bool → HubProgram β σ Unit
  | .ok true => .call (.deliver w.id c.event) fun _ => offer B c kept ws
  | .ok false => offer B c (kept ++ [w]) ws
  | .error p => .call (.loseSessions (w :: ws ++ kept)) fun _ => .panic p

/-- **The next session is asked**, which leads to what follows its answer. -/
theorem leads_next (f : Except Payload Unit → HubProgram β σ α) (kept : List (Waiter β))
    {w : Waiter β} (ws : List (Waiter β)) (hm : m.hub = h.withSessions m.hub.sessions)
    (hw : w.SparesSessions B) (hgone : w.abandoned = false) :
    ∃ k m', Leads B k m ((offer B c kept (w :: ws)).recover.bind f)
      (h.evaluate (question B c w)).2 m.hub.sessions
      ((afterQuestion B c kept w ws (h.evaluate (question B c w)).1).recover.bind f) m' := by
  have hoffer : (offer B c kept (w :: ws)).recover.bind f
      = (ofRequests (question B c w)).recover.bind fun r =>
          (afterQuestion B c kept w ws r).recover.bind f := by
    rw [offer, if_neg (by simp [hgone]), acceptedByWaiter_eq, ← Program.bind_assoc,
      ← Program.recover_recover_bind]
    rfl
  rw [hoffer]
  exact leads_question (fun r => (afterQuestion B c kept w ws r).recover.bind f) hm
    (hw.question c h)

/-- **A session that answers** has received the event, or is kept. -/
theorem leads_answer (f : Except Payload Unit → HubProgram β σ α) (kept : List (Waiter β))
    {w : Waiter β} (ws : List (Waiter β)) (hm : m.hub = h.withSessions m.hub.sessions)
    (hw : w.SparesSessions B) (hgone : w.abandoned = false) {b : Bool}
    (hb : h.evaluate (question B c w) = (.ok b, h₁)) :
    ∃ k m', Leads B k m ((offer B c kept (w :: ws)).recover.bind f) h₁
      (m.hub.sessions.delivered c.event [(w, b)])
      ((offer B c (kept ++ refusals [(w, b)]) ws).recover.bind f) m' := by
  obtain ⟨k, m₁, hl⟩ := leads_next (c := c) f kept ws hm hw hgone
  rw [hb] at hl
  cases b with
  | false =>
    exact ⟨k, m₁, hl⟩
  | true =>
    have hkept : kept ++ refusals [(w, true)] = kept := List.append_nil kept
    let m₂ := { m₁ with hub := m₁.hub.deliver w.id c.event }.wakeSettled
    have hwakes := wakes_wakeSettled { m₁ with hub := m₁.hub.deliver w.id c.event }
    have hstep : m₁.advance B ((afterQuestion B c kept w ws (.ok true)).recover.bind f)
        = (m₂, .running ((offer B c kept ws).recover.bind f)) := rfl
    have hreceived : (m.hub.sessions.delivered c.event [(w, true)]).Agree m₂.hub.sessions :=
      (hl.sessions.deliver w.id c.event).trans
        (alike_wakeSettled { m₁ with hub := m₁.hub.deliver w.id c.event }).sessions
    rw [hkept]
    exact ⟨k + 1, m₂, hl.trans <| .step hstep hwakes.tasks <|
      Leads.congr (.here (hub_eq_of_withSessions hl.hub hwakes.hub)) hreceived⟩

/-- **Asking sessions that answer** leads to the offering to the others. -/
theorem leads_asked {h' : Hub β σ} {answers : List (Waiter β × Bool)}
    (hasks : h.Asks B c answers h') (f : Except Payload Unit → HubProgram β σ α)
    (kept : List (Waiter β)) {ws rest : List (Waiter β)}
    (hws : ws.filter (!·.abandoned) = answers.map (·.1) ++ rest)
    (hspares : ∀ a ∈ answers, a.1.SparesSessions B) (hm : m.hub = h.withSessions m.hub.sessions) :
    ∃ ws' k m', ws'.filter (!·.abandoned) = rest ∧
      Leads B k m ((offer B c kept ws).recover.bind f) h'
        (m.hub.sessions.delivered c.event answers)
        ((offer B c (kept ++ refusals answers) ws').recover.bind f) m' := by
  induction hasks generalizing m ws kept with
  | nobody =>
    refine ⟨ws, 0, m, hws, ?_⟩
    rw [refusals, List.filter_nil, List.map_nil, List.append_nil]
    exact .here hm
  | @next h h₁ h' w b answers hb _ ih =>
    obtain ⟨hw, hspares⟩ := List.forall_mem_cons.mp hspares
    obtain ⟨gone, more, rfl, hgone, hpresent, hmore⟩ := List.filter_eq_cons_iff.mp hws
    rw [offer_append (by simpa using hgone)]
    obtain ⟨k, m₁, hl⟩ := leads_answer f kept more hm hw (by simpa using hpresent) hb
    obtain ⟨ws', k', m', hrest, hl'⟩ := ih (kept ++ refusals [(w, b)]) hmore hspares hl.hub
    refine ⟨ws', k + k', m', hrest, ?_⟩
    rw [refusals_cons, ← List.append_assoc]
    exact hl.trans (hl'.congr (hl.sessions.delivered c.event answers))

section Beginning

variable {e : Event} {next : Beginning β → HubProgram β σ α}
  {f : Beginning β → Except Payload Unit → HubProgram β σ α}

/-- **A dispatch that begins** takes hold of the sessions, and is about to
offer its event to them. -/
theorem leads_held (hnext : ∀ b, next b = (resumeSessions B b.context).recover.bind (f b)) :
    ∃ m', Leads B 2 m (.call (.start e) next) (m.hub.start e).2 m.hub.sessions
      ((offer B (m.hub.start e).1.context [] m.hub.sessions.waiters).recover.bind
        (f (m.hub.start e).1)) m' := by
  let m₁ := { m with hub := (m.hub.start e).2 }
  have hstart : m.advance B (.call (.start e) next)
      = (m₁, .running (next (m.hub.start e).1)) := rfl
  have hhold : m₁.advance B (next (m.hub.start e).1)
      = (m₁, .running ((offer B (m.hub.start e).1.context [] m.hub.sessions.waiters).recover.bind
          (f (m.hub.start e).1))) := by
    rw [hnext]
    rfl
  exact ⟨m₁, .step hstart rfl (.step hhold rfl ⟨.here, rfl, .refl _, rfl⟩)⟩

end Beginning

end Scheduler

end Switchboard
