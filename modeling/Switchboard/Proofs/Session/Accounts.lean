import Switchboard.Proofs.Session.Order

/-!
# Every session is accounted for

What is seen of threads that share a hub says what has become of each session,
and the hub says the same (`Threads.Accounted`). As many sessions are counted
as are pending. A session receives the event of the first dispatch that takes
hold of the sessions while it is pending, and whose event it accepts, and
whoever waits for it is given that event. All that are pending are asked then,
in the order in which they were opened, and nobody else. It does not matter
which thread does what, or in which order.
-/

namespace Switchboard

variable {β σ α γ : Type} {B : Behaviours β σ}

/-! ## How sessions end -/

/-- **How what is seen ends a session** that is pending. -/
inductive Occurrence.Ends (s : Id) : Occurrence β σ → SessionEnding → Prop
  | received {e : Event} : Ends s (.made ⟨.deliver s e, ()⟩) (.received e)
  | cancelled {b : Bool} : Ends s (.made ⟨.user (.request (.cancelSession s)), b⟩) .closed
  | cleared : Ends s (.made ⟨.user (.request .clearSessions), ()⟩) .closed
  /-- Its owner drops it. -/
  | abandoned : Ends s (.made ⟨.user (.request (.abandonSession s)), ()⟩) .abandoned
  /-- Its owner is told that the time is up. -/
  | timedOut {s' : Id} {timeout : Option Timeout} {ms : Nat} :
      Ends s (.made ⟨.user (.wait (.session s timeout)), .error (.timedOut s' ms)⟩) .abandoned
  /-- Its owner gives the wait up. -/
  | gaveUp {timeout : Option Timeout} : Ends s (.gaveUp (.session s timeout)) .abandoned

namespace Occurrence

variable {s : Id} {o : Occurrence β σ} {d : SessionDeed β} {how : SessionEnding}

theorem Ends.deed (h : o.Ends s how) : ∃ d, o.deed? = some d ∧ d.ending? s = some how := by
  cases h with
  | received => exact ⟨_, rfl, if_pos rfl⟩
  | cancelled => exact ⟨_, rfl, if_pos rfl⟩
  | cleared => exact ⟨_, rfl, rfl⟩
  | abandoned => exact ⟨_, rfl, if_pos rfl⟩
  | timedOut => exact ⟨_, rfl, if_pos rfl⟩
  | gaveUp => exact ⟨_, rfl, if_pos rfl⟩

/-- A deed that ends a session is seen to, unless a dispatch lets go of the
sessions. -/
theorem Does.ends (h : o.Does d) (hd : d.ending? s = some how) :
    o.Ends s how ∨ (∃ ws, o = .made ⟨.loseSessions ws, ()⟩) ∨
      ∃ ws, o = .made ⟨.keepSessions ws, ()⟩ ∧ ∀ w ∈ ws, w.id ≠ s := by
  have hself : ∀ {s' : Id} {how' : SessionEnding},
      (if s' = s then some how' else none) = some how → s' = s ∧ how' = how := by
    intro s' how' hd
    split at hd
    · next hs => exact ⟨hs, Option.some.inj hd⟩
    · exact absurd hd (by simp)
  cases h with
  | opened => exact absurd hd (by simp [SessionDeed.ending?])
  | cancelled =>
    obtain ⟨rfl, rfl⟩ := hself hd
    exact .inl .cancelled
  | cleared =>
    obtain rfl := Option.some.inj hd
    exact .inl .cleared
  | abandoned =>
    obtain ⟨rfl, rfl⟩ := hself hd
    exact .inl .abandoned
  | timedOut =>
    obtain ⟨rfl, rfl⟩ := hself hd
    exact .inl .timedOut
  | gaveUp =>
    obtain ⟨rfl, rfl⟩ := hself hd
    exact .inl .gaveUp
  | delivered =>
    obtain ⟨rfl, rfl⟩ := hself hd
    exact .inl .received
  | @kept ws =>
    refine .inr (.inr ⟨ws, rfl, fun w hw hid => ?_⟩)
    have hany : ws.any (·.id == s) = true :=
      List.any_eq_true.mpr ⟨w, hw, beq_iff_eq.mpr hid⟩
    rw [SessionDeed.ending?, if_pos hany] at hd
    exact absurd hd (by simp)
  | lost => exact .inr (.inl ⟨_, rfl⟩)

end Occurrence

/-- What the owner of a session is told, according to what has become of it. -/
def SessionFate.Tells (s : Id) (timeout : Option Timeout) :
    SessionFate → Except SessionError Event → Prop
  | ended (.received e), r => r = .ok e
  | ended .closed, r => r = .error (.closed s)
  | pending, r => r = .error (.timedOut s ((timeout.map (·.milliseconds)).getD 0))
  | _, _ => True

/-! ## What a dispatch that is open can be seen to do -/

/-- **A dispatch is about to deliver its event** to a session: it has taken hold
of the sessions, has asked those before it, and the session has accepted. -/
def Delivers (B : Behaviours β σ) (i : Nat) (c : EventContext) (before later : History β σ)
    (s : Id) (e : Event) : Prop :=
  ∃ (between asked : History β σ) (ws : List (Waiter β)) (answers : List (Waiter β × Bool))
      (w : Waiter β), later = between ++ (i, .made ⟨.holdSessions, ws⟩) :: asked ∧
    between.own i = [] ∧ Undisturbed i c asked ∧
    answers.map (·.1) ++ [w] <+: pending (before ++ between).deeds ∧ w.id = s ∧ c.event = e ∧
    Asked B c (answers ++ [(w, true)]) (asked.own i ++ [.made ⟨.deliver s e, ()⟩])

section Open

variable {i : Nat} {c : EventContext} {before later : History β σ} {holder : Option Nat}

theorem Open.of_deliver {p : HubProgram β σ γ} (h : Open B i c before later holder p) {s : Id}
    {e : Event} (hp : p.call? = some (.deliver s e)) : Delivers B i c before later s e := by
  cases h with
  | begun _ _ _ => exact absurd (Option.some.inj hp) (by simp)
  | @offers f _ between asked ws _ hlater hbetween hundisturbed hoffers _ =>
    obtain ⟨answers, w, hprefix, hid, he, hasked⟩ := hoffers.of_deliver hp
    exact ⟨between, asked, ws, answers, w, hlater, hbetween, hundisturbed, hprefix, hid, he,
      hasked⟩

theorem Open.of_keep {p : HubProgram β σ γ} (h : Open B i c before later holder p)
    {ws : List (Waiter β)} (hp : p.call? = some (.keepSessions ws)) :
    ∃ between held asked answers, later = between ++ (i, .made ⟨.holdSessions, held⟩) :: asked ∧
      ws = refusals answers ∧ Offering B i c (before ++ between) asked answers := by
  cases h with
  | begun _ _ _ => exact absurd (Option.some.inj hp) (by simp)
  | @offers f _ between asked held _ hlater _ hundisturbed hoffers _ =>
    obtain ⟨answers, hws, hasked, hall⟩ := hoffers.of_keep hp
    exact ⟨between, held, asked, answers, hlater, hws, hall, hundisturbed, hasked⟩

theorem Open.not_loses {p : HubProgram β σ γ} (h : Open B i c before later holder p)
    {ws : List (Waiter β)} : p.call? ≠ some (.loseSessions ws) := by
  cases h with
  | begun _ _ _ => exact fun hp => absurd (Option.some.inj hp) (by simp)
  | offers _ _ _ _ hoffers _ => exact hoffers.not_loses

/-- Whoever takes hold of the sessions does not have hold of them. -/
theorem Open.of_hold {p : HubProgram β σ γ} (h : Open B i c before later holder p)
    (hp : p.call? = some .holdSessions) : holder ≠ some i := by
  cases h with
  | begun hfree _ _ => exact hfree
  | offers _ _ _ _ hoffers _ => exact absurd hp hoffers.not_holds

/-- A dispatch that has done something since it has begun has hold of the
sessions. -/
theorem Open.begun_or {p : HubProgram β σ γ} (h : Open B i c before later holder p) :
    later.own i = [] ∨ holder = some i := by
  cases h with
  | begun _ hnothing _ => exact .inl hnothing
  | offers hhold _ _ _ _ _ => exact .inr hhold

namespace Thread

variable {t : Thread β σ α}

theorem Opens.of_deliver (h : t.Opens B i c before later holder) {s : Id} {e : Event}
    (ht : t.call? = some (.deliver s e)) : Delivers B i c before later s e := by
  cases t with
  | runs p => exact Open.of_deliver h ht
  | task a p => exact Open.of_deliver h ht
  | _ => exact h.elim

theorem Opens.of_keep (h : t.Opens B i c before later holder) {ws : List (Waiter β)}
    (ht : t.call? = some (.keepSessions ws)) :
    ∃ between held asked answers, later = between ++ (i, .made ⟨.holdSessions, held⟩) :: asked ∧
      ws = refusals answers ∧ Offering B i c (before ++ between) asked answers := by
  cases t with
  | runs p => exact Open.of_keep h ht
  | task a p => exact Open.of_keep h ht
  | _ => exact h.elim

theorem Opens.not_loses (h : t.Opens B i c before later holder) {ws : List (Waiter β)} :
    t.call? ≠ some (.loseSessions ws) := by
  cases t with
  | runs p => exact Open.not_loses h
  | task a p => exact Open.not_loses h
  | _ => exact h.elim

theorem Opens.of_hold (h : t.Opens B i c before later holder) (ht : t.call? = some .holdSessions) :
    holder ≠ some i := by
  cases t with
  | runs p => exact Open.of_hold h ht
  | task a p => exact Open.of_hold h ht
  | _ => exact h.elim

theorem Opens.begun_or (h : t.Opens B i c before later holder) :
    later.own i = [] ∨ holder = some i := by
  cases t with
  | runs p => exact Open.begun_or h
  | task a p => exact Open.begun_or h
  | _ => exact h.elim

theorem Calm.isPlain (h : t.Calm B) {call : HubCall β σ} (hc : t.call? = some call)
    (hb : call.begins? = none) : call.isPlain = true := by
  cases t with
  | runs p => exact Program.Calm.isPlain h hc hb
  | task a p => exact Program.Calm.isPlain h hc hb
  | _ => exact absurd hc (by simp [call?])

end Thread

end Open

/-- Whoever is pending is one of those that are. -/
theorem exists_mem_pending {deeds : List (SessionDeed β)} {s : Id} (h : fate deeds s = .pending) :
    ∃ w ∈ pending deeds, w.id = s := by
  have hopened : s ∈ (openings deeds).map (·.id) := Classical.byContradiction fun hnot => by
    rw [fate_eq_unopened_iff.mpr hnot] at h
    exact absurd h (by simp)
  obtain ⟨w, hw, rfl⟩ := List.mem_map.mp hopened
  exact ⟨w, mem_pending_iff.mpr ⟨hw, h⟩, rfl⟩

/-- A deed among those that were done was seen. -/
theorem History.deeds_eq_append_cons {x : History β σ} {past later : List (SessionDeed β)}
    {d : SessionDeed β} (h : x.deeds = past ++ d :: later) :
    ∃ (y z : History β σ) (i : Nat) (o : Occurrence β σ),
      x = y ++ (i, o) :: z ∧ y.deeds = past ∧ o.deed? = some d := by
  obtain ⟨y, rest, rfl, rfl, hrest⟩ := List.filterMap_eq_append_iff.mp h
  obtain ⟨skipped, ⟨i, o⟩, z, rfl, hskipped, ho, -⟩ := List.filterMap_eq_cons_iff.mp hrest
  refine ⟨y ++ skipped, z, i, o, (List.append_assoc ..).symm, ?_, ho⟩
  rw [History.deeds_append]
  exact (congrArg (History.deeds y ++ ·) (List.filterMap_eq_nil_iff.mpr hskipped)).trans
    (List.append_nil _)

/-! ## Who resumes a session -/

/-- **Dispatches come one by one**: each of them takes hold of the sessions as
soon as it has begun. -/
def History.OneByOne (x : History β σ) : Prop :=
  ∀ {before i e b next later}, x = before ++ (i, .made ⟨.start e, b⟩) :: next :: later →
    ∃ ws, next = (i, .made ⟨.holdSessions, ws⟩)

/-- So nothing comes between the two. -/
theorem History.OneByOne.between_eq {x before between later : History β σ} {i : Nat} {e : Event}
    {b : Beginning β} {ws : List (Waiter β)} (h : x.OneByOne)
    (hx : x = before ++ (i, .made ⟨.start e, b⟩) ::
      (between ++ (i, .made ⟨.holdSessions, ws⟩) :: later))
    (hbetween : between.own i = []) : between = [] := by
  cases between with
  | nil => rfl
  | cons next between =>
    obtain ⟨ws', rfl⟩ := h hx
    exact absurd (List.filterMap_eq_nil_iff.mp hbetween _ List.mem_cons_self) (by simp)

/-- **A dispatch resumes a session**: the one that has begun on this thread,
with what was seen before, and later up to the delivery of its event. -/
structure Resumes (B : Behaviours β σ) (x : History β σ) (s : Id) (e : Event) (i : Nat)
    (b : Beginning β) (before later : History β σ) : Prop where
  seen : ∃ z, x = before ++ (i, .made ⟨.start e, b⟩) ::
    (later ++ (i, .made ⟨.deliver s e, ()⟩) :: z)
  delivers : Delivers B i b.context before later s e
  /-- The session is pending until then, -/
  pending : fate (before ++ later).deeds s = .pending
  /-- for it has refused all events about which it was asked. -/
  refused : ∀ {past asked j c answers w a rest},
    (before ++ later).deeds = History.deeds past ++ History.deeds asked ++ rest →
    Offering B j c past asked answers → (w, a) ∈ answers → w.id = s → a = false
  /-- Where dispatches come one by one, it was pending when this one began, -/
  waits : x.OneByOne → fate before.deeds s = .pending
  /-- and has refused the events of all dispatches that began before, while it
  was pending. -/
  first : x.OneByOne → ∀ {y z : History β σ} {j e' b'},
    before = y ++ (j, .made ⟨.start e', b'⟩) :: z →
    fate y.deeds s = .pending →
    ∃ (asked later : History β σ) (ws : List (Waiter β)) (answers : List (Waiter β × Bool))
        (w : Waiter β),
      z ++ [(i, .made ⟨.start e, b⟩)] = (j, .made ⟨.holdSessions, ws⟩) :: (asked ++ later) ∧
      Offering B j b'.context y asked answers ∧ (w, false) ∈ answers ∧ w.id = s

namespace Threads

variable {T T' : Threads β σ α} {x y z : History β σ} {i : Nat}

/-- **A call that only a dispatch makes is made by a dispatch that is open.** -/
theorem InOrder.opens_of_call (h : InOrder B x T) {call : HubCall β σ}
    (hc : (T.thread i).call? = some call) (hplain : call.isPlain = false)
    (hb : call.begins? = none) :
    ∃ before e b later, x = before ++ (i, .made ⟨.start e, b⟩) :: later ∧
      (T.thread i).Opens B i b.context before later T.holder := by
  rcases h.threads i with ⟨hcalm, -⟩ | hopens
  · exact absurd (hcalm.isPlain hc hb) (by simp [hplain])
  · exact hopens

/-- **Dispatches take hold of the sessions one after the other**: when one of
them does, those that have begun have offered their events, or have yet to take
hold of the sessions. -/
theorem InOrder.offered_of_holds (h : InOrder B x T) {ws : List (Waiter β)}
    (hs : Step B T [(i, .made ⟨.holdSessions, ws⟩)] T') {j : Nat} {e : Event} {b : Beginning β}
    (hx : x = y ++ (j, .made ⟨.start e, b⟩) :: z) :
    z.own j = [] ∨ HasOffered B j b.context y z := by
  obtain ⟨hpermits, hcall, -, -⟩ := hs.of_served (by simp)
  have hfree : T.holder ≠ some j := fun hj => by
    obtain rfl := hpermits _ rfl rfl j hj
    obtain ⟨_, _, _, _, -, hopens⟩ := h.opens_of_call hcall rfl rfl
    exact hopens.of_hold hcall hj
  rcases (h.dispatches hx).2 with hoffered | hopens
  · exact .inr hoffered
  · exact .inl (hopens.begun_or.resolve_right hfree)

/-- **Threads were in order whenever something was seen**, if they are in
order. -/
theorem Run.inOrder_of_occurs {T₀ : Threads β σ α} (h : Run B T₀ x T) (h₀ : InOrder B [] T₀)
    (hroom : T.shared.hub.drawn ≤ Number.twoTo 122) (hquiet : ∀ w ∈ openings x.deeds, w.Quiet B)
    {o : Occurrence β σ} (hx : x = y ++ (i, o) :: z) :
    ∃ T₁ T₂ : Threads β σ α, Step B T₁ [(i, o)] T₂ ∧ InOrder B y T₁ := by
  obtain ⟨T₁, T₂, hfirst, hstep, hrest⟩ := h.occurs hx
  have hle : T₁.shared.hub.drawn ≤ T.shared.hub.drawn := (hstep.run.trans hrest).drawn_le
  refine ⟨T₁, T₂, hstep, h₀.run hfirst (Nat.le_trans hle hroom) fun w hw => hquiet w ?_⟩
  rw [hx, History.deeds_append, openings, List.filterMap_append]
  exact List.mem_append_left _ hw

/-! ## What the hub says of its sessions -/

/-- **The sessions are accounted for** by what was seen of the threads. -/
structure Accounted (B : Behaviours β σ) (x : History β σ) (T : Threads β σ α) : Prop where
  /-- As many are counted as were opened and have not ended. -/
  counted : T.shared.hub.sessions.size = (pending x.deeds).length
  /-- So it is whenever somebody counts them. -/
  counts : ∀ {y z : History β σ} {i n},
    x = y ++ (i, .made ⟨.user (.request .pendingSessions), n⟩) :: z →
    n = (pending y.deeds).length
  /-- They wait in the order in which they were opened. -/
  waiting : T.shared.hub.sessions.waiters.filter (!·.abandoned) = pending x.deeds
  /-- The hub has kept the events that sessions have received, and knows who has
  received one -/
  received : ∀ {s e}, (s, e) ∈ T.shared.hub.sessions.received ↔
    fate x.deeds s = .ended (.received e)
  status_received : ∀ {s e}, fate x.deeds s = .ended (.received e) →
    T.shared.hub.sessions.status s = .received e
  /-- and who was closed. -/
  status_closed : ∀ {s}, fate x.deeds s = .ended .closed →
    T.shared.Drawn s ∧ T.shared.hub.sessions.status s = .closed
  /-- A session ends once, -/
  ended : ∀ {y z : History β σ} {s how}, x = y ++ z → fate y.deeds s = .ended how →
    fate x.deeds s = .ended how
  /-- by the first thing that ends it while it is pending. -/
  ended_iff : ∀ {s how}, fate x.deeds s = .ended how ↔
    ∃ (y z : History β σ) (i : Nat) (o : Occurrence β σ), x = y ++ (i, o) :: z ∧
      fate y.deeds s = .pending ∧ o.Ends s how
  /-- A dispatch that has begun has offered its event to all sessions that were
  pending when it took hold of them, before anything else, or is about to. -/
  dispatched : ∀ {y z : History β σ} {i e b}, x = y ++ (i, .made ⟨.start e, b⟩) :: z →
    b.context.event = e ∧
      (HasOffered B i b.context y z ∨ (T.thread i).Opens B i b.context y z T.holder)
  /-- Dispatches take hold of the sessions one after the other. -/
  holds : ∀ {y z before later : History β σ} {i j ws e b},
    x = y ++ (i, .made ⟨.holdSessions, ws⟩) :: z →
    y = before ++ (j, .made ⟨.start e, b⟩) :: later →
    later.own j = [] ∨ HasOffered B j b.context before later
  /-- Those that accept the event receive it, unless they are given up
  meanwhile. Those that refuse it stay pending, in their order. -/
  answered : ∀ {before asked : History β σ} {later i c answers},
    x.deeds = before.deeds ++ asked.deeds ++ later → Offering B i c before asked answers →
    Answered c (before.deeds ++ asked.deeds) answers
  /-- An event is only delivered by a dispatch of this event, to a session that
  was pending when it took hold of them and has accepted. -/
  delivered : ∀ {y z : History β σ} {i s e}, x = y ++ (i, .made ⟨.deliver s e, ()⟩) :: z →
    ∃ before b later, y = before ++ (i, .made ⟨.start e, b⟩) :: later ∧
      Delivers B i b.context before later s e
  /-- A session that has received an event was resumed by the first dispatch that
  has taken hold of the sessions while it was pending, and whose event it has
  accepted. -/
  resumed : ∀ {s e}, fate x.deeds s = .ended (.received e) →
    ∃ i b before later, Resumes B x s e i b before later
  /-- Whoever has waited was told what had become of the session. -/
  told : ∀ {y z : History β σ} {i s timeout r},
    x = y ++ (i, .made ⟨.user (.wait (.session s timeout)), r⟩) :: z →
    (fate y.deeds s).Tells s timeout r
  /-- Whoever waits for a session that has received an event is given this
  event, be the time up or not. -/
  reply_received : ∀ {s e}, fate x.deeds s = .ended (.received e) → ∀ deadline timeout,
    T.shared.reply? deadline (.session s timeout) = some (.ok e, T.shared)
  /-- Whoever waits for a session that was closed is told so. -/
  reply_closed : ∀ {s}, fate x.deeds s = .ended .closed → ∀ deadline timeout,
    T.shared.reply? deadline (.session s timeout) = some (.error (.closed s), T.shared)
  /-- Whoever waits for a session that is pending waits until the time is up,
  and is told so then. The session is given up. -/
  reply_pending : ∀ {s}, fate x.deeds s = .pending → ∀ deadline timeout,
    T.shared.reply? deadline (.session s timeout) =
      if deadline.any (· ≤ T.shared.clock) then
        some (.error (.timedOut s ((timeout.map (·.milliseconds)).getD 0)),
          { T.shared with
            hub := T.shared.hub.withSessions (T.shared.hub.sessions.abandon s) })
      else none

namespace InOrder

variable {s : Id} {e : Event}

theorem reply_received (h : InOrder B x T) (hf : fate x.deeds s = .ended (.received e))
    (deadline : Option Nat) (timeout : Option Timeout) :
    T.shared.reply? deadline (.session s timeout) = some (.ok e, T.shared) := by
  rw [Scheduler.reply?, h.tells.status_of_received hf]

theorem reply_closed (h : InOrder B x T) (hf : fate x.deeds s = .ended .closed)
    (deadline : Option Nat) (timeout : Option Timeout) :
    T.shared.reply? deadline (.session s timeout) = some (.error (.closed s), T.shared) := by
  rw [Scheduler.reply?, h.tells.status_of_closed hf]

theorem reply_pending (h : InOrder B x T) (hf : fate x.deeds s = .pending)
    (deadline : Option Nat) (timeout : Option Timeout) :
    T.shared.reply? deadline (.session s timeout) =
      if deadline.any (· ≤ T.shared.clock) then
        some (.error (.timedOut s ((timeout.map (·.milliseconds)).getD 0)),
          { T.shared with
            hub := T.shared.hub.withSessions (T.shared.hub.sessions.abandon s) })
      else none := by
  rw [Scheduler.reply?, h.tells.status_of_pending hf]
  rfl

/-- A session that was opened has an identifier that was drawn. -/
theorem drawn_of_fate (h : InOrder B x T) {how : SessionEnding}
    (hf : fate x.deeds s = .ended how) : T.shared.Drawn s := by
  have hopened : s ∈ (openings x.deeds).map (·.id) := Classical.byContradiction fun hnot => by
    rw [fate_eq_unopened_iff.mpr hnot] at hf
    exact absurd hf (by simp)
  obtain ⟨w, hw, rfl⟩ := List.mem_map.mp hopened
  exact h.drawn w hw

/-- A wait that is over was told what had become of the session. -/
theorem told (h : InOrder B y T) {timeout : Option Timeout}
    {r : (Wait.session s timeout).Reply}
    (hs : Step B T [(i, .made ⟨.user (.wait (.session s timeout)), r⟩)] T') :
    (fate y.deeds s).Tells s timeout r := by
  obtain ⟨deadline, m', hr⟩ := hs.of_waited (by simp)
  cases hf : fate y.deeds s with
  | unopened => trivial
  | pending =>
    rw [h.reply_pending hf] at hr
    split at hr
    · exact (Prod.mk.inj (Option.some.inj hr)).1.symm
    · exact absurd hr (by simp)
  | ended how =>
    cases how with
    | received e =>
      rw [h.reply_received hf] at hr
      exact (Prod.mk.inj (Option.some.inj hr)).1.symm
    | closed =>
      rw [h.reply_closed hf] at hr
      exact (Prod.mk.inj (Option.some.inj hr)).1.symm
    | abandoned => trivial

/-- **What ends a session that is pending** is not that a dispatch lets go of
the sessions. -/
theorem ends (h : InOrder B y T) {o : Occurrence β σ} {how : SessionEnding}
    (hs : Step B T [(i, o)] T') (hf : fate y.deeds s = .pending) {d : SessionDeed β}
    (hd : o.deed? = some d) (hhow : d.ending? s = some how) : o.Ends s how := by
  rcases (Occurrence.does_of_deed? hd).ends hhow with hends | ⟨ws, rfl⟩ | ⟨ws, rfl, hno⟩
  · exact hends
  · obtain ⟨-, hcall, -⟩ := hs.of_served (by simp)
    obtain ⟨before, e, b, later, -, hopens⟩ := h.opens_of_call hcall rfl rfl
    exact absurd hcall hopens.not_loses
  · obtain ⟨-, hcall, -⟩ := hs.of_served (by simp)
    obtain ⟨before, e, b, later, rfl, hopens⟩ := h.opens_of_call hcall rfl rfl
    obtain ⟨between, held, asked, answers, rfl, rfl, hoffering⟩ := hopens.of_keep hcall
    have hdeeds : History.deeds (before ++ (i, .made ⟨.start e, b⟩) ::
        (between ++ (i, .made ⟨.holdSessions, held⟩) :: asked))
          = (before ++ between).deeds ++ History.deeds asked := by
      refine History.deeds_of_start.trans ?_
      rw [← List.append_assoc, History.deeds_append]
      rfl
    have horderly := h.orderly
    rw [hdeeds] at hf horderly
    obtain ⟨w, hmem, rfl⟩ := exists_mem_pending hf
    rw [(hoffering.answered horderly).pending] at hmem
    exact absurd rfl (hno w (List.mem_filter.mp hmem).1)

/-- **An event is delivered by a dispatch of this event.** -/
theorem delivers (h : InOrder B y T) (hs : Step B T [(i, .made ⟨.deliver s e, ()⟩)] T') :
    ∃ before b later, y = before ++ (i, .made ⟨.start e, b⟩) :: later ∧
      Delivers B i b.context before later s e := by
  obtain ⟨-, hcall, -⟩ := hs.of_served (by simp)
  obtain ⟨before, e', b, later, hy, hopens⟩ := h.opens_of_call hcall rfl rfl
  have hdelivers := hopens.of_deliver hcall
  have he : b.context.event = e := by
    obtain ⟨-, -, -, -, -, -, -, -, -, -, he, -⟩ := hdelivers
    exact he
  obtain rfl : e' = e := (h.dispatches hy).1.symm.trans he
  exact ⟨before, b, later, hy, hdelivers⟩

/-- Whoever is pending has refused all events about which it was asked. -/
theorem refused (h : InOrder B y T) (hf : fate y.deeds s = .pending)
    {past asked : History β σ} {rest : List (SessionDeed β)} {j : Nat} {c : EventContext}
    {answers : List (Waiter β × Bool)} {w : Waiter β} {a : Bool}
    (hy : y.deeds = past.deeds ++ asked.deeds ++ rest)
    (hoffering : Offering B j c past asked answers) (hw : (w, a) ∈ answers)
    (hid : w.id = s) : a = false := by
  subst hid
  cases a with
  | false => rfl
  | true =>
    have horderly := h.orderly
    rw [hy] at hf horderly
    rcases (hoffering.answered horderly.of_append).accepted w hw with hended | hended
    · rw [fate_append_of_ended hended] at hf
      exact absurd hf (by simp)
    · rw [fate_append_of_ended hended] at hf
      exact absurd hf (by simp)

end InOrder

/-- **A session has ended** by the first thing that was seen to end it while it
was pending. -/
theorem Run.ended_iff {T₀ : Threads β σ α} (h : Run B T₀ x T) (h₀ : InOrder B [] T₀)
    (hroom : T.shared.hub.drawn ≤ Number.twoTo 122) (hquiet : ∀ w ∈ openings x.deeds, w.Quiet B)
    {s : Id} {how : SessionEnding} : fate x.deeds s = .ended how ↔
      ∃ (y z : History β σ) (i : Nat) (o : Occurrence β σ), x = y ++ (i, o) :: z ∧
        fate y.deeds s = .pending ∧ o.Ends s how := by
  rw [fate_eq_ended_iff]
  constructor
  · rintro ⟨past, d, later, hx, hf, hd⟩
    obtain ⟨y, z, i, o, rfl, rfl, ho⟩ := History.deeds_eq_append_cons hx
    obtain ⟨T₁, T₂, hstep, h₁⟩ := h.inOrder_of_occurs h₀ hroom hquiet rfl
    exact ⟨y, z, i, o, rfl, hf, h₁.ends hstep hf ho hd⟩
  · rintro ⟨y, z, i, o, rfl, hf, hends⟩
    obtain ⟨d, hd, hending⟩ := hends.deed
    refine ⟨y.deeds, d, z.deeds, ?_, hf, hending⟩
    rw [History.deeds_append]
    exact congrArg (y.deeds ++ ·) (List.filterMap_cons_some hd)

/-- **Where dispatches come one by one**, those that have begun before another
one have asked all sessions that were pending then. -/
theorem Run.asked_before {T₀ : Threads β σ α} (h : Run B T₀ x T) (h₀ : InOrder B [] T₀)
    (hroom : T.shared.hub.drawn ≤ Number.twoTo 122) (hquiet : ∀ w ∈ openings x.deeds, w.Quiet B)
    (hone : x.OneByOne) {before rest : History β σ} {e e' : Event} {b b' : Beginning β} {j : Nat}
    {ws : List (Waiter β)}
    (hx : x = before ++ (i, .made ⟨.start e, b⟩) :: (i, .made ⟨.holdSessions, ws⟩) :: rest)
    (hbefore : before = y ++ (j, .made ⟨.start e', b'⟩) :: z) {s : Id}
    (hpending : fate y.deeds s = .pending) :
    ∃ (asked later : History β σ) (ws' : List (Waiter β)) (answers : List (Waiter β × Bool))
        (w : Waiter β) (a : Bool),
      z ++ [(i, .made ⟨.start e, b⟩)] = (j, .made ⟨.holdSessions, ws'⟩) :: (asked ++ later) ∧
      Offering B j b'.context y asked answers ∧ (w, a) ∈ answers ∧ w.id = s := by
  have hbegun : before ++ [(i, .made ⟨.start e, b⟩)]
      = y ++ (j, .made ⟨.start e', b'⟩) :: (z ++ [(i, .made ⟨.start e, b⟩)]) := by
    rw [hbefore, List.append_assoc, List.cons_append]
  have hholds : x = before ++ [(i, .made ⟨.start e, b⟩)] ++
      (i, .made ⟨.holdSessions, ws⟩) :: rest := by
    rw [hx, List.append_assoc, List.singleton_append]
  obtain ⟨T₁, T₂, hstep, h₁⟩ := h.inOrder_of_occurs h₀ hroom hquiet hholds
  rw [hbegun, List.append_assoc, List.cons_append] at hholds
  -- they have let go of the sessions when this one takes hold of them
  rcases h₁.offered_of_holds hstep hbegun with
    hnothing | ⟨between, ws', asked, answers, later, hlater, hown, hoffering⟩
  · obtain ⟨next, later, hnext⟩ := List.exists_cons_of_ne_nil
      (show z ++ [(i, .made ⟨.start e, b⟩)] ≠ [] by simp)
    rw [hnext] at hholds hnothing
    obtain ⟨ws', rfl⟩ := hone hholds
    exact absurd (List.filterMap_eq_nil_iff.mp hnothing _ List.mem_cons_self) (by simp)
  · rw [hlater, List.append_assoc, List.cons_append] at hholds
    obtain rfl := hone.between_eq hholds hown
    rw [List.append_nil] at hoffering
    obtain ⟨w, hw, rfl⟩ := exists_mem_pending hpending
    rw [← hoffering.everybody] at hw
    obtain ⟨⟨w, a⟩, ha, rfl⟩ := List.mem_map.mp hw
    exact ⟨asked, _, ws', answers, w, a, hlater, hoffering, ha, rfl⟩

/-- **A session that receives an event while it is pending** is resumed by the
first dispatch whose event it accepts. -/
theorem Run.resumes {T₀ : Threads β σ α} (h : Run B T₀ x T) (h₀ : InOrder B [] T₀)
    (hroom : T.shared.hub.drawn ≤ Number.twoTo 122) (hquiet : ∀ w ∈ openings x.deeds, w.Quiet B)
    {s : Id} {e : Event} (hx : x = y ++ (i, .made ⟨.deliver s e, ()⟩) :: z)
    (hf : fate y.deeds s = .pending) : ∃ b before later, Resumes B x s e i b before later := by
  obtain ⟨T₁, T₂, hstep, h₁⟩ := h.inOrder_of_occurs h₀ hroom hquiet hx
  obtain ⟨before, b, later, rfl, hdelivers⟩ := h₁.delivers hstep
  have hseen : x = before ++ (i, .made ⟨.start e, b⟩) ::
      (later ++ (i, .made ⟨.deliver s e, ()⟩) :: z) := by
    rw [hx, List.append_assoc, List.cons_append]
  have hdeeds : (before ++ (i, .made ⟨.start e, b⟩) :: later).deeds = (before ++ later).deeds :=
    History.deeds_of_start
  have hrefused : ∀ {past asked : History β σ} {j c answers w a rest},
      (before ++ later).deeds = past.deeds ++ asked.deeds ++ rest →
      Offering B j c past asked answers → (w, a) ∈ answers → w.id = s → a = false :=
    fun hy hoffering hw hid => h₁.refused hf (hdeeds.trans hy) hoffering hw hid
  obtain ⟨between, asked, ws, answers, w, rfl, hbetween, -, hprefix, hid, -⟩ := id hdelivers
  have hholds := hseen
  rw [List.append_assoc, List.cons_append] at hholds
  have hnone : x.OneByOne → between = [] := fun hone => hone.between_eq hholds hbetween
  have hwaits : x.OneByOne → fate before.deeds s = .pending := fun hone => by
    obtain rfl := hnone hone
    have hmem := hprefix.subset (List.mem_append_right _ (List.mem_singleton_self w))
    rw [List.append_nil] at hmem
    exact hid ▸ (mem_pending_iff.mp hmem).2
  refine ⟨b, before, _, ⟨z, hseen⟩, hdelivers, hdeeds ▸ hf, hrefused, hwaits, ?_⟩
  intro hone y z' j e' b' hbefore hpending
  obtain rfl := hnone hone
  obtain ⟨asked', later', ws', answers', v, a, hlater, hoffering, ha, hvid⟩ :=
    h.asked_before h₀ hroom hquiet hone hseen hbefore hpending
  have hz : z'.deeds = asked'.deeds ++ later'.deeds := by
    have hsame := congrArg History.deeds hlater
    rw [History.deeds_append] at hsame
    exact (List.append_nil _).symm.trans (hsame.trans (History.deeds_append ..))
  have hy : before.deeds = y.deeds ++ z'.deeds := by
    rw [hbefore]
    exact History.deeds_of_start.trans (History.deeds_append ..)
  have hrest : (before ++ ([] ++ (i, Occurrence.made ⟨.holdSessions, ws⟩) :: asked)).deeds
      = y.deeds ++ asked'.deeds ++ (later'.deeds ++ asked.deeds) := by
    rw [History.deeds_append, hy, hz]
    simp only [List.append_assoc]
    rfl
  obtain rfl : a = false := hrefused hrest hoffering ha hvid
  exact ⟨asked', later', ws', answers', v, hlater, hoffering, ha, hvid⟩

/-- **Every session is accounted for**, whatever threads do. -/
theorem Run.accounted {registry : Registry β} {settings : DispatchSettings} {memory : σ}
    (h : Run B (fresh (.fresh registry settings memory)) x T)
    (hroom : T.shared.hub.drawn ≤ Number.twoTo 122)
    (hquiet : ∀ w ∈ openings x.deeds, w.Quiet B) : Accounted B x T := by
  have h₀ : InOrder B [] (fresh (.fresh registry settings memory) : Threads β σ α) :=
    inOrder_fresh registry settings memory
  have horder : InOrder B x T := h₀.run h hroom hquiet
  have hbefore : ∀ {y z : History β σ} {i o}, x = y ++ (i, o) :: z →
      ∃ T₁ T₂ : Threads β σ α, Step B T₁ [(i, o)] T₂ ∧ InOrder B y T₁ :=
    fun hx => h.inOrder_of_occurs h₀ hroom hquiet hx
  have hanswered : ∀ {before asked : History β σ} {later i c answers},
      x.deeds = before.deeds ++ asked.deeds ++ later → Offering B i c before asked answers →
      Answered c (before.deeds ++ asked.deeds) answers := by
    intro before asked later i c answers hx hoffering
    exact hoffering.answered (hx ▸ horder.orderly : Orderly _).of_append
  have hended : ∀ {s how}, fate x.deeds s = .ended how ↔
      ∃ (y z : History β σ) (i : Nat) (o : Occurrence β σ), x = y ++ (i, o) :: z ∧
        fate y.deeds s = .pending ∧ o.Ends s how := h.ended_iff h₀ hroom hquiet
  refine
    { counted := horder.tells.size_eq
      counts := ?_
      waiting := horder.tells.waiting
      received := fun {s e} => horder.tells.received s e
      status_received := horder.tells.status_of_received
      status_closed := fun hf => ⟨horder.drawn_of_fate hf, horder.tells.status_of_closed hf⟩
      ended := ?_
      ended_iff := hended
      dispatched := horder.dispatches
      holds := ?_
      answered := hanswered
      delivered := ?_
      resumed := ?_
      told := ?_
      reply_received := horder.reply_received
      reply_closed := horder.reply_closed
      reply_pending := horder.reply_pending }
  · intro y z i n hx
    obtain ⟨T₁, T₂, hstep, h₁⟩ := hbefore hx
    obtain ⟨-, -, hexchange, -⟩ := hstep.of_served (by simp)
    cases hexchange
    exact h₁.tells.size_eq
  · rintro y z s how rfl hf
    rw [History.deeds_append]
    exact fate_append_of_ended hf
  · intro y z before later i j ws e b hx hy
    obtain ⟨T₁, T₂, hstep, h₁⟩ := hbefore hx
    exact h₁.offered_of_holds hstep hy
  · intro y z i s e hx
    obtain ⟨T₁, T₂, hstep, h₁⟩ := hbefore hx
    exact h₁.delivers hstep
  · intro s e hf
    obtain ⟨y, z, i, o, hx, hpending, hends⟩ := hended.mp hf
    cases hends
    obtain ⟨b, before, later, hresumes⟩ := h.resumes h₀ hroom hquiet hx hpending
    exact ⟨i, b, before, later, hresumes⟩
  · intro y z i s timeout r hx
    obtain ⟨T₁, T₂, hstep, h₁⟩ := hbefore hx
    exact h₁.told hstep

end Threads

end Switchboard
