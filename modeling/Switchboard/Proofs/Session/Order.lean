import Switchboard.Proofs.Session.Asking

/-!
# Threads in order

Threads that share a hub are **in order** as long as all of them run calm
programs, or have yet to let go of the sessions (`Threads.InOrder`). The
sessions of the hub tell then what has become of each of them, and every
dispatch that has begun has offered its event, or is about to.

Threads are in order when nothing has happened, and stay so in each step of
each of them (`InOrder.step`), as long as the sessions that are opened can be
asked and there are identifiers left for them.
-/

namespace Switchboard

variable {β σ α γ : Type} {B : Behaviours β σ}

namespace History

variable {x y before later : History β σ} {i j : Nat} {o : Option (Occurrence β σ)}
  {o' : Occurrence β σ}

/-- What stands in a history that goes on stood there before, or is what was
seen last. -/
theorem append_on_eq (h : x ++ on i o = before ++ (j, o') :: later) :
    (∃ first, x = before ++ (j, o') :: first ∧ later = first ++ on i o) ∨
      before = x ∧ i = j ∧ o = some o' ∧ later = [] := by
  cases o with
  | none =>
    refine .inl ⟨later, ?_, (List.append_nil _).symm⟩
    rw [← h]
    exact (List.append_nil x).symm
  | some o =>
    change x ++ [(i, o)] = _ at h
    rcases List.eq_nil_or_concat later with rfl | ⟨first, last, rfl⟩
    · obtain ⟨rfl, hlast⟩ := List.append_inj' h rfl
      obtain ⟨rfl, rfl⟩ := Prod.mk.inj (List.head_eq_of_cons_eq hlast)
      exact .inr ⟨rfl, rfl, rfl, rfl⟩
    · rw [List.concat_eq_append, ← List.cons_append, ← List.append_assoc] at h
      obtain ⟨rfl, hlast⟩ := List.append_inj' h rfl
      obtain rfl := List.head_eq_of_cons_eq hlast
      exact .inl ⟨first, rfl, List.concat_eq_append⟩

/-- Beginning a dispatch does nothing to the sessions. -/
theorem deeds_of_start {e : Event} {b : Beginning β} :
    deeds (before ++ (i, .made ⟨.start e, b⟩) :: later) = (before ++ later).deeds := by
  rw [deeds_append, deeds_append]
  rfl

end History

namespace HubCall

variable {c : HubCall β σ} {i j : Nat} {before : Option Nat}

theorem holder_of_isPlain (hc : c.isPlain = true) : c.holder i before = before := by
  cases c with
  | user c => rfl
  | spawn job => rfl
  | record c o => rfl
  | markTruncated c => rfl
  | _ => exact absurd hc Bool.false_ne_true

/-- Who has hold of the sessions is no concern of a thread that may not make
calls that need them. -/
theorem holder_eq_some_iff (hj : j ≠ i) (hc : c.needsSessions = true → before ≠ some j) :
    c.holder i before = some j ↔ before = some j := by
  cases c with
  | holdSessions =>
    exact iff_of_false (fun h => hj (Option.some.inj h).symm) (hc rfl)
  | keepSessions ws => exact iff_of_false (by simp [holder]) (hc rfl)
  | loseSessions ws => exact iff_of_false (by simp [holder]) (hc rfl)
  | _ => rfl

end HubCall

/-- A calm program that begins no dispatch leaves it to others who has hold of
the sessions. -/
theorem Program.Calm.holder_eq {p : HubProgram β σ γ} (hp : p.Calm B)
    (hb : p.call?.bind HubCall.begins? = none) (i : Nat) (holder : Option Nat) :
    p.call?.elim holder (HubCall.holder i holder) = holder := by
  cases hc : p.call? with
  | none => rfl
  | some c =>
    rw [hc] at hb
    exact HubCall.holder_of_isPlain (hp.isPlain hc hb)

/-- A dispatch that has yet to let go of the sessions neither waits nor begins
another one. -/
theorem Open.call? {i : Nat} {c : EventContext} {before later : History β σ}
    {holder : Option Nat} {p : HubProgram β σ γ} (h : Open B i c before later holder p) :
    ∃ call, p.call? = some call ∧ call.begins? = none ∧ ∀ w, call ≠ .user (.wait w) := by
  cases h with
  | begun _ _ _ => exact ⟨.holdSessions, rfl, rfl, fun w => by simp⟩
  | offers _ _ _ _ hoffers _ => exact hoffers.call?

namespace Thread

variable {m : Scheduler β σ} {t : Thread β σ α} {i j : Nat} {c : EventContext}
  {before later : History β σ} {holder holder' : Option Nat}

/-! ## Threads that are calm -/

/-- **A thread is calm** if the program is that it runs or goes on with. -/
def Calm (B : Behaviours β σ) : Thread β σ α → Prop
  | runs p => p.Calm B
  | task _ p => p.Calm B
  | waits s => ∀ r, (s.next r).Calm B
  | _ => True

/-- **The dispatch of a thread has not yet let go of the sessions.** -/
def Opens (B : Behaviours β σ) (i : Nat) (c : EventContext) (before later : History β σ)
    (holder : Option Nat) : Thread β σ α → Prop
  | runs p => Open B i c before later holder p
  | task _ p => Open B i c before later holder p
  | _ => False

/-- What a thread is to run next is calm, if its program waits. -/
theorem calm_of_progress {p : HubProgram β σ γ} (hp : p.Calm B)
    (hb : p.call?.bind HubCall.begins? = none) {m' : Scheduler β σ} {q : Progress β σ γ}
    (h : m.Advanced B p m' q) : (∃ p', q = .running p' ∧ p'.Calm B) ∨
      (∃ s, q = .waiting s ∧ ∀ r, (s.next r).Calm B) ∨ ∃ r, q = .ended r := by
  cases h with
  | done a => exact .inr (.inr ⟨_, rfl⟩)
  | panic p => exact .inr (.inr ⟨_, rfl⟩)
  | served hs => exact .inl ⟨_, rfl, (Scheduler.Advanced.served hs).calm hp hb⟩
  | waited hk => exact .inl ⟨_, rfl, (Scheduler.Advanced.waited hk).calm hp hb⟩
  | waits => exact .inr (.inl ⟨_, rfl, Scheduler.calm_of_wait hp⟩)
  | inner => exact .inl ⟨_, rfl, Scheduler.Advanced.inner.calm hp hb⟩

/-- **A calm thread stays calm** in a step by which it does not begin a
dispatch. -/
theorem Calm.act (h : t.Calm B) (hb : t.call?.bind HubCall.begins? = none) :
    ((t.act B m).2 : Thread β σ α).Calm B := by
  cases t with
  | runs p =>
    show (ofProgress (m.advance B p).2).Calm B
    rcases calm_of_progress h hb (m.advanced B p) with ⟨p', hq, hp'⟩ | ⟨s, hq, hs⟩ | ⟨r, hq⟩
    · exact hq ▸ hp'
    · exact hq ▸ hs
    · exact hq ▸ trivial
  | task a p =>
    have ha := m.advanced B p
    show (ofTask a (m.advance B p) : _ × Thread β σ α).2.Calm B
    generalize m.advance B p = found at ha ⊢
    obtain ⟨m', q⟩ := found
    rcases calm_of_progress h hb ha with ⟨p', rfl, hp'⟩ | ⟨s, rfl, hs⟩ | ⟨r, rfl⟩
    · exact hp'
    · trivial
    · trivial
  | _ => exact h

/-- **A calm thread that begins a dispatch** is to take hold of the
sessions. -/
theorem Calm.begins (h : t.Calm B) {e : Event} (hb : t.call?.bind HubCall.begins? = some e)
    (hfree : holder ≠ some i) (before : History β σ) :
    t.exchange? m = some ⟨.start e, (m.hub.start e).1⟩ ∧
      (t.act B m).2.Opens B i (m.hub.start e).1.context before [] holder := by
  cases t with
  | runs p =>
    obtain ⟨next, f, rfl, hnext, hf⟩ := Program.Calm.of_begins h hb
    refine ⟨rfl, ?_⟩
    show Open B i _ before [] holder (next (m.hub.start e).1)
    rw [hnext]
    exact .begun hfree rfl (hf _)
  | task a p =>
    obtain ⟨next, f, rfl, hnext, hf⟩ := Program.Calm.of_begins h hb
    refine ⟨rfl, ?_⟩
    show Open B i _ before [] holder (next (m.hub.start e).1)
    rw [hnext]
    exact .begun hfree rfl (hf _)
  | _ => exact absurd hb (by simp [call?])

/-- A calm thread that begins no dispatch leaves it to others who has hold of
the sessions. -/
theorem Calm.holder_eq (h : t.Calm B) (hb : t.call?.bind HubCall.begins? = none) :
    t.call?.elim holder (HubCall.holder i holder) = holder := by
  cases t with
  | runs p => exact Program.Calm.holder_eq h hb i holder
  | task a p => exact Program.Calm.holder_eq h hb i holder
  | _ => rfl

/-! ## Threads with a dispatch that is open -/

/-- **A thread whose dispatch is open takes a step.** -/
theorem Opens.act (h : t.Opens B i c before later holder)
    (hm : m.hub.sessions.waiters.filter (!·.abandoned) = pending (before ++ later).deeds)
    (hquiet : ∀ w ∈ openings (before ++ later).deeds, w.Quiet B) :
    ∃ call r, t.exchange? m = some ⟨call, r⟩ ∧
      ((t.act B m).2.Opens B i c before (later ++ [(i, .made ⟨call, r⟩)]) (call.holder i holder) ∨
        HasOffered B i c before (later ++ [(i, .made ⟨call, r⟩)]) ∧ (t.act B m).2.Calm B ∧
          call.holder i holder = none) := by
  cases t with
  | runs p =>
    obtain ⟨call, r, q, hx, hq, hend⟩ := Open.step h hm hquiet
    refine ⟨call, r, hx, ?_⟩
    have hact : (act B m (runs p)).2 = runs q := congrArg ofProgress hq
    rw [hact]
    exact hend
  | task a p =>
    obtain ⟨call, r, q, hx, hq, hend⟩ := Open.step h hm hquiet
    refine ⟨call, r, hx, ?_⟩
    have hact : (act B m (task a p : Thread β σ α)).2 = task a q := by
      show (ofTask a ((m.advance B p).1, (m.advance B p).2)).2 = _
      rw [hq]
      rfl
    rw [hact]
    exact hend
  | _ => exact h.elim

theorem Opens.other (h : t.Opens B i c before later holder) (hj : j ≠ i)
    {o : Option (Occurrence β σ)} (hholder : holder' = some i ↔ holder = some i)
    (ho : holder = some i → ∀ d, o.bind (·.deed?) = some d → ∃ s, d = .abandoned s) :
    t.Opens B i c before (later ++ .on j o) holder' := by
  cases t with
  | runs p => exact Open.other h hj hholder ho
  | task a p => exact Open.other h hj hholder ho
  | _ => exact h.elim

/-- Such a thread runs a program that neither waits nor begins a dispatch. -/
theorem Opens.call? (h : t.Opens B i c before later holder) :
    ∃ call, t.call? = some call ∧ call.begins? = none ∧ ∀ w, call ≠ .user (.wait w) := by
  cases t with
  | runs p => exact Open.call? h
  | task a p => exact Open.call? h
  | _ => exact h.elim

/-! ## Tasks -/

/-- **Tasks stay calm**, if the thread is calm that takes a step, or it does not
wait. -/
theorem tasks_calm_act (ht : ∀ k ∈ m.tasks, ∀ p, k.GoesOn p → p.Calm B)
    (hcalm : t.Calm B ∨ ∃ call, t.call? = some call ∧ ∀ w, call ≠ .user (.wait w)) :
    ∀ k ∈ (t.act B m).1.tasks, ∀ p, k.GoesOn p → p.Calm B := by
  have hjob := fun job => Program.calm_runJob (B := B) m.hub.settings job
  cases t with
  | runs p => exact (m.advanced B p).tasks_in hjob ht
  | task a p =>
    have ha := m.advanced B p
    show ∀ k ∈ (ofTask a (m.advance B p) : _ × Thread β σ α).1.tasks, _
    generalize m.advance B p = found at ha ⊢
    obtain ⟨m', q⟩ := found
    have htasks := ha.tasks_in hjob ht
    cases q with
    | running q => exact htasks
    | waiting s =>
      intro k hk q hq
      rcases List.mem_append.mp hk with hk | hk
      · exact htasks k (List.mem_filter.mp hk).1 q hq
      · obtain rfl := List.mem_singleton.mp hk
        cases hq with
        | begins hfresh => exact absurd hfresh (by simp)
        | resumes r hs =>
          obtain rfl := TaskState.suspended.inj hs
          cases ha with
          | waits =>
            rcases hcalm with hcalm | ⟨call, hcall, hwait⟩
            · exact Scheduler.calm_of_wait hcalm r
            · exact absurd (Option.some.inj hcall).symm (hwait _)
    | ended r =>
      intro k hk
      rw [show (ofTask a (m', Progress.ended r) : _ × Thread β σ α).1.tasks = _ from
        (m'.wakes_complete a _).tasks] at hk
      exact htasks k (List.mem_filter.mp hk).1
  | _ => exact ht

end Thread

namespace Threads

variable {T T' : Threads β σ α} {x y : History β σ}

/-! ## Order -/

/-- **What was done to the sessions is on record**, and they tell it. -/
structure OnRecord (x : History β σ) (T : Threads β σ α) : Prop where
  orderly : Orderly x.deeds
  tells : T.shared.hub.sessions.Tells x.deeds
  /-- Sessions that were opened have identifiers that were drawn. -/
  drawn : ∀ w ∈ openings x.deeds, ∃ k < T.shared.hub.drawn, w.id = Id.ofEntropy k

/-- **Threads are in order** after what was seen of them. -/
structure InOrder (B : Behaviours β σ) (x : History β σ) (T : Threads β σ α) : Prop
    extends OnRecord x T where
  tasks : ∀ k ∈ T.shared.tasks, ∀ p, k.GoesOn p → p.Calm B
  /-- A thread is calm, or it has begun a dispatch that is open. -/
  threads : ∀ i, (T.thread i).Calm B ∧ T.holder ≠ some i ∨
    ∃ before e b later, x = before ++ (i, .made ⟨.start e, b⟩) :: later ∧
      (T.thread i).Opens B i b.context before later T.holder
  /-- A dispatch that has begun has offered its event, or it is open. -/
  dispatches : ∀ {before i e b later}, x = before ++ (i, .made ⟨.start e, b⟩) :: later →
    b.context.event = e ∧ (HasOffered B i b.context before later ∨
      (T.thread i).Opens B i b.context before later T.holder)

/-- Threads to which nothing has happened are in order. -/
theorem inOrder_fresh (registry : Registry β) (settings : DispatchSettings) (memory : σ) :
    InOrder B [] (fresh (.fresh registry settings memory) : Threads β σ α) where
  orderly := List.nodup_nil
  tells := Sessions.tells_empty
  drawn := fun w hw => absurd hw List.not_mem_nil
  tasks := fun k hk => absurd hk List.not_mem_nil
  threads := fun i => .inl ⟨trivial, by simp [fresh]⟩
  dispatches := fun hx => absurd hx (by simp)

/-- **What a step does to the sessions is put on record.** -/
theorem OnRecord.step (h : OnRecord x T) (hs : Step B T y T')
    (hroom : T'.shared.hub.drawn ≤ Number.twoTo 122) : OnRecord (x ++ y) T' := by
  obtain ⟨i, o, rfl, ht⟩ := hs.takes
  have hdrawn := ht.drawn_le
  have hlater : ∀ w ∈ openings x.deeds, ∃ k < T'.shared.hub.drawn, w.id = Id.ofEntropy k :=
    fun w hw => by
      obtain ⟨k, hk, hid⟩ := h.drawn w hw
      exact ⟨k, Nat.lt_of_lt_of_le hk hdrawn, hid⟩
  have hsessions := ht.sessions
  cases hd : o.bind (·.deed?) with
  | none =>
    rw [hd] at hsessions
    have hdeeds : History.deeds (x ++ .on i o) = x.deeds := by
      rw [History.deeds_append, History.deeds_on, hd]
      exact List.append_nil _
    exact ⟨hdeeds ▸ h.orderly, hdeeds ▸ h.tells.congr hsessions, hdeeds ▸ hlater⟩
  | some d =>
    rw [hd] at hsessions
    have hdeeds : History.deeds (x ++ .on i o) = x.deeds ++ [d] := by
      rw [History.deeds_append, History.deeds_on, hd]
      rfl
    have horderly : Orderly (x.deeds ++ [d]) := by
      refine orderly_append_singleton_iff.mpr ⟨h.orderly, fun w hw hmem => ?_⟩
      obtain ⟨hid, hlt⟩ := ht.opening hd hw
      obtain ⟨v, hv, hsame⟩ := List.mem_map.mp hmem
      obtain ⟨k, hk, hk'⟩ := h.drawn v hv
      -- the identifier is drawn now, and not before
      have := Id.ofEntropy_inj (by omega) (by omega) (hid.symm.trans (hsame.symm.trans hk'))
      omega
    refine ⟨hdeeds ▸ horderly, hdeeds ▸ (h.tells.apply horderly).congr hsessions,
      fun w hw => ?_⟩
    rw [hdeeds, openings_append_singleton] at hw
    rcases List.mem_append.mp hw with hw | hw
    · exact hlater w hw
    · obtain ⟨hid, hlt⟩ := ht.opening hd (Option.mem_toList.mp hw)
      exact ⟨_, hlt, hid⟩

/-- **What there is to show when one thread does something**: what becomes of
it, and of the dispatches that it has begun. -/
theorem InOrder.of_thread (h : InOrder B x T) {i : Nat} {o : Option (Occurrence β σ)}
    (hrecord : OnRecord (x ++ .on i o) T')
    (htasks : ∀ k ∈ T'.shared.tasks, ∀ p, k.GoesOn p → p.Calm B)
    (hothers : ∀ j, j ≠ i → T'.thread j = T.thread j ∧ (T'.holder = some j ↔ T.holder = some j) ∧
      (T.holder = some j → ∀ d, o.bind (·.deed?) = some d → ∃ s, d = .abandoned s))
    (hself : (T'.thread i).Calm B ∧ T'.holder ≠ some i ∨
      ∃ before e b later, x ++ .on i o = before ++ (i, .made ⟨.start e, b⟩) :: later ∧
        (T'.thread i).Opens B i b.context before later T'.holder)
    (hopen : ∀ {before e b later}, x = before ++ (i, .made ⟨.start e, b⟩) :: later →
      (T.thread i).Opens B i b.context before later T.holder →
      HasOffered B i b.context before (later ++ .on i o) ∨
        (T'.thread i).Opens B i b.context before (later ++ .on i o) T'.holder)
    (hbegins : ∀ e b, o = some (.made ⟨.start e, b⟩) →
      b.context.event = e ∧ (T'.thread i).Opens B i b.context x [] T'.holder) :
    InOrder B (x ++ .on i o) T' where
  toOnRecord := hrecord
  tasks := htasks
  threads := fun j => by
    by_cases hj : j = i
    · exact hj ▸ hself
    · obtain ⟨hthread, hholder, ho⟩ := hothers j hj
      rw [hthread]
      rcases h.threads j with ⟨hcalm, hfree⟩ | ⟨before, e, b, later, rfl, hopens⟩
      · exact .inl ⟨hcalm, fun he => hfree (hholder.mp he)⟩
      · exact .inr ⟨before, e, b, later ++ History.on i o, List.append_assoc ..,
          hopens.other (Ne.symm hj) hholder ho⟩
  dispatches := by
    intro before j e b later hx
    rcases History.append_on_eq hx with ⟨first, hfirst, rfl⟩ | ⟨rfl, rfl, ho, rfl⟩
    · obtain ⟨he, hoffered | hopens⟩ := h.dispatches hfirst
      · exact ⟨he, .inl (hoffered.append _)⟩
      · refine ⟨he, ?_⟩
        by_cases hj : j = i
        · subst hj
          exact hopen hfirst hopens
        · obtain ⟨hthread, hholder, hdeed⟩ := hothers j hj
          rw [hthread]
          exact .inr (hopens.other (Ne.symm hj) hholder hdeed)
    · exact (hbegins e b ho).imp_right .inr

/-- **What a thread does that runs no program** leaves threads in order: it can
take up a program that is calm, and sessions can be given up. -/
theorem InOrder.of_idle (h : InOrder B x T) {i : Nat} {o : Option (Occurrence β σ)}
    (hrecord : OnRecord (x ++ .on i o) T')
    (htasks : ∀ k ∈ T'.shared.tasks, k ∈ T.shared.tasks)
    (hothers : ∀ j, j ≠ i → T'.thread j = T.thread j) (hholder : T'.holder = T.holder)
    (hidle : (T.thread i).call? = none) (hcalm : (T'.thread i).Calm B)
    (ho : ∀ d, o.bind (·.deed?) = some d → ∃ s, d = .abandoned s)
    (hstart : ∀ e b, o ≠ some (.made ⟨.start e, b⟩)) : InOrder B (x ++ .on i o) T' := by
  have hno : ∀ {c before later}, ¬(T.thread i).Opens B i c before later T.holder := fun hopens => by
    obtain ⟨call, hcall, -⟩ := hopens.call?
    exact absurd (hidle.symm.trans hcall) (by simp)
  refine h.of_thread hrecord (fun k hk => h.tasks k (htasks k hk))
    (fun j hj => ⟨hothers j hj, by rw [hholder], fun _ => ho⟩) (.inl ⟨hcalm, ?_⟩)
    (fun _ hopens => absurd hopens hno) fun e b he => absurd he (hstart e b)
  rw [hholder]
  rcases h.threads i with ⟨-, hfree⟩ | ⟨before, e, b, later, -, hopens⟩
  · exact hfree
  · exact absurd hopens hno

/-- **A dispatch that is open goes on** when its thread takes a step, or it has
offered its event and lets go of the sessions. -/
theorem InOrder.opens_acted (h : InOrder B x T) (hquiet : ∀ w ∈ openings x.deeds, w.Quiet B)
    {i : Nat} {before later : History β σ} {e : Event} {b : Beginning β}
    (hx : x = before ++ (i, .made ⟨.start e, b⟩) :: later)
    (hopens : (T.thread i).Opens B i b.context before later T.holder) :
    ∃ y, (T.thread i).exchange? T.shared = some y ∧
      (((T.acted B i).thread i).Opens B i b.context before (later ++ [(i, .made y)])
          (T.acted B i).holder ∨
        HasOffered B i b.context before (later ++ [(i, .made y)]) ∧
          ((T.acted B i).thread i).Calm B ∧ (T.acted B i).holder = none) := by
  subst hx
  obtain ⟨call, r, hy, hend⟩ := hopens.act
    (h.tells.waiting.trans (congrArg pending History.deeds_of_start))
    (History.deeds_of_start ▸ hquiet)
  refine ⟨_, hy, ?_⟩
  rw [thread_acted_self, holder_acted (Thread.call?_of_exchange? hy)]
  exact hend

/-- **A dispatch that begins is open.** -/
theorem InOrder.begins_acted (h : InOrder B x T) {i : Nat} {e : Event}
    (hb : (T.thread i).call?.bind HubCall.begins? = some e) :
    (T.thread i).exchange? T.shared = some ⟨.start e, (T.shared.hub.start e).1⟩ ∧
      ((T.acted B i).thread i).Opens B i (T.shared.hub.start e).1.context x []
        (T.acted B i).holder := by
  rcases h.threads i with ⟨hcalm, hfree⟩ | ⟨before, e, b, later, -, hopens⟩
  · obtain ⟨hy, hopens⟩ := hcalm.begins (m := T.shared) hb hfree x
    rw [thread_acted_self, holder_acted (Thread.call?_of_exchange? hy)]
    exact ⟨hy, hopens⟩
  · obtain ⟨call, hcall, hno, -⟩ := hopens.call?
    rw [hcall] at hb
    exact absurd (hno.symm.trans hb) (by simp)

/-- **A thread that runs a program takes a step**, and threads stay in order. -/
theorem InOrder.act (h : InOrder B x T) {i : Nat}
    (hrecord : OnRecord (x ++ .on i (((T.thread i).exchange? T.shared).map .made)) (T.acted B i))
    (hquiet : ∀ w ∈ openings x.deeds, w.Quiet B) (hpermits : T.Permits i (T.thread i).call?) :
    InOrder B (x ++ .on i (((T.thread i).exchange? T.shared).map .made)) (T.acted B i) := by
  refine h.of_thread hrecord ?_
    (fun j hj => ⟨thread_acted_of_ne B T hj, ?_, fun hj' d hd => ?_⟩) ?_ ?_ ?_
  · refine Thread.tasks_calm_act h.tasks ?_
    rcases h.threads i with ⟨hcalm, -⟩ | ⟨before, e, b, later, -, hopens⟩
    · exact .inl hcalm
    · obtain ⟨call, hcall, -, hwait⟩ := hopens.call?
      exact .inr ⟨call, hcall, hwait⟩
  · cases hc : (T.thread i).call? with
    | none =>
      show (T.thread i).call?.elim T.holder _ = some j ↔ _
      rw [hc]
      exact Iff.rfl
    | some c =>
      rw [holder_acted hc]
      exact HubCall.holder_eq_some_iff hj fun hneeds hj' => hj (hpermits c hc hneeds j hj')
  · obtain ⟨o, ho, hd⟩ := Option.bind_eq_some_iff.mp hd
    obtain ⟨y, hy, rfl⟩ := Option.map_eq_some_iff.mp ho
    refine deed_of_spares (Bool.eq_false_iff.mpr fun hneeds => ?_) hd
    exact hj (hpermits y.call (Thread.call?_of_exchange? hy) hneeds j hj')
  · rcases h.threads i with ⟨hcalm, hfree⟩ | ⟨before, e, b, later, hx, hopens⟩
    · cases hb : (T.thread i).call?.bind HubCall.begins? with
      | none =>
        refine .inl ⟨(thread_acted_self B T i).symm ▸ hcalm.act hb, ?_⟩
        show (T.thread i).call?.elim T.holder _ ≠ some i
        rwa [hcalm.holder_eq hb]
      | some e =>
        obtain ⟨hy, hopens⟩ := h.begins_acted hb
        exact .inr ⟨x, e, _, [], by rw [hy]; rfl, hopens⟩
    · obtain ⟨y, hy, hopens | ⟨-, hcalm, hnobody⟩⟩ := h.opens_acted hquiet hx hopens
      · refine .inr ⟨before, e, b, later ++ [(i, .made y)], ?_, hopens⟩
        rw [hy, hx]
        exact List.append_assoc ..
      · exact .inl ⟨hcalm, by simp [hnobody]⟩
  · intro before e b later hx hopens
    obtain ⟨y, hy, hopens | ⟨hoffered, -, -⟩⟩ := h.opens_acted hquiet hx hopens
    · rw [hy]
      exact .inr hopens
    · rw [hy]
      exact .inl hoffered
  · intro e b ho
    obtain ⟨y, hy, he⟩ := Option.map_eq_some_iff.mp ho
    obtain rfl := Occurrence.made.inj he
    obtain ⟨hx, hopens⟩ := h.begins_acted (e := e)
      (congrArg (Option.bind · HubCall.begins?) (Thread.call?_of_exchange? hy))
    cases hx.symm.trans hy
    exact ⟨rfl, hopens⟩

/-- **Every step leaves threads in order.** -/
theorem InOrder.step (h : InOrder B x T) (hs : Step B T y T')
    (hroom : T'.shared.hub.drawn ≤ Number.twoTo 122)
    (hquiet : ∀ w ∈ openings x.deeds, w.Quiet B) : InOrder B (x ++ y) T' := by
  have hrecord := h.toOnRecord.step hs hroom
  have hcalm : ∀ {i m} {t : Thread β σ α}, t.Calm B → ((T.set i m t).thread i).Calm B := by
    intro i m t ht
    rwa [thread_set_self]
  have hothers : ∀ {i m} {t : Thread β σ α} j, j ≠ i → (T.set i m t).thread j = T.thread j :=
    fun j hj => T.thread_set_of_ne hj ..
  -- a reply to a wait gives up its session at most, and begins no dispatch
  have hwait : ∀ {w : Wait} {r : w.Reply} (d : SessionDeed β),
      (some (.made ⟨.user (.wait w), r⟩) : Option (Occurrence β σ)).bind (·.deed?) = some d →
      ∃ s, d = .abandoned s := fun d hd => deed_of_spares rfl hd
  have hstart : ∀ {w : Wait} {r : w.Reply} e b,
      (some (.made ⟨.user (.wait w), r⟩) : Option (Occurrence β σ)) ≠ some (.made ⟨.start e, b⟩) :=
    fun e b he =>
      absurd (congrArg Exchange.call (Occurrence.made.inj (Option.some.inj he))) (by simp)
  cases hs with
  | acts i hpermits => exact h.act hrecord hquiet hpermits
  | @resumes i s r m ht ha =>
    have hnext : ∀ r, (s.next r).Calm B := by
      rcases h.threads i with ⟨hnext, -⟩ | ⟨before, e, b, later, -, hopens⟩
      · rw [ht] at hnext
        exact hnext
      · rw [ht] at hopens
        exact hopens.elim
    exact h.of_idle hrecord (Scheduler.kept_answer? ha).tasks hothers rfl (by rw [ht]; rfl)
      (hcalm (hnext r)) hwait hstart
  | @givesUp i s ht =>
    refine h.of_idle hrecord (Scheduler.kept_drop _ s.wait).tasks hothers rfl
      (by rw [ht]; rfl) (hcalm trivial) ?_ (by simp)
    intro d hd
    cases hw : s.wait with
    | session s' t =>
      rw [hw] at hd
      exact ⟨s', (Option.some.inj hd).symm⟩
    | _ =>
      rw [hw] at hd
      exact absurd hd (by simp [Occurrence.deed?])
  | @begins i p ht hp =>
    rw [← show History.on i none = ([] : History β σ) from rfl] at hrecord ⊢
    exact h.of_idle hrecord (fun k hk => hk) hothers rfl (by rw [ht]; rfl)
      (hcalm hp) (by simp) (by simp)
  | @starts i k p ht hk _ hfresh =>
    rw [← show History.on i none = ([] : History β σ) from rfl] at hrecord ⊢
    exact h.of_idle hrecord (fun k hk => hk) hothers rfl (by rw [ht]; rfl)
      (hcalm (h.tasks k hk p (.begins hfresh))) (by simp) (by simp)
  | @goesOn i k s r m ht hk _ hstate ha =>
    exact h.of_idle hrecord (Scheduler.kept_answer? ha).tasks hothers rfl (by rw [ht]; rfl)
      (hcalm (h.tasks k hk _ (.resumes r hstate))) hwait hstart
  | looks i w ht =>
    refine h.of_idle hrecord (Scheduler.kept_poll _ w).tasks (fun _ _ => rfl) rfl (by rw [ht]; rfl)
      ?_ ?_ ?_
    · show (T.thread i).Calm B
      rw [ht]
      trivial
    · intro d hd
      obtain ⟨o, ho, hd⟩ := Option.bind_eq_some_iff.mp hd
      obtain ⟨r, -, rfl⟩ := Option.map_eq_some_iff.mp ho
      exact hwait d hd
    · intro e b ho
      obtain ⟨r, -, he⟩ := Option.map_eq_some_iff.mp ho
      exact hstart e b (congrArg some he)
  | rests hw _ =>
    rw [List.append_nil] at hrecord ⊢
    exact { h with
      toOnRecord := hrecord
      tasks := fun k hk => h.tasks k (hw.tasks ▸ hk) }

/-- **Threads stay in order**, as long as sessions are opened that can be asked,
and there are identifiers left for them. -/
theorem InOrder.run (h : InOrder B x T) (hr : Run B T y T')
    (hroom : T'.shared.hub.drawn ≤ Number.twoTo 122)
    (hquiet : ∀ w ∈ openings (x ++ y).deeds, w.Quiet B) : InOrder B (x ++ y) T' := by
  induction hr with
  | refl =>
    rw [List.append_nil]
    exact h
  | @step y z T₁ T₂ hrun hstep ih =>
    have hfirst : ∀ w ∈ openings (x ++ y).deeds, w.Quiet B := fun w hw => by
      refine hquiet w ?_
      rw [← List.append_assoc, History.deeds_append, openings, List.filterMap_append]
      exact List.mem_append_left _ hw
    have hle : T₁.shared.hub.drawn ≤ T₂.shared.hub.drawn := hstep.run.drawn_le
    rw [← List.append_assoc]
    exact (ih (Nat.le_trans hle hroom) hfirst).step hstep hroom hfirst

end Threads

end Switchboard
