import Mathlib.Data.List.Nodup
import Switchboard.Proofs.Hub.Promises
import Switchboard.Proofs.Hub.Waking

/-!
# Nobody is overlooked

`Scheduler.Attentive` says that nobody is overlooked. Every task that has not
begun is ready, and so is every task that waits for something that is there,
unless it has yielded and waits for the end of the round; and if what the
main program waits for is there, the main program is to have its turn. Every
step keeps it so (`Attentive.step`), whatever the programs do: whatever brings
about what somebody waits for wakes whoever does.

A handle that nobody has given out yet is not waited for in earnest, so
handles are attended to from the time they are given out: `H` is the sort of
handles in question.
-/

namespace Switchboard

variable {β σ α : Type}

/-! ## What is there -/

/-- Whether a wait is over at some time in any case. -/
def Wait.timed : Wait → Bool
  | .sleep _ => true
  | .session _ (some _) => true
  | _ => false

/-- The waits that are over in any case are those that have a deadline. -/
def Suspended.Timed (s : Suspended β σ α) : Prop := s.deadline.isSome = s.wait.timed

namespace Scheduler

variable {m m' : Scheduler β σ} {H : Handle → Prop} {P Q : Option Wait → Prop}
  {x : Option Handle}

/-- **What a wait is for is there**, whatever the time. -/
def Answers (H : Handle → Prop) (m : Scheduler β σ) : Wait → Prop
  | .handle a => H a ∧ m.hub.handles.result? a ≠ none
  | .session s _ => m.hub.sessions.status s ≠ .waiting
  | .idle => m.tasks = []
  | _ => False

/-- **A task can go on**: it has not begun, or what it waits for is there. -/
def Stirs (H : Handle → Prop) (m : Scheduler β σ) (k : Task β σ) : Prop :=
  match k.state with
  | .fresh _ => True
  | .suspended s => m.Answers H s.wait

theorem stirs_of_fresh {k : Task β σ} {p : HubProgram β σ EventResult} (hk : k.state = .fresh p) :
    m.Stirs H k := by
  unfold Stirs
  rw [hk]
  trivial

theorem stirs_iff_of_suspended {k : Task β σ} {s : Suspended β σ EventResult}
    (hk : k.state = .suspended s) : m.Stirs H k ↔ m.Answers H s.wait := by
  unfold Stirs
  rw [hk]

/-- Whoever goes on waiting waits for something that is not there. -/
theorem not_answers_of_reply? {deadline : Option Nat} {w : Wait}
    (h : m.reply? deadline w = none) : ¬m.Answers H w := by
  cases w with
  | yield => exact fun hw => hw
  | sleep ms => exact fun hw => hw
  | handle a =>
    rintro ⟨-, hw⟩
    obtain ⟨r, hr⟩ := Option.ne_none_iff_exists'.mp hw
    exact absurd h (by simp [reply?, hr])
  | session s t =>
    intro hw
    refine hw ?_
    simp only [reply?] at h
    split at h
    · exact absurd h (by simp)
    · exact absurd h (by simp)
    · assumption
  | idle =>
    intro hw
    exact absurd h (by simp [reply?, show m.tasks = [] from hw])

theorem isSome_deadline (m : Scheduler β σ) (w : Wait) : (m.deadline w).isSome = w.timed := by
  cases w with
  | session s t => cases t <;> rfl
  | _ => rfl

/-- A program is set aside when what it waits for is not there. -/
theorem waits_of_advance {B : Behaviours β σ} {p : HubProgram β σ α} {s : Suspended β σ α}
    (h : m.advance B p = (m', .waiting s)) :
    m' = m ∧ s.Timed ∧ m.reply? s.deadline s.wait = none := by
  cases p with
  | done a => exact absurd h (by simp [advance])
  | panic q => exact absurd h (by simp [advance])
  | call c next =>
    cases c with
    | user c =>
      cases c with
      | wait w =>
        simp only [advance] at h
        split at h
        · exact absurd h (by simp)
        · next hnone =>
          obtain ⟨rfl, hs⟩ := Prod.mk.inj h
          obtain rfl := Progress.waiting.inj hs
          exact ⟨rfl, m.isSome_deadline w, hnone⟩
      | _ => exact absurd h (by simp [advance])
    | _ => exact absurd h (by simp [advance])

/-! ## Nobody is overlooked -/

/-- **Nobody is overlooked but those whose waits are of a sort.** The task
with the handle `x` has its turn. -/
structure AttentiveBut (H : Handle → Prop) (P : Option Wait → Prop) (m : Scheduler β σ)
    (x : Option Handle) : Prop where
  distinct : (m.tasks.map (·.handle)).Nodup
  issued : ∀ a, H a → a.index < m.results.length
  timed : ∀ k ∈ m.tasks, ∀ s, k.state = .suspended s → s.Timed
  yielded : ∀ k ∈ m.tasks, some k.handle ≠ x → k.wait? = some .yield →
    k.handle ∈ m.ready ∨ k.handle ∈ m.deferred
  stirred : ∀ k ∈ m.tasks, some k.handle ≠ x → m.Stirs H k → k.handle ∈ m.ready ∨ P k.wait?
  main : ∀ w, m.mainWait = some w → m.Answers H w → m.mainReady = true ∨ P m.mainWait

/-- **Nobody is overlooked**, and all sessions that have stopped waiting are
looked at. -/
structure Attentive (H : Handle → Prop) (m : Scheduler β σ) (x : Option Handle) : Prop
    extends AttentiveBut H (fun _ => False) m x where
  settled : m.hub.sessions.settled = []

theorem attentive_fresh (hub : Hub β σ) (hs : hub.sessions.settled = []) :
    Attentive (fun _ => False) (fresh hub) none where
  distinct := List.nodup_nil
  issued := fun _ => False.elim
  timed := fun _ hk => absurd hk List.not_mem_nil
  yielded := fun _ hk => absurd hk List.not_mem_nil
  stirred := fun _ hk => absurd hk List.not_mem_nil
  main := fun _ hw => absurd hw (by simp [fresh])
  settled := hs

/-- A change after which what waits are for is there only where it was, or
where somebody is yet to be roused. -/
theorem AttentiveBut.change (h : AttentiveBut H P m x) (htasks : m'.tasks = m.tasks)
    (hready : m.ready ⊆ m'.ready) (hdeferred : ∀ a ∈ m.deferred, a ∈ m'.ready ∨ a ∈ m'.deferred)
    (hwait : m'.mainWait = m.mainWait) (hmain : m.mainReady = true → m'.mainReady = true)
    (hlen : m.results.length ≤ m'.results.length)
    (hanswers : ∀ w, m'.Answers H w → m.Answers H w ∨ Q (some w)) (hP : ∀ w, P w → Q w) :
    AttentiveBut H Q m' x where
  distinct := htasks ▸ h.distinct
  issued := fun a ha => Nat.lt_of_lt_of_le (h.issued a ha) hlen
  timed := htasks ▸ h.timed
  yielded := fun k hk hx hw => by
    rcases h.yielded k (htasks ▸ hk) hx hw with hr | hd
    · exact .inl (hready hr)
    · exact hdeferred _ hd
  stirred := fun k hk hx hs => by
    have hbefore : m.Stirs H k ∨ Q k.wait? := by
      unfold Stirs Task.wait? at *
      cases hstate : k.state with
      | fresh p => exact .inl trivial
      | suspended s =>
        rw [hstate] at hs
        exact hanswers _ hs
    rcases hbefore with hs | hQ
    · rcases h.stirred k (htasks ▸ hk) hx hs with hr | hP'
      · exact .inl (hready hr)
      · exact .inr (hP _ hP')
    · exact .inr hQ
  main := fun w hw ha => by
    rw [hwait] at hw ⊢
    rcases hanswers w ha with ha | hQ
    · rcases h.main w hw ha with hr | hP'
      · exact .inl (hmain hr)
      · exact .inr (hP _ hP')
    · exact .inr (hw ▸ hQ)

/-- Those who are yet to be roused are roused. -/
theorem AttentiveBut.rouse (h : AttentiveBut H P m x) (hr : Rouses P m m') :
    AttentiveBut H (fun _ => False) m' x := by
  have heq := hr.eq
  have htasks : m'.tasks = m.tasks := by rw [heq]
  have hwait : m'.mainWait = m.mainWait := by rw [heq]
  have hlater : AttentiveBut H P m' x := by
    refine h.change htasks hr.ready.subset (fun a ha => .inr ?_) hwait hr.mainReady ?_
      (fun w hw => .inl ?_) fun _ hw => hw
    · rw [heq]
      exact ha
    · rw [heq]
      exact Nat.le_refl _
    · rw [heq] at hw
      cases w <;> exact hw
  refine { hlater with stirred := fun k hk hx hs => ?_, main := fun w hw ha => ?_ }
  · rcases hlater.stirred k hk hx hs with hready | hP
    · exact .inl hready
    · exact .inl (hr.roused k (htasks ▸ hk) hP)
  · rcases hlater.main w hw ha with hready | hP
    · exact .inl hready
    · exact .inl (hr.main (hwait ▸ hP))

/-- Once all sessions that have stopped waiting are looked at, nobody is
overlooked. -/
theorem attentive_wakeSettled
    (h : AttentiveBut H (fun w => ∃ id ∈ m.hub.sessions.settled, waitsFor id w = true) m x) :
    Attentive H m.wakeSettled x := by
  have hr := rouses_foldl waitsFor m.hub.sessions.settled
    { m with hub := { m.hub with sessions := { m.hub.sessions with settled := [] } } }
  have hlooked : AttentiveBut H (fun w => ∃ id ∈ m.hub.sessions.settled, waitsFor id w = true)
      { m with hub := { m.hub with sessions := { m.hub.sessions with settled := [] } } } x :=
    h.change rfl (fun _ ha => ha) (fun _ ha => .inr ha) rfl (fun hm => hm) (Nat.le_refl _)
      (fun w hw => .inl (by cases w <;> exact hw)) fun _ hw => hw
  refine { hlooked.rouse hr with settled := ?_ }
  rw [m.wakes_wakeSettled.hub]

/-- A session of a wait that was there before, or that is settled. -/
theorem Answers.of_settles {h' : Hub β σ} (hs : m.hub.sessions.Settles h'.sessions)
    (hresults : m.results <+: h'.handles.results) (hissued : ∀ a, H a → a.index < m.results.length)
    {w : Wait} (hw : Answers H { m with hub := h' } w) :
    m.Answers H w ∨ ∃ id ∈ h'.sessions.settled, waitsFor id (some w) = true := by
  cases w with
  | yield => exact hw.elim
  | sleep ms => exact hw.elim
  | handle a =>
    obtain ⟨later, hlater⟩ := hresults
    refine .inl ⟨hw.1, ?_⟩
    have hsame : h'.handles.result? a = m.hub.handles.result? a := by
      rw [Handles.result?_eq, Handles.result?_eq, ← hlater,
        List.getElem?_append_left (hissued a hw.1)]
      rfl
    exact hsame ▸ hw.2
  | session s t =>
    by_cases hwaits : m.hub.sessions.status s = .waiting
    · refine .inr ⟨s, ?_, beq_self_eq_true s⟩
      by_contra hnot
      exact hw (hs.waiting s hwaits hnot)
    · exact .inl hwaits
  | idle => exact .inl hw

/-- **A call is served**, after which those whose sessions have stopped
waiting are yet to be roused. -/
theorem AttentiveBut.serve {h' : Hub β σ} (h : AttentiveBut H (fun _ => False) m x)
    (hs : m.hub.sessions.Settles h'.sessions) (hresults : m.results <+: h'.handles.results) :
    AttentiveBut H (fun w => ∃ id ∈ h'.sessions.settled, waitsFor id w = true)
      { m with hub := h' } x :=
  h.change rfl (fun _ ha => ha) (fun _ ha => .inr ha) rfl (fun hm => hm) hresults.length_le
    (fun _ hw => hw.of_settles hs hresults h.issued) fun _ hw => hw.elim

/-- A change of the hub that touches neither sessions nor results. -/
theorem Attentive.of_hub {h' : Hub β σ} (h : Attentive H m x)
    (hs : ∀ id, h'.sessions.status id = m.hub.sessions.status id)
    (hsettled : h'.sessions.settled = m.hub.sessions.settled)
    (hresults : h'.handles.results = m.results) : Attentive H { m with hub := h' } x := by
  have hlater : AttentiveBut H (fun _ => False) { m with hub := h' } x := by
    refine h.toAttentiveBut.change rfl (fun _ ha => ha) (fun _ ha => .inr ha) rfl (fun hm => hm)
      ?_ (fun w hw => .inl ?_) fun _ hw => hw
    · exact Nat.le_of_eq (congrArg List.length hresults).symm
    · cases w with
      | handle a =>
        refine ⟨hw.1, ?_⟩
        have hsame : h'.handles.result? a = m.hub.handles.result? a := by
          rw [Handles.result?_eq, Handles.result?_eq, hresults]
          rfl
        exact hsame ▸ hw.2
      | session s t => exact fun hwaits => hw ((hs s).trans hwaits)
      | _ => exact hw
  exact { hlater with settled := hsettled.trans h.settled }

theorem Attentive.of_reply? {deadline : Option Nat} {w : Wait} {r : w.Reply}
    (h : Attentive H m x) (hr : m.reply? deadline w = some (r, m')) : Attentive H m' x := by
  cases replies_of_reply? hr with
  | result _ => exact h.of_hub (fun _ => rfl) rfl (Handles.results_observe _ _)
  | timedOut _ _ => exact h.of_hub (Sessions.status_abandon _ _) rfl rfl
  | _ => exact h

theorem Attentive.drop (h : Attentive H m x) (w : Wait) : Attentive H (m.drop w) x := by
  unfold Scheduler.drop
  split
  · exact h.of_hub (Sessions.status_abandon _ _) rfl rfl
  · exact h

/-! ## Steps of a program -/

/-- A call of which the hub is told, and after which those are roused whose
sessions have stopped waiting. -/
theorem Attentive.wakeSettled {h' : Hub β σ} {c : HubCall β σ} {r : c.Reply}
    (h : Attentive H m x) (hs : m.hub.serve c = some (r, h'))
    (hresults : m.results <+: h'.handles.results) :
    Attentive H { m with hub := h' }.wakeSettled x :=
  attentive_wakeSettled (h.serve (Hub.settles_of_serve hs) hresults)

/-- More cells and tasks answer no wait. -/
theorem Answers.of_grows (hg : Grows m m') (hs : m'.hub.sessions = m.hub.sessions)
    (hissued : ∀ a, H a → a.index < m.results.length) {w : Wait} (hw : m'.Answers H w) :
    m.Answers H w := by
  cases w with
  | handle a => exact ⟨hw.1, hg.result?_eq (hissued a hw.1) ▸ hw.2⟩
  | session s t =>
    have hstatus : m'.hub.sessions.status s ≠ .waiting := hw
    rw [hs] at hstatus
    exact hstatus
  | idle =>
    have hempty : m'.tasks = [] := hw
    refine List.eq_nil_iff_forall_not_mem.mpr fun k hk => ?_
    exact absurd (hg.kept k hk) (hempty ▸ List.not_mem_nil)
  | yield => exact hw
  | sleep ms => exact hw

theorem Stirs.mono {k : Task β σ} (hk : m'.Stirs H k)
    (hanswers : ∀ w, m'.Answers H w → m.Answers H w) : m.Stirs H k := by
  unfold Stirs at *
  cases hstate : k.state with
  | fresh p => trivial
  | suspended s =>
    rw [hstate] at hk
    exact hanswers _ hk

/-- **A handler that is started is ready.** -/
theorem Attentive.spawn {B : Behaviours β σ} (h : Attentive H m x)
    (ht : ∀ k ∈ m.tasks, k.handle.index < m.results.length) (job : Job β)
    (next : Handle → HubProgram β σ α) :
    Attentive H (m.advance B (.call (.spawn job) next)).1 x := by
  have hg := m.grows_advance B (.call (.spawn job) next)
  have hanswers : ∀ w, (m.advance B (.call (.spawn job) next)).1.Answers H w → m.Answers H w :=
    fun w hw => hw.of_grows hg rfl h.issued
  have hlen : m.results.length = m.hub.handles.cells.length := List.length_map _
  -- a task is one that was there, or the new one
  have hcases : ∀ k ∈ (m.advance B (.call (.spawn job) next)).1.tasks, k ∈ m.tasks ∨
      k = ⟨(m.hub.handles.add none).1, .fresh (runJob B m.hub.settings job)⟩ := fun _ hk =>
    (List.mem_append.mp hk).imp_right List.mem_singleton.mp
  have hready : ∀ a ∈ m.ready, a ∈ (m.advance B (.call (.spawn job) next)).1.ready :=
    fun a ha => List.mem_append_left _ ha
  refine ⟨⟨?_, fun a ha => ?_, fun k hk s hs => ?_, fun k hk hx hw => ?_, fun k hk hx hs => ?_,
    fun w hw ha => ?_⟩, h.settled⟩
  · show (List.map Task.handle (m.tasks ++ [_])).Nodup
    rw [List.map_append]
    refine List.nodup_append.mpr ⟨h.distinct, List.nodup_singleton _, fun a ha b hb he => ?_⟩
    obtain ⟨k, hk, rfl⟩ := List.mem_map.mp ha
    rw [List.mem_singleton.mp hb] at he
    exact absurd (hlen ▸ he ▸ ht k hk) (Nat.lt_irrefl _)
  · exact Nat.lt_of_lt_of_le (h.issued a ha) hg.results.length_le
  · rcases hcases k hk with hk | rfl
    · exact h.timed k hk s hs
    · exact absurd hs (by simp)
  · rcases hcases k hk with hk | rfl
    · exact (h.yielded k hk hx hw).imp_left (hready _)
    · exact absurd hw (by simp [Task.wait?])
  · rcases hcases k hk with hk | rfl
    · exact .inl (hready _ ((h.stirred k hk hx (hs.mono hanswers)).resolve_right id))
    · exact .inl (List.mem_append_right _ (List.mem_singleton.mpr rfl))
  · exact h.main w hw (hanswers w ha)

/-- **A program that takes a step** overlooks nobody. -/
theorem Attentive.advance {B : Behaviours β σ} (h : Attentive H m x)
    (ht : ∀ k ∈ m.tasks, k.handle.index < m.results.length) (p : HubProgram β σ α) :
    Attentive H (m.advance B p).1 x := by
  have hg := m.grows_advance B p
  cases p with
  | done a => exact h
  | panic q => exact h
  | call c next =>
    cases c with
    | user c =>
      cases c with
      | request r =>
        -- what is behind the handles is not touched by looking at sessions
        have hresults : (m.advance B (.call (.user (.request r)) next)).1.results
            = (m.hub.answer r).2.handles.results := by
          unfold Scheduler.results
          rw [show (m.advance B (.call (.user (.request r)) next)).1
            = Scheduler.wakeSettled { m with hub := (m.hub.answer r).2 } from rfl,
            (wakes_wakeSettled _).hub]
        exact h.wakeSettled (c := .user (.request r)) rfl (hresults ▸ hg.results)
      | wait w =>
        simp only [Scheduler.advance]
        split
        · next hr => exact h.of_reply? hr
        · exact h
      | dispatch e => exact h
    | start e => exact h.of_hub (fun _ => rfl) rfl rfl
    | holdSessions => exact h
    | keepSessions ws => exact h.wakeSettled (c := .keepSessions ws) rfl (List.prefix_refl _)
    | loseSessions ws => exact h.wakeSettled (c := .loseSessions ws) rfl (List.prefix_refl _)
    | deliver s e => exact h.wakeSettled (c := .deliver s e) rfl (List.prefix_refl _)
    | record c o => exact h.of_hub (fun _ => rfl) rfl rfl
    | markTruncated c => exact h.of_hub (fun _ => rfl) rfl rfl
    | spawn job => exact h.spawn ht job next

/-! ## Turns -/

/-- Tasks are taken away, or set aside where they wait for something that is
not there. -/
theorem Attentive.setAside {a : Handle} {s : Suspended β σ EventResult}
    (h : Attentive H m (some a)) (hs : s.Timed) (hno : m.reply? s.deadline s.wait = none) :
    Attentive H (m.setAside a s) none := by
  have hcases : ∀ k ∈ (m.setAside a s).tasks,
      k ∈ m.tasks ∧ some k.handle ≠ some a ∨ k = ⟨a, .suspended s⟩ := by
    intro k hk
    rcases List.mem_append.mp hk with hk | hk
    · obtain ⟨hk, hne⟩ := List.mem_filter.mp hk
      exact .inl ⟨hk, fun he => bne_iff_ne.mp hne (Option.some.inj he)⟩
    · exact .inr (List.mem_singleton.mp hk)
  have hanswers : ∀ w, (m.setAside a s).Answers H w → m.Answers H w := by
    intro w hw
    cases w with
    | idle => exact absurd hw (List.append_ne_nil_of_right_ne_nil _ (List.cons_ne_nil _ _))
    | _ => exact hw
  refine ⟨⟨?_, h.issued, fun k hk s' hs' => ?_, fun k hk _ hw => ?_, fun k hk _ hstirs => ?_,
    fun w hw ha => h.main w hw (hanswers w ha)⟩, h.settled⟩
  · show (List.map Task.handle (m.tasks.filter (·.handle != a) ++ [_])).Nodup
    rw [List.map_append]
    refine List.nodup_append.mpr ⟨h.distinct.sublist (List.filter_sublist.map _),
      List.nodup_singleton _, fun b hb c hc he => ?_⟩
    obtain ⟨k, hk, rfl⟩ := List.mem_map.mp hb
    exact bne_iff_ne.mp (List.mem_filter.mp hk).2 (he.trans (List.mem_singleton.mp hc))
  · rcases hcases k hk with ⟨hk, -⟩ | rfl
    · exact h.timed k hk s' hs'
    · exact TaskState.suspended.inj hs' ▸ hs
  · rcases hcases k hk with ⟨hk, hne⟩ | rfl
    · refine (h.yielded k hk hne hw).imp_right fun hd => ?_
      unfold Scheduler.setAside
      split
      · exact List.mem_append_left _ hd
      · exact hd
    -- whoever yields is deferred
    · have hyield : s.wait = .yield := Option.some.inj hw
      refine .inr ?_
      unfold Scheduler.setAside
      rw [hyield]
      exact List.mem_append_right _ (List.mem_singleton.mpr rfl)
  · rcases hcases k hk with ⟨hk, hne⟩ | rfl
    · exact h.stirred k hk hne (hstirs.mono hanswers)
    · exact absurd (hanswers _ ((stirs_iff_of_suspended rfl).mp hstirs)) (not_answers_of_reply? hno)

/-- Those who wait for a task that has ended are roused. -/
theorem rouses_complete (m : Scheduler β σ) (a : Handle) (r : EventResult) :
    Rouses (fun w => w = some (.handle a) ∨ w = some .idle ∧ (m.withResult a r).tasks = [])
      (m.withResult a r) (m.complete a r) := by
  unfold complete
  simp only
  split
  · refine ((rouses_wakeWhere _ _).trans (rouses_wakeWhere _ _)).mono ?_
    rintro w (rfl | ⟨rfl, -⟩)
    · exact .inl (beq_self_eq_true a)
    · exact .inr rfl
  · next hne =>
    refine (rouses_wakeWhere _ _).mono ?_
    rintro w (rfl | ⟨-, hempty⟩)
    · exact beq_self_eq_true a
    · rw [(wakes_wakeWhere _ _).tasks] at hne
      exact absurd (List.isEmpty_iff.mpr hempty) hne

/-- **A task that ends** rouses those who wait for its result, and for the
end of the last task. -/
theorem Attentive.complete {a : Handle} (h : Attentive H m (some a)) (r : EventResult) :
    Attentive H (m.complete a r) none := by
  have hlen : (m.withResult a r).results.length = m.results.length :=
    Handles.length_results_complete _ a r
  have hmem : ∀ k ∈ (m.withResult a r).tasks, k ∈ m.tasks ∧ some k.handle ≠ some a := by
    intro k hk
    obtain ⟨hk, hne⟩ := List.mem_filter.mp hk
    exact ⟨hk, fun he => bne_iff_ne.mp hne (Option.some.inj he)⟩
  have hanswers : ∀ w, (m.withResult a r).Answers H w → m.Answers H w ∨
      (some w = some (.handle a) ∨ some w = some .idle ∧ (m.withResult a r).tasks = []) := by
    intro w hw
    cases w with
    | handle b =>
      by_cases hb : a = b
      · exact .inr (.inl (by rw [hb]))
      · refine .inl ⟨hw.1, ?_⟩
        have hsame : (m.withResult a r).hub.handles.result? b = m.hub.handles.result? b :=
          Handles.result?_complete_of_ne _ hb r
        exact hsame ▸ hw.2
    | idle => exact .inr (.inr ⟨rfl, hw⟩)
    | _ => exact .inl hw
  have hended : AttentiveBut H
      (fun w => w = some (.handle a) ∨ w = some .idle ∧ (m.withResult a r).tasks = [])
      (m.withResult a r) none := by
    refine ⟨h.distinct.sublist (List.filter_sublist.map _), fun b hb => hlen ▸ h.issued b hb,
      fun k hk => h.timed k (hmem k hk).1, fun k hk _ => h.yielded k (hmem k hk).1 (hmem k hk).2,
      fun k hk _ hs => ?_, fun w hw ha => ?_⟩
    · obtain ⟨hk, hne⟩ := hmem k hk
      unfold Stirs at hs
      cases hstate : k.state with
      | fresh p => exact .inl ((h.stirred k hk hne (stirs_of_fresh hstate)).resolve_right id)
      | suspended s =>
        rw [hstate] at hs
        have hwait : k.wait? = some s.wait := by rw [Task.wait?, hstate]
        rcases hanswers _ hs with ha | hP
        · have hstirs := (stirs_iff_of_suspended hstate).mpr ha
          exact .inl ((h.stirred k hk hne hstirs).resolve_right id)
        · exact .inr (hwait ▸ hP)
    · have hw' : m.mainWait = some w := hw
      rcases hanswers w ha with ha | hP
      · exact .inl ((h.main w hw' ha).resolve_right id)
      · exact .inr (show _ from hw ▸ hP)
  refine { hended.rouse (m.rouses_complete a r) with settled := ?_ }
  rw [(m.wakes_complete a r).hub]
  exact h.settled

/-- A task that has its turn and waits for something that is not there need
not be ready. -/
theorem Attentive.passOver {a : Handle} (h : Attentive H m (some a))
    (hk : ∀ k ∈ m.tasks, k.handle = a → ¬m.Stirs H k ∧ k.wait? ≠ some .yield) :
    Attentive H m none := by
  refine { h with yielded := fun k hmem _ hw => ?_, stirred := fun k hmem _ hs => ?_ }
  · by_cases ha : k.handle = a
    · exact absurd hw (hk k hmem ha).2
    · exact h.yielded k hmem (fun he => ha (Option.some.inj he)) hw
  · by_cases ha : k.handle = a
    · exact absurd hs (hk k hmem ha).1
    · exact h.stirred k hmem (fun he => ha (Option.some.inj he)) hs

/-- The task at the head of the queue is taken from it. -/
theorem Attentive.pop {a : Handle} {rest : List Handle} (h : Attentive H m none)
    (hready : m.ready = a :: rest) : Attentive H { m with ready := rest } (some a) := by
  have hrest : ∀ k : Task β σ, some k.handle ≠ some a → k.handle ∈ m.ready → k.handle ∈ rest := by
    intro k hne hk
    rw [hready] at hk
    exact (List.mem_cons.mp hk).resolve_left fun he => hne (congrArg some he)
  have hnone : ∀ k : Task β σ, some k.handle ≠ none := fun k => by simp
  refine { h with yielded := fun k hk hx hw => ?_, stirred := fun k hk hx hs => ?_ }
  · exact (h.yielded k hk (hnone k) hw).imp_left (hrest k hx)
  · exact (h.stirred k hk (hnone k) hs).imp_left (hrest k hx)

/-- The handle of the task whose turn it is. -/
def Turn.handle? : Turn β σ α → Option Handle
  | task h _ _ => some h
  | _ => none

/-- The main program, while it waits. -/
def Turn.main? : Turn β σ α → Option (Suspended β σ α)
  | task _ _ s => some s
  | nobody s => some s
  | _ => none

theorem Attentive.of_answer? {deadline : Option Nat} {w : Wait} {r : w.Reply}
    (h : Attentive H m x) (hr : m.answer? deadline w = some (r, m')) : Attentive H m' x := by
  rcases yields_or_reply?_of_answer? hr with ⟨-, rfl⟩ | hr
  · exact h
  · exact h.of_reply? hr

/-- Tasks are told apart by their handles. -/
theorem AttentiveBut.eq_of_handle (h : AttentiveBut H P m x) {k k' : Task β σ} (hk : k ∈ m.tasks)
    (hk' : k' ∈ m.tasks) (he : k.handle = k'.handle) : k = k' :=
  List.inj_on_of_nodup_map h.distinct hk hk' he

/-- **The task at the head of the queue has its turn**, and it is not
overlooked if it goes on waiting. -/
theorem Attentive.takeTurn {a : Handle} {rest : List Handle} (h : Attentive H m none)
    (hready : m.ready = a :: rest) (main : Suspended β σ α) :
    Attentive H (m.takeTurn a rest main).1 (m.takeTurn a rest main).2.handle? := by
  have hpop := h.pop hready
  unfold Scheduler.takeTurn
  simp only
  split
  · next hnone =>
    refine hpop.passOver fun k hk he => absurd (beq_iff_eq.mpr he) ?_
    exact List.find?_eq_none.mp hnone k hk
  · exact hpop
  · next s hfind =>
    have hmem := List.mem_of_find?_eq_some hfind
    have hhandle := handle_of_find? hfind
    rcases resume_cases { m with ready := rest } s with ⟨r, m', hr, hres⟩ | ⟨hyield, hno, hres⟩
    · rw [hres]
      exact hpop.of_answer? hr
    · rw [hres]
      refine hpop.passOver fun k hk he => ?_
      obtain rfl := hpop.eq_of_handle hk hmem (he.trans hhandle.symm)
      exact ⟨fun hs => not_answers_of_reply? hno ((stirs_iff_of_suspended rfl).mp hs),
        fun hw => hyield (Option.some.inj hw)⟩

theorem Attentive.withoutMain (h : Attentive H m x) : Attentive H { m with mainWait := none } x :=
  { h with main := fun _ hw => absurd hw (by simp) }

theorem Attentive.setMainAside (h : Attentive H m x) (limit : Option Nat) {s : Suspended β σ α}
    (hno : m.reply? s.deadline s.wait = none) : Attentive H (m.setMainAside limit s).1 x := by
  unfold Scheduler.setMainAside
  split
  · exact h.withoutMain.drop s.wait
  · refine { h with main := fun w hw ha => ?_ }
    obtain rfl := Option.some.inj hw
    exact absurd (by cases hs : s.wait <;> rw [hs] at ha <;> exact ha : m.Answers H s.wait)
      (not_answers_of_reply? hno)

theorem Attentive.mainTurn (h : Attentive H m none) (limit : Option Nat) (main : Suspended β σ α) :
    Attentive H (m.mainTurn limit main).1 none := by
  unfold Scheduler.mainTurn
  rcases m.resume_cases main with ⟨r, m', hr, hres⟩ | ⟨-, hno, hres⟩
  · rw [hres]
    exact (h.of_answer? hr).withoutMain
  · rw [hres]
    exact h.setMainAside limit hno

theorem Attentive.endRound (h : Attentive H m x) (main : Suspended β σ α) :
    Attentive H (m.endRound main) x := by
  obtain ⟨later, b, heq, hdeferred, -, hmain⟩ := m.endRound_eq main
  rw [heq]
  have hround : AttentiveBut H (fun _ => False)
      { m with ready := m.ready ++ later, deferred := [], mainReady := b } x :=
    h.toAttentiveBut.change rfl (fun _ ha => List.mem_append_left _ ha)
      (fun a ha => .inl (hdeferred a ha)) rfl (fun hm => hmain.mpr (.inl hm)) (Nat.le_refl _)
      (fun w hw => .inl (by cases w <;> exact hw)) fun _ hw => hw
  exact { hround with settled := h.settled }

theorem handle?_mainTurn (m : Scheduler β σ) (limit : Option Nat) (main : Suspended β σ α) :
    (m.mainTurn limit main).2.handle? = none := by
  have hset : ∀ m : Scheduler β σ, (m.setMainAside limit main).2.handle? = none := fun m => by
    rcases (m.setMainAside_eq limit main).2 with ht | ht
    · rw [ht]
      rfl
    · rw [ht]
      rfl
  unfold Scheduler.mainTurn
  split
  · rfl
  · exact hset _

theorem Attentive.nextTurn (h : Attentive H m none) (limit : Option Nat) (main : Suspended β σ α) :
    Attentive H (m.nextTurn limit main).1 (m.nextTurn limit main).2.handle? := by
  have hmain : ∀ m' : Scheduler β σ, Attentive H m' none →
      Attentive H (m'.mainTurn limit main).1 (m'.mainTurn limit main).2.handle? := by
    intro m' h'
    rw [handle?_mainTurn]
    exact h'.mainTurn limit main
  unfold Scheduler.nextTurn
  split
  · next a rest hready => exact h.takeTurn hready main
  · extract_lets yielded
    split
    · split
      · exact hmain _ (h.endRound main)
      · exact h.endRound main
    · split
      · exact hmain _ h
      · split
        · exact h.withoutMain.drop main.wait
        · next t _ =>
          have hclock : Attentive H { m with clock := max m.clock t } none :=
            { h.toAttentiveBut.change rfl (fun _ ha => ha) (fun _ ha => .inr ha) rfl (fun hm => hm)
                (Nat.le_refl _) (fun w hw => .inl (by cases w <;> exact hw)) fun _ hw => hw with
              settled := h.settled }
          simp only
          split
          · exact hmain _ (hclock.endRound main)
          · exact hclock.endRound main

/-- **Every step overlooks nobody.** -/
theorem Attentive.step {B : Behaviours β σ} {limit : Option Nat} {t : Turn β σ α}
    (h : Attentive H m t.handle?) (ht : Tidy m t.task?) :
    Attentive H (m.step B limit t).1 (m.step B limit t).2.handle? := by
  cases t with
  | main p =>
    have ha : Attentive H (m.advance B p).1 none := h.advance ht.tasks p
    simp only [Scheduler.step]
    split
    · next hp =>
      rw [hp] at ha
      exact ha
    · next m₁ s hp =>
      obtain ⟨rfl, -, hno⟩ := waits_of_advance hp
      rcases (m₁.setMainAside_eq limit s).2 with ht | ht
      · rw [ht]
        exact h.setMainAside limit hno
      · rw [ht]
        exact h.setMainAside limit hno
    · next hp =>
      rw [hp] at ha
      exact ha
  | task a p main =>
    have ha : Attentive H (m.advance B p).1 (some a) := h.advance ht.tasks p
    simp only [Scheduler.step]
    split
    · next hp =>
      rw [hp] at ha
      exact ha
    · next hp =>
      obtain ⟨rfl, hs, hno⟩ := waits_of_advance hp
      exact h.setAside hs hno
    · next hp =>
      rw [hp] at ha
      exact ha.complete _
  | nobody main => exact h.nextTurn limit main
  | ended r => exact h
  | stuck => exact h

/-! ## The main program -/

theorem mainWait_wakeSettled (m : Scheduler β σ) : m.wakeSettled.mainWait = m.mainWait := by
  rw [show m.wakeSettled = _ from (rouses_foldl waitsFor m.hub.sessions.settled _).eq]

theorem mainWait_reply? {deadline : Option Nat} {w : Wait} {r : w.Reply}
    (h : m.reply? deadline w = some (r, m')) : m'.mainWait = m.mainWait := by
  cases replies_of_reply? h <;> rfl

theorem mainWait_advance (B : Behaviours β σ) (m : Scheduler β σ) (p : HubProgram β σ α) :
    (m.advance B p).1.mainWait = m.mainWait := by
  cases p with
  | call c next =>
    cases c with
    | user c =>
      cases c with
      | request r => exact mainWait_wakeSettled _
      | wait w =>
        simp only [advance]
        split
        · next h => exact mainWait_reply? h
        · rfl
      | dispatch e => rfl
    | keepSessions ws => exact mainWait_wakeSettled _
    | loseSessions ws => exact mainWait_wakeSettled _
    | deliver s e => exact mainWait_wakeSettled _
    | _ => rfl
  | _ => rfl

/-- What the main program waits for is known while it waits. -/
def KnowsMain (found : Scheduler β σ × Turn β σ α) : Prop :=
  ∀ s, found.2.main? = some s → found.1.mainWait = some s.wait ∧ s.Timed

theorem knowsMain_of_main?_eq_none {found : Scheduler β σ × Turn β σ α}
    (h : found.2.main? = none) : KnowsMain found :=
  fun _ hs => absurd (h.symm.trans hs) (by simp)

theorem knowsMain_of_main? {found : Scheduler β σ × Turn β σ α} {main : Suspended β σ α}
    (h : found.2.main? = some main) (hwait : found.1.mainWait = some main.wait)
    (hmain : main.Timed) : KnowsMain found := by
  intro s hs
  obtain rfl := Option.some.inj (h.symm.trans hs)
  exact ⟨hwait, hmain⟩

theorem knowsMain_setMainAside (m : Scheduler β σ) (limit : Option Nat) {s : Suspended β σ α}
    (hs : s.Timed) : KnowsMain (m.setMainAside limit s) := by
  unfold setMainAside
  split
  · exact knowsMain_of_main?_eq_none rfl
  · exact knowsMain_of_main? rfl rfl hs

theorem knowsMain_mainTurn (m : Scheduler β σ) (limit : Option Nat) {main : Suspended β σ α}
    (hmain : main.Timed) : KnowsMain (m.mainTurn limit main) := by
  unfold mainTurn
  rcases m.resume_cases main with ⟨r, m', -, hres⟩ | ⟨-, -, hres⟩
  · rw [hres]
    exact knowsMain_of_main?_eq_none rfl
  · rw [hres]
    exact m.knowsMain_setMainAside limit hmain

theorem knowsMain_takeTurn (m : Scheduler β σ) (a : Handle) (rest : List Handle)
    {main : Suspended β σ α} (hwait : m.mainWait = some main.wait) (hmain : main.Timed) :
    KnowsMain (m.takeTurn a rest main) := by
  unfold takeTurn
  simp only
  split
  · exact knowsMain_of_main? rfl hwait hmain
  · exact knowsMain_of_main? rfl hwait hmain
  · next s _ =>
    rcases resume_cases { m with ready := rest } s with ⟨r, m', hr, hres⟩ | ⟨-, -, hres⟩
    · rw [hres]
      have hsame : m'.mainWait = m.mainWait := by
        rcases yields_or_reply?_of_answer? hr with ⟨-, rfl⟩ | hr
        · rfl
        · exact (mainWait_reply? hr).trans rfl
      exact knowsMain_of_main? rfl (hsame.trans hwait) hmain
    · rw [hres]
      exact knowsMain_of_main? rfl hwait hmain

theorem knowsMain_nextTurn (m : Scheduler β σ) (limit : Option Nat) {main : Suspended β σ α}
    (hwait : m.mainWait = some main.wait) (hmain : main.Timed) :
    KnowsMain (m.nextTurn limit main) := by
  have hround : ∀ m' : Scheduler β σ, (m'.endRound main).mainWait = m'.mainWait := fun m' => by
    obtain ⟨later, b, heq, -⟩ := m'.endRound_eq main
    rw [heq]
  unfold nextTurn
  split
  · exact m.knowsMain_takeTurn _ _ hwait hmain
  · extract_lets yielded
    split
    · split
      · exact knowsMain_mainTurn _ limit hmain
      · exact knowsMain_of_main? rfl ((hround m).trans hwait) hmain
    · split
      · exact m.knowsMain_mainTurn limit hmain
      · split
        · exact knowsMain_of_main?_eq_none rfl
        · simp only
          split
          · exact knowsMain_mainTurn _ limit hmain
          · exact knowsMain_of_main? rfl ((hround _).trans hwait) hmain

/-- **Nobody is overlooked, whoever has the turn.** -/
structure Alert (H : Handle → Prop) (m : Scheduler β σ) (t : Turn β σ α) : Prop where
  attentive : Attentive H m t.handle?
  tidy : Tidy m t.task?
  main : KnowsMain (m, t)

theorem alert_main (h : Attentive H m none) (ht : Tidy m none) (p : HubProgram β σ α) :
    m.Alert H (.main p) :=
  ⟨h, ht, knowsMain_of_main?_eq_none rfl⟩

section Steps

variable {B : Behaviours β σ} {limit : Option Nat} {t : Turn β σ α}

theorem Alert.step (B : Behaviours β σ) (limit : Option Nat) (h : m.Alert H t) :
    (m.step B limit t).1.Alert H (m.step B limit t).2 := by
  refine ⟨h.attentive.step h.tidy, lasting_tidy.step (dealt B limit m t) h.tidy, ?_⟩
  cases t with
  | main p =>
    simp only [Scheduler.step]
    split
    · exact knowsMain_of_main?_eq_none rfl
    · next m₁ s hp =>
      obtain ⟨-, hs, -⟩ := waits_of_advance hp
      exact m₁.knowsMain_setMainAside limit hs
    · exact knowsMain_of_main?_eq_none rfl
  | task a p main =>
    obtain ⟨hmain, htimed⟩ := h.main main rfl
    have hwait := (m.mainWait_advance B p).trans hmain
    simp only [Scheduler.step]
    split
    · next hp =>
      rw [hp] at hwait
      exact knowsMain_of_main? rfl hwait htimed
    · next hp =>
      rw [hp] at hwait
      exact knowsMain_of_main? rfl hwait htimed
    · next m₁ r hp =>
      rw [hp] at hwait
      refine knowsMain_of_main? rfl ?_ htimed
      rw [(m₁.rouses_complete a (asFailure r)).eq]
      exact hwait
  | nobody main =>
    obtain ⟨hmain, htimed⟩ := h.main main rfl
    exact m.knowsMain_nextTurn limit hmain htimed
  | ended r => exact knowsMain_of_main?_eq_none rfl
  | stuck => exact knowsMain_of_main?_eq_none rfl

/-- **So it is after any number of steps.** -/
theorem Alert.steps (B : Behaviours β σ) (limit : Option Nat) (h : m.Alert H t) (n : Nat) :
    (m.steps B limit n t).1.Alert H (m.steps B limit n t).2 := by
  induction n generalizing m t with
  | zero => exact h
  | succ n ih =>
    rw [steps_succ]
    exact ih (h.step B limit)

end Steps

/-- A handle has been given out, and there is no result behind it. -/
def Owes (m : Scheduler β σ) (a : Handle) : Prop :=
  a.index < m.results.length ∧ m.hub.handles.result? a = none

/-- Handles behind which there is no result can be attended to. -/
theorem Attentive.attend {H' : Handle → Prop} (h : Attentive H m x)
    (hH : ∀ a, H' a → H a ∨ m.Owes a) : Attentive H' m x := by
  have hanswers : ∀ w, m.Answers H' w → m.Answers H w := by
    intro w hw
    cases w with
    | handle b =>
      obtain ⟨hb, hresult⟩ := hw
      rcases hH b hb with hb | hb
      · exact ⟨hb, hresult⟩
      · exact absurd hb.2 hresult
    | _ => exact hw
  refine { h with
    issued := fun a ha => (hH a ha).elim (h.issued a) And.left
    stirred := fun k hk hx hs => h.stirred k hk hx ?_
    main := fun w hw ha => h.main w hw (hanswers w ha) }
  unfold Stirs at *
  cases hstate : k.state with
  | fresh p => trivial
  | suspended s =>
    rw [hstate] at hs
    exact hanswers _ hs

/-! ## Programs that run to their ends -/

/-- The main program has ended, or has been given up. -/
def Turn.Finished : Turn β σ α → Prop
  | ended _ => True
  | stuck => True
  | _ => False

theorem Turn.Finished.handle? {t : Turn β σ α} (h : t.Finished) : t.handle? = none := by
  cases t with
  | task a p main => exact h.elim
  | _ => rfl

/-- **What a scheduler becomes** when programs run that come to their ends,
in turns with tasks or on threads of their own, and when time passes and it is
looked at, in whatever order. -/
inductive Onward (m : Scheduler β σ) : Scheduler β σ → Prop
  | now : Onward m m
  | run {α : Type} {m' : Scheduler β σ} (B : Behaviours β σ) (patience : Option Nat)
      (p : HubProgram β σ α) : Onward m m' →
      (m'.steps B (patience.map (m'.clock + ·)) stepLimit (.main p)).2.Finished →
      Onward m (m'.run B patience p).2
  | runAlone {α : Type} {m' : Scheduler β σ} (B : Behaviours β σ) (fuel : Nat)
      (p : HubProgram β σ α) : Onward m m' → Onward m (m'.runAlone B fuel p).2
  | elapse {m' : Scheduler β σ} (milliseconds : Nat) :
      Onward m m' → Onward m (m'.elapse milliseconds)
  | poll {m' : Scheduler β σ} (w : Wait) : Onward m m' → Onward m (m'.poll w).2

theorem Onward.later (h : Onward m m') : Later m m' := by
  induction h with
  | now => exact .now
  | run B patience p _ _ ih => exact .run B patience p ih
  | runAlone B fuel p _ ih => exact .runAlone B fuel p ih
  | elapse ms _ ih => exact .elapse ms ih
  | poll w _ ih => exact .poll w ih

theorem Onward.trans {m'' : Scheduler β σ} (h₁ : Onward m m') (h₂ : Onward m' m'') :
    Onward m m'' := by
  induction h₂ with
  | now => exact h₁
  | run B patience p _ hfinished ih => exact .run B patience p ih hfinished
  | runAlone B fuel p _ ih => exact .runAlone B fuel p ih
  | elapse ms _ ih => exact .elapse ms ih
  | poll w _ ih => exact .poll w ih

/-- **Nobody is overlooked later.** -/
theorem Onward.attentive (hl : Onward m m') (h : Attentive H m none) (ht : Tidy m none) :
    Attentive H m' none := by
  induction hl with
  | now => exact h
  | @run _ m₁ B patience p hl hover ih =>
    have ha := (alert_main ih (lasting_tidy.later ht hl.later) p).steps B
      (patience.map (m₁.clock + ·)) stepLimit
    rw [snd_run]
    exact hover.handle? ▸ ha.attentive
  | runAlone B fuel p hl ih =>
    exact (of_runAlone (P := fun m => Attentive H m none ∧ Tidy m none)
      (fun p h => ⟨h.1.advance h.2.tasks p, h.2.grow (grows_advance B _ p)⟩)
      (fun w h => ⟨h.1.drop w, h.2.grow (grows_drop _ w)⟩) fuel p
      ⟨ih, lasting_tidy.later ht hl.later⟩).1
  | elapse ms hl ih =>
    exact { ih.toAttentiveBut.change rfl (fun _ ha => ha) (fun _ ha => .inr ha) rfl (fun hm => hm)
        (Nat.le_refl _) (fun w hw => .inl (by cases w <;> exact hw)) fun _ hw => hw with
      settled := ih.settled }
  | poll w hl ih =>
    unfold Scheduler.poll
    split
    · next hr => exact ih.of_reply? hr
    · exact ih

end Scheduler

end Switchboard
