import Switchboard.Proofs.Hub.Queue

/-!
# Whoever waits goes on

Where tasks halt, the main program goes on, unless the scheduler gives it up
because nothing is left that could ever wake anybody
(`Alert.main_goes_on`). So whoever waits for a session that has received an
event, or was closed, goes on and is told so (`Alert.over_goes_on`), and whoever
waits for the result of a handler gets it, unless that handler itself waits
without end for something that does not come (`awaiting_goes_on`).
-/

namespace Switchboard

variable {β σ α : Type}

/-- Waits for the result behind a handle. -/
def awaiting (h : Handle) : HubProgram β σ EventResult := .lift (.wait (.handle h))

/-- A wait that need not be over at any time. -/
def Wait.Endless (w : Wait) : Prop := w.timed = false ∧ w ≠ .yield

namespace Scheduler

variable {B : Behaviours β σ} {limit : Option Nat} {m m' : Scheduler β σ} {t : Turn β σ α}
  {H : Handle → Prop} {x : Option Handle} {main : Suspended β σ α}

/-! ## The main program -/

/-- The main program waits on while a task has its turn. -/
theorem main?_step_task (a : Handle) (p : HubProgram β σ EventResult) (main : Suspended β σ α) :
    (m.step B limit (.task a p main)).2.main? = some main := by
  simp only [step]
  split <;> rfl

/-- **While the main program waits**, it goes on or is given up at some time, or
a task has the turn, and leaves less to be done. -/
theorem Alert.hands_turn (B : Behaviours β σ) (limit : Option Nat) (h : m.Alert H (.nobody main))
    (hhalt : m.Halting B none) :
    ∃ n m', m.steps B limit n (.nobody main) = (m', .nobody main) ∧
      (((∃ r, (m'.nextTurn limit main).2 = .main (main.next r) ∧
        (m'.nextTurn limit main).1.Told main.wait r) ∨
      (m'.nextTurn limit main).2 = .stuck) ∨
      ∃ a p, (m'.nextTurn limit main).2 = .task a p main ∧
        Lighter B m.hub.settings ((m'.nextTurn limit main).1.load (some (a, p)))
          (m.load none)) := by
  obtain ⟨m₁, ⟨n, hn, htasks⟩, hgoes⟩ := h.goes B limit
  have hpick : ∀ {k : Task β σ} {p : HubProgram β σ EventResult} {m₂ : Scheduler β σ},
      k ∈ m₁.tasks → k.GoesOn p → m₂.tasks = m₁.tasks →
      Lighter B m.hub.settings (m₂.load (some (k.handle, p))) (m.load none) := fun hk hp ht =>
    h.lighter_of_goesOn hhalt (htasks ▸ hk) hp (ht.trans htasks)
  refine ⟨n, m₁, hn, ?_⟩
  have hhanded := m₁.handed limit main
  generalize m₁.nextTurn limit main = found at hhanded hgoes ⊢
  obtain ⟨m₂, t₂⟩ := found
  cases hhanded with
  | main htold => exact .inl (.inl ⟨_, rfl, htold⟩)
  | begins hk hstate ht => exact .inr ⟨_, _, rfl, hpick hk (.begins hstate) ht⟩
  | resumes hk hstate ht _ => exact .inr ⟨_, _, rfl, hpick hk (.resumes _ hstate) ht⟩
  | nobody _ => exact hgoes.elim
  | stuck => exact .inl (.inr rfl)

/-- **Where tasks halt, the main program goes on** with a true reply, or it is
given up. -/
theorem Alert.main_goes_on (B : Behaviours β σ) (limit : Option Nat) (h : m.Alert H t)
    (hmain : t.main? = some main)
    (hhalt : m.Halting B t.task?) :
    ∃ n m', m.steps B limit n t = (m', .nobody main) ∧
      ((∃ r, (m'.nextTurn limit main).2 = .main (main.next r) ∧
        (m'.nextTurn limit main).1.Told main.wait r) ∨
      (m'.nextTurn limit main).2 = .stuck) := by
  generalize hload : m.load t.task? = work
  have hacc := acc_load hhalt
  rw [hload] at hacc
  generalize hs : m.hub.settings = s at hacc
  induction hacc generalizing m t with
  | intro work _ ih =>
    subst hload
    subst hs
    cases t with
    | main p => exact absurd hmain (by simp [Turn.main?])
    | ended r => exact absurd hmain (by simp [Turn.main?])
    | stuck => exact absurd hmain (by simp [Turn.main?])
    | task a p main' =>
      obtain rfl : main' = main := Option.some.inj hmain
      have hp : Acc (Work.Leaves B m.hub.settings) (.runs p) :=
        hhalt _ (Multiset.mem_add.mpr (.inr (Multiset.mem_singleton_self _)))
      have hl := lighter_task limit main' h.tidy hp
      have hset := (lasting_settings m.hub.settings).step (dealt B limit m (.task a p main')) rfl
      obtain ⟨n, m', hn, hend⟩ := ih _ hl (h.step B limit) (main?_step_task a p main')
        (hhalt.of_lighter hset hl) rfl hset
      exact ⟨n + 1, m', by rw [steps_succ, hn], hend⟩
    | nobody main' =>
      obtain rfl : main' = main := Option.some.inj hmain
      obtain ⟨n, m₁, hn, hend | ⟨a, p, hturn, hl⟩⟩ := h.hands_turn B limit hhalt
      · exact ⟨n, m₁, hn, hend⟩
      · have hnext : m.steps B limit (n + 1) (.nobody main') = m₁.nextTurn limit main' := by
          rw [steps_add, hn]
          rfl
        have h₂ := h.steps B limit (n + 1)
        have hset := (lasting_settings m.hub.settings).steps B limit (n + 1)
          (t := .nobody main') rfl
        rw [hnext] at h₂ hset
        rw [hturn] at h₂
        obtain ⟨n', m', hn', hend⟩ := ih _ hl h₂ rfl (hhalt.of_lighter hset hl) rfl hset
        exact ⟨n + 1 + n', m', by rw [steps_add, hnext, hturn, hn'], hend⟩

/-! ## Sessions that are over -/

/-- **A session is over**, and this is what whoever waits for it is told: it has
received an event, or it was closed. -/
inductive Over (m : Scheduler β σ) (s : Id) : Except SessionError Event → Prop
  | received {e : Event} : m.hub.sessions.status s = .received e → Over m s (.ok e)
  | closed : m.hub.sessions.status s = .closed → Over m s (.error (.closed s))

section Over

variable {s : Id} {timeout : Option Timeout} {deadline : Option Nat}
  {e : Except SessionError Event}

/-- Nobody has to wait for it. -/
theorem Over.status_ne (h : m.Over s e) : m.hub.sessions.status s ≠ .waiting := by
  cases h with
  | received he => simp [he]
  | closed hc => simp [hc]

/-- What is told of a session that is over is true. -/
theorem Over.eq_of_told (h : m.Over s e) {r : (Wait.session s timeout).Reply}
    (hr : m.Told (.session s timeout) r) : r = e := by
  cases hr with
  | received hs =>
    cases h with
    | received he => exact congrArg Except.ok (SessionStatus.received.inj (hs.symm.trans he))
    | closed hc => exact absurd (hs.symm.trans hc) (by simp)
  | closed hs =>
    cases h with
    | received he => exact absurd (hs.symm.trans he) (by simp)
    | closed hc => rfl
  | timedOut hs => exact absurd hs h.status_ne

/-- A session that has received an event is over for good. -/
theorem over_steps_of_received (B : Behaviours β σ) (limit : Option Nat) (t : Turn β σ α)
    {e : Event} (h : m.hub.sessions.status s = .received e) (n : Nat) :
    (m.steps B limit n t).1.Over s (.ok e) :=
  .received (Sessions.status_of_kept h (received_steps B limit n m t))

/-- So is one that was closed, as long as there are enough identifiers for the
sessions that are opened later. -/
theorem over_steps_of_closed (B : Behaviours β σ) (limit : Option Nat) (t : Turn β σ α)
    (h : m.hub.sessions.status s = .closed) (hs : m.Drawn s) {n : Nat}
    (hroom : (m.steps B limit n t).1.hub.drawn ≤ Number.twoTo 122) :
    (m.steps B limit n t).1.Over s (.error (.closed s)) := by
  obtain ⟨hreceived, hwaiters⟩ := Sessions.status_eq_closed_iff.mp h
  have hgone := within_steps ⟨hwaiters, hreceived⟩ n t (hs.draws hroom)
  exact .closed (Sessions.status_eq_closed_iff.mpr ⟨hgone.received, hgone.waiters⟩)

/-- A task that waits for a session which is over is ready. -/
theorem Attentive.ready_of_over (h : Attentive H m x) {k : Task β σ} (hk : k ∈ m.tasks)
    (hx : some k.handle ≠ x)
    {next : (Wait.session s timeout).Reply → HubProgram β σ EventResult}
    (hs : k.state = .suspended ⟨.session s timeout, deadline, next⟩) (he : m.Over s e) :
    k.handle ∈ m.ready :=
  (h.stirred k hk hx ((stirs_iff_of_suspended hs).mpr he.status_ne)).resolve_right id

/-- **In its turn it is told so.** -/
theorem step_tells (hd : (m.tasks.map (·.handle)).Nodup) {k : Task β σ} (hk : k ∈ m.tasks)
    {next : (Wait.session s timeout).Reply → HubProgram β σ EventResult}
    (hs : k.state = .suspended ⟨.session s timeout, deadline, next⟩) (he : m.Over s e)
    {rest : List Handle} (hready : m.ready = k.handle :: rest) :
    m.step B limit (.nobody main) = ({ m with ready := rest }, .task k.handle (next e) main) := by
  have hfind := find?_of_mem hd hk
  obtain ⟨a, state⟩ := k
  obtain rfl : state = _ := hs
  cases he with
  | received he => simp only [step, nextTurn, hready, takeTurn, hfind, resume, reply?, he]
  | closed hc => simp only [step, nextTurn, hready, takeTurn, hfind, resume, reply?, hc]

/-- **A task that waits for a session which is over goes on**, where tasks halt
and the main program waits, and is told what has become of it. -/
theorem Alert.over_goes_on (B : Behaviours β σ) (limit : Option Nat) (h : m.Alert H t)
    (hmain : t.main? = some main) (hhalt : m.Halting B t.task?) {k : Task β σ} (hk : k ∈ m.tasks)
    (hx : some k.handle ≠ t.handle?)
    {next : (Wait.session s timeout).Reply → HubProgram β σ EventResult}
    (hs : k.state = .suspended ⟨.session s timeout, deadline, next⟩)
    (he : ∀ n, (m.steps B limit n t).1.Over s e) :
    ∃ n m', m.steps B limit n t = (m', .task k.handle (next e) main) := by
  obtain ⟨n, m', rest, hn, hk', hfront⟩ := h.gets_turn B limit hmain hhalt hk hx
    (h.attentive.ready_of_over hk hx hs (he 0))
  have h' := h.steps B limit n
  have he' := he n
  rw [hn] at h' he'
  refine ⟨n + 1, { m' with ready := rest }, ?_⟩
  rw [steps_add, hn, steps_succ]
  show Scheduler.steps B limit 0 _ _ = _
  rw [step_tells h'.attentive.distinct hk' hs he' hfront]
  rfl

/-- What is there is there, whoever is woken. -/
theorem answers_of_wakes (hw : m.Wakes m') {w : Wait} (h : m.Answers H w) : m'.Answers H w := by
  cases w with
  | handle a => exact ⟨h.1, hw.hub ▸ h.2⟩
  | session s timeout => exact fun hs => h (hw.hub ▸ hs)
  | idle => exact hw.tasks.trans h
  | _ => exact h

/-- The main program is not given up while what it waits for is there. -/
theorem Alert.not_stuck (h : m.Alert H (.nobody main)) (ha : m.Answers H main.wait) :
    (m.nextTurn limit main).2 ≠ .stuck := by
  have hmain : ∀ {m₁ : Scheduler β σ}, m.Wakes m₁ → (m₁.mainTurn limit main).2 ≠ .stuck := by
    intro m₁ hw he
    have ha₁ : m₁.Answers H main.wait := answers_of_wakes hw ha
    unfold mainTurn at he
    rcases m₁.resume_cases main with ⟨r, m', -, hres⟩ | ⟨-, hno, -⟩
    · rw [hres] at he
      exact absurd he (by simp)
    · exact not_answers_of_reply? hno ha₁
  have hready : m.mainReady = true :=
    (h.attentive.main _ (h.main main rfl).1 ha).resolve_right id
  intro hstuck
  cases hqueue : m.ready with
  | cons a rest =>
    rw [nextTurn, hqueue] at hstuck
    obtain ⟨-, -, hturn | ⟨_, -, _, -, -, hturn⟩⟩ := m.takeTurn_hands a rest main
    · exact absurd (hturn.symm.trans hstuck) (by simp)
    · exact absurd (hturn.symm.trans hstuck) (by simp)
  | nil =>
    by_cases hround : m.deferred ≠ [] ∨ main.wait = .yield
    · rw [nextTurn_of_round limit hqueue hround] at hstuck
      split at hstuck
      · exact hmain (m.wakes_endRound main) hstuck
      · exact absurd hstuck (by simp)
    · obtain ⟨hd, hy⟩ := not_or.mp hround
      rw [nextTurn_of_mainReady hqueue (not_not.mp hd) hy hready] at hstuck
      exact hmain (.refl m) hstuck

/-- **So does the main program.** -/
theorem Alert.main_over (B : Behaviours β σ) (limit : Option Nat) (h : m.Alert H t)
    {next : (Wait.session s timeout).Reply → HubProgram β σ α}
    (hmain : t.main? = some ⟨.session s timeout, deadline, next⟩) (hhalt : m.Halting B t.task?)
    (he : ∀ n, (m.steps B limit n t).1.Over s e) :
    ∃ n m', m.steps B limit n t = (m', .main (next e)) := by
  obtain ⟨n, m', hn, hend⟩ := h.main_goes_on B limit hmain hhalt
  have h' := h.steps B limit n
  have hover := he n
  have hnext := he (n + 1)
  have hone : m.steps B limit (n + 1) t
      = m'.nextTurn limit ⟨.session s timeout, deadline, next⟩ := by
    rw [steps_add, hn]
    rfl
  rw [hn] at h' hover
  rw [hone] at hnext
  rcases hend with ⟨r, hturn, htold⟩ | hstuck
  · refine ⟨n + 1, (m'.nextTurn limit ⟨.session s timeout, deadline, next⟩).1, hone.trans ?_⟩
    rw [← hnext.eq_of_told htold, ← hturn]
  · exact absurd hstuck (h'.not_stuck hover.status_ne)

end Over

/-! ## The scheduler at rest -/

/-- **All tasks wait for something that is not there**, and for however long
it takes. -/
def AtRest (H : Handle → Prop) (m : Scheduler β σ) : Prop :=
  ∀ k ∈ m.tasks, ∃ s, k.state = .suspended s ∧ s.wait.Endless ∧ ¬m.Answers H s.wait

/-- A main program that has all the time it needs is given up only when all is
quiet and nothing is due at any time. -/
theorem quiet_of_stuck (hstuck : (m.nextTurn none main).2 = .stuck) :
    m.Quiet main ∧ m.nextDue none main = none := by
  have hmain : ∀ m₁ : Scheduler β σ, (m₁.mainTurn none main).2 ≠ .stuck := by
    intro m₁ he
    unfold mainTurn at he
    rcases m₁.resume_cases main with ⟨r, m', -, hres⟩ | ⟨-, -, hres⟩
    · rw [hres] at he
      exact absurd he (by simp)
    · rw [hres] at he
      exact absurd he (by simp [setMainAside])
  have hround : ∀ m₁ : Scheduler β σ, (if m₁.mainReady then m₁.mainTurn none main
      else (m₁, .nobody main)).2 ≠ .stuck := by
    intro m₁ he
    split at he
    · exact hmain m₁ he
    · exact absurd he (by simp)
  cases hready : m.ready with
  | cons a rest =>
    rw [nextTurn, hready] at hstuck
    obtain ⟨-, -, hturn | ⟨_, -, _, -, -, hturn⟩⟩ := m.takeTurn_hands a rest main
    · exact absurd (hturn.symm.trans hstuck) (by simp)
    · exact absurd (hturn.symm.trans hstuck) (by simp)
  | nil =>
    by_cases hr : m.deferred ≠ [] ∨ main.wait = .yield
    · rw [nextTurn_of_round none hready hr] at hstuck
      exact absurd hstuck (hround _)
    · obtain ⟨hd, hy⟩ := not_or.mp hr
      by_cases hm : m.mainReady = true
      · rw [nextTurn_of_mainReady hready (not_not.mp hd) hy hm] at hstuck
        exact absurd hstuck (hmain m)
      · have hq : m.Quiet main := ⟨hready, not_not.mp hd, Bool.eq_false_iff.mpr hm, hy⟩
        cases hdue : m.nextDue none main with
        | none => exact ⟨hq, rfl⟩
        | some d =>
          rw [nextTurn_of_due hq hdue] at hstuck
          simp only [Option.any_none, Bool.or_false] at hstuck
          exact absurd hstuck (hround _)

/-- **Nobody is left behind**: when the main program is given up though it had
all the time it needs, it waits for something that is not there, and so do all
tasks. -/
theorem Alert.rests (h : m.Alert H (.nobody main)) (hstuck : (m.nextTurn none main).2 = .stuck) :
    main.wait.Endless ∧ ¬m.Answers H main.wait ∧ m.AtRest H := by
  obtain ⟨hq, hdue⟩ := quiet_of_stuck hstuck
  obtain ⟨hwait, htimed⟩ := h.main main rfl
  have hnone : main.deadline.toList = [] ∧ m.tasks.filterMap (·.deadline?) = [] := by
    have hlist := List.min?_eq_none_iff.mp hdue
    rw [List.append_assoc] at hlist
    exact List.append_eq_nil_iff.mp (List.append_eq_nil_iff.mp hlist).2
  refine ⟨⟨?_, hq.main⟩, fun ha => ?_, fun k hk => ?_⟩
  · rw [← htimed, Option.toList_eq_nil_iff.mp hnone.1]
    rfl
  · have hm := (h.attentive.main _ hwait ha).resolve_right id
    exact Bool.false_ne_true (hq.mainReady.symm.trans hm)
  · have hnot : k.handle ∉ m.ready := hq.ready ▸ List.not_mem_nil
    have hx : some k.handle ≠ (Turn.nobody main).handle? := by simp [Turn.handle?]
    have hstirs : ¬m.Stirs H k := fun hs =>
      hnot ((h.attentive.stirred k hk hx hs).resolve_right id)
    cases hstate : k.state with
    | fresh p => exact absurd (stirs_of_fresh hstate) hstirs
    | suspended s =>
      have hw : k.wait? = some s.wait := by rw [Task.wait?, hstate]
      have hd : k.deadline? = s.deadline := by rw [Task.deadline?, hstate]
      refine ⟨s, rfl, ⟨?_, fun hy => ?_⟩, fun ha => hstirs ((stirs_iff_of_suspended hstate).mpr ha)⟩
      · rw [← h.attentive.timed k hk s hstate, ← hd,
          List.filterMap_eq_nil_iff.mp hnone.2 k hk]
        rfl
      · rcases h.attentive.yielded k hk hx (hy ▸ hw) with hr | hd
        · exact hnot hr
        · exact absurd hd (hq.deferred ▸ List.not_mem_nil)

/-- Giving up a program that waits leaves what is there. -/
theorem answers_drop_iff {w w' : Wait} :
    ({ m with mainWait := none }.drop w).Answers H w' ↔ m.Answers H w' := by
  cases w with
  | session s timeout =>
    cases w' with
    | session s' timeout' =>
      show (m.hub.sessions.abandon s).status s' ≠ .waiting ↔ m.hub.sessions.status s' ≠ .waiting
      rw [Sessions.status_abandon]
    | _ => rfl
  | _ => cases w' <;> rfl

theorem tasks_drop (m : Scheduler β σ) (w : Wait) : (m.drop w).tasks = m.tasks := by
  cases w <;> rfl

/-- **A main program that is set aside** goes on with a true reply, where
tasks halt, or it is given up because nothing is left that could bring what it
waits for. -/
theorem aside_goes_on {p : HubProgram β σ α} {m₁ : Scheduler β σ} (h : Attentive H m none)
    (ht : Tidy m none) (hfirst : m.step B none (.main p) = (m₁, .nobody main))
    (hhalt : m₁.Halting B none) :
    ∃ n m', (∃ r, m.steps B none n (.main p) = (m', .main (main.next r)) ∧ m'.Told main.wait r) ∨
      m.steps B none n (.main p) = (m', .stuck) ∧ ¬m'.Answers H main.wait ∧ m'.AtRest H := by
  have halert := (alert_main h ht p).step B none
  rw [hfirst] at halert
  obtain ⟨n, m', hn, hend⟩ := halert.main_goes_on B none rfl hhalt
  have hlater := halert.steps B none n
  rw [hn] at hlater
  have hsteps : m.steps B none (n + 1 + 1) (.main p)
      = ((m'.nextTurn none main).1, (m'.nextTurn none main).2) := by
    rw [steps_succ, hfirst, steps_add, hn, steps_succ]
    rfl
  rcases hend with ⟨r, hturn, htold⟩ | hstuck
  · exact ⟨n + 1 + 1, _, .inl ⟨r, by rw [hsteps, hturn], htold⟩⟩
  · obtain ⟨-, hno, hrest⟩ := hlater.rests hstuck
    obtain ⟨hq, hdue⟩ := quiet_of_stuck hstuck
    rw [nextTurn_of_nothing hq hdue] at hsteps
    refine ⟨n + 1 + 1, _, .inr ⟨hsteps, answers_drop_iff.not.mpr hno, fun k hk => ?_⟩⟩
    rw [tasks_drop] at hk
    obtain ⟨s, hs, hendless, hnot⟩ := hrest k hk
    exact ⟨s, hs, hendless, answers_drop_iff.not.mpr hnot⟩

/-- **A main program that only waits** is told a true reply, where tasks halt,
or it is given up because nothing is left that could bring what it waits
for. -/
theorem wait_goes_on (h : Attentive H m none) (ht : Tidy m none) (hhalt : m.Halting B none)
    (w : Wait) :
    ∃ n m', (∃ r, m.steps B none n (.main (.call (.user (.wait w)) .done)) = (m', .ended (.ok r)) ∧
        m'.Told w r) ∨
      m.steps B none n (.main (.call (.user (.wait w)) .done)) = (m', .stuck) ∧
        ¬m'.Answers H w ∧ m'.AtRest H := by
  cases hr : m.reply? (m.deadline w) w with
  | some a =>
    have hw : w ≠ .yield := by
      rintro rfl
      exact absurd hr (by simp [reply?])
    refine ⟨1 + 1, a.2, .inl ⟨a.1, ?_, (told_of_answer? ((answer?_eq_reply? hw).trans hr)).1⟩⟩
    have hadv : m.advance B (.call (.user (.wait w)) .done) = (a.2, .running (.done a.1)) := by
      simp only [advance, hr]
    have hfirst : m.step B none (.main (.call (.user (.wait w)) .done))
        = (a.2, .main (.done a.1)) := by
      rw [step, hadv]
    rw [steps_succ, hfirst]
    rfl
  | none =>
    have hadv : m.advance B (.call (.user (.wait w)) .done)
        = (m, .waiting ⟨w, m.deadline w, .done⟩) := by
      simp only [advance, hr]
      rfl
    have hfirst : m.step B none (.main (.call (.user (.wait w)) .done))
        = ({ m with mainWait := some w, mainReady := false },
            .nobody ⟨w, m.deadline w, .done⟩) := by
      rw [step, hadv]
      rfl
    obtain ⟨n, m', ⟨r, hn, htold⟩ | hstuck⟩ := aside_goes_on h ht hfirst hhalt
    · refine ⟨n + 1, m', .inl ⟨r, ?_, htold⟩⟩
      rw [steps_add, hn]
      rfl
    · exact ⟨n, m', .inr hstuck⟩

/-! ## Results -/

/-- Whoever waits for the result behind a handle gets this one. -/
def Gives (B : Behaviours β σ) (m : Scheduler β σ) (a : Handle) (w : EventResult) : Prop :=
  ∃ n m', m.steps B none n (.main (awaiting a)) = (m', .ended (.ok w))

/-- Whoever waits for the result behind a handle waits in vain, as the task
does that owes it: it waits for something that is not there, and for however
long it takes. -/
def Hangs (B : Behaviours β σ) (m : Scheduler β σ) (a : Handle) : Prop :=
  ∃ n m', m.steps B none n (.main (awaiting a)) = (m', .stuck) ∧ ∃ k ∈ m'.tasks, k.handle = a ∧
    ∃ s, k.state = .suspended s ∧ s.wait.Endless ∧ ¬m'.Answers m.Owes s.wait

/-- **Whoever waits for a result that is promised gets it**, where tasks halt,
unless the task that owes it waits for something that is not there. -/
theorem awaiting_goes_on {Q : EventResult → Prop} {a : Handle} (h : Attentive H m none)
    (ht : Tidy m none) (hhalt : m.Halting B none) (hp : Promised Q a m none) :
    (∃ w, m.Gives B a w ∧ Q w) ∨ m.Hangs B a := by
  have hkept : ∀ n m' t', m.steps B none n (.main (awaiting a)) = (m', t') →
      Promised Q a m' none := by
    intro n m' t' hn
    have hlater := (lasting_promised Q a).steps B none n (t := .main (awaiting a)) hp
    rw [hn] at hlater
    exact (lasting_promised Q a).rest hlater
  cases hresult : m.hub.handles.result? a with
  | some w =>
    have hfirst : m.step B none (.main (awaiting a))
        = ({ m with hub := { m.hub with handles := m.hub.handles.observe a } },
            .main (.done w)) := by
      simp only [step, awaiting, HubProgram.lift, advance, reply?, hresult]
      rfl
    have hgives : m.Gives B a w := by
      refine ⟨1 + 1, { m with hub := { m.hub with handles := m.hub.handles.observe a } }, ?_⟩
      rw [steps_succ, hfirst]
      rfl
    exact .inl ⟨w, hgives, hp.kept w hresult⟩
  | none =>
    have howes : m.Owes a := ⟨hp.issued, hresult⟩
    obtain ⟨n, m', ⟨r, hn, htold⟩ | ⟨hn, hno, hrest⟩⟩ :=
      wait_goes_on (B := B) (h.attend fun _ => .inr) ht hhalt (.handle a)
    · refine .inl ⟨r, ⟨n, m', hn⟩, ?_⟩
      cases htold with
      | result hr => exact (hkept n m' _ hn).kept r hr
    · have hnone : m'.hub.handles.result? a = none :=
        Classical.byContradiction fun hne => hno ⟨howes, hne⟩
      obtain ⟨k, hk, hka⟩ := (hkept n m' _ hn).owed hnone
      exact .inr ⟨n, m', hn, k, hk, hka, hrest k hk⟩

/-! ## Handlers that do not wait without end -/

/-- A task never waits without end. -/
def IsPrompt (k : Task β σ) : Prop :=
  match k.state with
  | .fresh p => p.Only Prompt
  | .suspended s => Program.Only Prompt (.call (.user (.wait s.wait)) s.next)

theorem IsPrompt.only {k : Task β σ} (h : IsPrompt k) {p : HubProgram β σ EventResult}
    (hp : k.GoesOn p) : p.Only Prompt := by
  unfold IsPrompt at h
  cases hp with
  | begins hstate =>
    rw [hstate] at h
    exact h
  | resumes r hstate =>
    rw [hstate] at h
    exact (h r).2

/-- What it waits for is over at some time. -/
theorem IsPrompt.not_endless {k : Task β σ} (h : IsPrompt k) {s : Suspended β σ EventResult}
    (hs : k.state = .suspended s) : ¬s.wait.Endless := by
  unfold IsPrompt at h
  rw [hs] at h
  obtain ⟨w, deadline, next⟩ := s
  rintro ⟨htimed, hyield⟩
  cases w with
  | yield => exact hyield rfl
  | sleep ms => exact absurd htimed (by simp [Wait.timed])
  | handle a => exact absurd (h EventResult.invalid).1 Bool.false_ne_true
  | session id timeout =>
    cases timeout with
    | none => exact absurd (h (.error (.closed id))).1 Bool.false_ne_true
    | some t => exact absurd htimed (by simp [Wait.timed])
  | idle => exact absurd (h ()).1 Bool.false_ne_true

/-- **The handler behind a handle never waits without end.** -/
structure Punctual (a : Handle) (m : Scheduler β σ)
    (x : Option (Handle × HubProgram β σ EventResult)) : Prop where
  issued : a.index < m.results.length
  tasks : ∀ k ∈ m.tasks, k.handle = a → IsPrompt k
  running : ∀ p, x = some (a, p) → p.Only Prompt

section Punctual

variable {a : Handle} {x : Option (Handle × HubProgram β σ EventResult)}

theorem Punctual.grow (h : Punctual a m x) (hg : Grows m m') : Punctual a m' x where
  issued := Nat.lt_of_lt_of_le h.issued hg.results.length_le
  tasks := fun k hk hka => by
    rcases hg.added k hk with hk | hk
    · exact h.tasks k hk hka
    · exact absurd (hka ▸ hk.1) (Nat.not_le_of_lt h.issued)
  running := h.running

/-- A program that never waits without end goes on so, or waits for a while. -/
theorem Advanced.only_prompt {p q : HubProgram β σ EventResult}
    (h : Advanced B m p m' (.running q)) (hp : p.Only Prompt) : q.Only Prompt := by
  cases h with
  | served _ => exact (hp _).2
  | waited _ => exact (hp _).2
  | inner => exact absurd (hp (.error .opaqueValue)).1 Bool.false_ne_true

theorem lasting_punctual (a : Handle) : Lasting (Punctual (β := β) (σ := σ) a) where
  step := by
    intro B m x m' x' hd h
    cases hd with
    | picks hg hk hgoes =>
      refine { h.grow hg with running := fun p he => ?_ }
      obtain ⟨hka, rfl⟩ := Prod.mk.inj (Option.some.inj he)
      exact (h.tasks _ hk hka).only hgoes
    | goes hg ha =>
      refine { h.grow hg with running := fun p he => ?_ }
      obtain ⟨rfl, rfl⟩ := Prod.mk.inj (Option.some.inj he)
      exact ha.only_prompt (h.running _ rfl)
    | @setsAside b p s ha =>
      refine ⟨h.issued, fun k hk hka => ?_, fun _ he => absurd he (by simp)⟩
      rcases List.mem_append.mp hk with hk | hk
      · exact h.tasks k (List.mem_filter.mp hk).1 hka
      · obtain rfl := List.mem_singleton.mp hk
        have hp := h.running p (hka ▸ rfl)
        cases ha with
        | waits => exact hp
    | @ends b p r _ ha hw =>
      refine Punctual.grow (m := m.withResult b (asFailure r)) ⟨?_, ?_, ?_⟩ hw.grows
      · exact Nat.lt_of_lt_of_eq h.issued (Handles.length_results_complete _ b _).symm
      · exact fun k hk => h.tasks k (List.mem_filter.mp hk).1
      · exact fun _ he => absurd he (by simp)
    | rests hg => exact h.grow hg
  rest := fun h => { h with running := fun _ he => absurd he (by simp) }
  grows := fun hg h => h.grow hg

/-- A handler that is started never waits without end, if its program does
not. -/
theorem Spawned.punctual {job : Job β} (hs : Spawned B job a m m' x)
    (hjob : (runJob B m.hub.settings job).Only Prompt) : Punctual a m' x where
  issued := hs.issued
  tasks := fun k hk hka => by
    unfold IsPrompt
    rw [hs.of_mem hk hka]
    exact hjob
  running := fun p he => absurd he (hs.not_running p)

/-- **Whoever waits for the result of a handler that never waits without end
gets it.** -/
theorem Punctual.not_hangs (h : Punctual a m none) : ¬m.Hangs B a := by
  rintro ⟨n, m', hn, k, hk, hka, s, hs, hendless, -⟩
  have hlater := (lasting_punctual a).steps B none n (t := .main (awaiting a)) h
  rw [hn] at hlater
  exact (hlater.tasks k hk hka).not_endless hs hendless

end Punctual

/-- A program that gave a result has come to its end. -/
theorem finished_of_run {patience : Option Nat} {p : HubProgram β σ α} {r : Except Payload α}
    (h : (m.run B patience p).1 = some r) :
    (m.steps B (patience.map (m.clock + ·)) stepLimit (.main p)).2.Finished := by
  unfold run at h
  split at h
  · next heq =>
    rw [heq]
    trivial
  · exact absurd h (by simp)

/-- **The result of a handler that is started is there for whoever waits for
it**, where tasks halt, unless the handler waits without end for something that
does not come. -/
theorem gives_of_run {hub : Hub β σ} {patience : Option Nat} {p : HubProgram β σ α} {job : Job β}
    {a : Handle} {w : EventResult} (hsettled : hub.sessions.settled = [])
    (hm : Onward (.fresh hub) m) (hjob : (runJob B m.hub.settings job).Ends (· = .ok w))
    (hx : ⟨.spawn job, a⟩ ∈ m.exchanges B (patience.map (m.clock + ·)) stepLimit (.main p))
    (hfinished : (m.steps B (patience.map (m.clock + ·)) stepLimit (.main p)).2.Finished)
    (hl : Onward (m.run B patience p).2 m') (hhalt : m'.Halting B none) :
    (m'.Gives B a w ∨ m'.Hangs B a) ∧
      ((runJob B m.hub.settings job).Only Prompt → m'.Gives B a w) := by
  have htidy : Tidy m none := lasting_tidy.later (tidy_fresh hub) hm.later
  have hlater := (hm.run B patience p hfinished).trans hl
  have hpromised : Promised (· = w) a m' none := by
    refine hl.later.promised (promised_of_run (hjob.mono ?_) htidy hx)
    rintro e rfl
    rfl
  have hend := awaiting_goes_on (hlater.attentive (attentive_fresh hub hsettled) (tidy_fresh hub))
    (lasting_tidy.later (tidy_fresh hub) hlater.later) hhalt hpromised
  have hgives : m'.Gives B a w ∨ m'.Hangs B a := by
    rcases hend with ⟨w', hgives, rfl⟩ | hhangs
    · exact .inl hgives
    · exact .inr hhangs
  refine ⟨hgives, fun honly => hgives.resolve_right ?_⟩
  have hpunctual : Punctual a (m.run B patience p).2 none := by
    rw [snd_run]
    exact (lasting_punctual a).rest ((lasting_punctual a).of_mem_exchanges (t := .main p) htidy
      (fun hs hspawned => hspawned.punctual (hs ▸ honly)) hx)
  exact ((lasting_punctual a).later hpunctual hl.later).not_hangs

end Scheduler

end Switchboard
