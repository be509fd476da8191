import Switchboard.Proofs.Hub.Becoming
import Switchboard.Proofs.Hub.Halting

/-!
# The queue

While the main program waits, tasks have their turns in the order of a queue.
Whoever has the turn next is told the truth (`handed`): a task that has not
begun begins, and one that waits goes on if the reply to its wait is there.
Tasks that cannot go on are passed over, so somebody has the turn at some time
(`Alert.goes`).

A task that has the turn gives it back where it halts (`Alert.gives_back`),
and so a task that is ready gets its turn (`Alert.gets_turn`).
-/

namespace Switchboard

variable {β σ α : Type}

namespace Scheduler

variable {B : Behaviours β σ} {limit : Option Nat} {m m' : Scheduler β σ} {t : Turn β σ α}
  {H : Handle → Prop} {x : Option Handle} {main : Suspended β σ α}

/-! ## Replies -/

/-- **The reply to a wait is true**, when it is given. -/
inductive Told (m : Scheduler β σ) : (w : Wait) → w.Reply → Prop
  | yielded : Told m .yield ()
  | slept {ms : Nat} : Told m (.sleep ms) ()
  | result {a : Handle} {r : EventResult} : m.hub.handles.result? a = some r →
      Told m (.handle a) r
  | received {s : Id} {timeout : Option Timeout} {e : Event} :
      m.hub.sessions.status s = .received e → Told m (.session s timeout) (.ok e)
  | closed {s : Id} {timeout : Option Timeout} : m.hub.sessions.status s = .closed →
      Told m (.session s timeout) (.error (.closed s))
  | timedOut {s : Id} {timeout : Option Timeout} {ms : Nat} :
      m.hub.sessions.status s = .waiting →
      Told m (.session s timeout) (.error (.timedOut s ms))
  | idle : m.tasks = [] → Told m .idle ()

/-- It is true as long as the hub and the tasks are the same. -/
theorem Told.congr {w : Wait} {r : w.Reply} (h : m.Told w r) (hhub : m'.hub = m.hub)
    (htasks : m'.tasks = m.tasks) : m'.Told w r := by
  cases h with
  | yielded => exact .yielded
  | slept => exact .slept
  | result hr => exact .result (hhub ▸ hr)
  | received hs => exact .received (hhub ▸ hs)
  | closed hs => exact .closed (hhub ▸ hs)
  | timedOut hs => exact .timedOut (hhub ▸ hs)
  | idle hempty => exact .idle (htasks ▸ hempty)

theorem told_of_answer? {deadline : Option Nat} {w : Wait} {r : w.Reply}
    (h : m.answer? deadline w = some (r, m')) : m'.Told w r ∧ m'.tasks = m.tasks := by
  rcases yields_or_reply?_of_answer? h with ⟨rfl, rfl⟩ | h
  · exact ⟨.yielded, rfl⟩
  · cases replies_of_reply? h with
    | slept _ => exact ⟨.slept, rfl⟩
    | @result a r hr =>
      refine ⟨.result ?_, rfl⟩
      rw [Handles.result?_eq, Handles.results_observe, ← Handles.result?_eq]
      exact hr
    | received hs => exact ⟨.received hs, rfl⟩
    | closed hs => exact ⟨.closed hs, rfl⟩
    | timedOut hs _ => exact ⟨.timedOut ((Sessions.status_abandon _ _ _).trans hs), rfl⟩
    | idle hempty => exact ⟨.idle hempty, rfl⟩

/-- **A task can have its turn**: it begins, or the reply to its wait is
there. -/
def CanGo (m : Scheduler β σ) (k : Task β σ) : Prop :=
  match k.state with
  | .fresh _ => True
  | .suspended s => (m.answer? s.deadline s.wait).isSome = true

/-- The order of turns does not matter to that. -/
theorem canGo_ready_iff (ready : List Handle) {k : Task β σ} :
    { m with ready := ready }.CanGo k ↔ m.CanGo k := by
  unfold CanGo
  cases k.state with
  | fresh p => rfl
  | suspended s =>
    obtain ⟨w, deadline, next⟩ := s
    cases w with
    | yield => rfl
    | sleep ms => simp only [answer?, reply?]; split <;> rfl
    | handle a => simp only [answer?, reply?]; cases m.hub.handles.result? a <;> rfl
    | session s t =>
      simp only [answer?, reply?]
      cases m.hub.sessions.status s with
      | waiting => simp only; split <;> rfl
      | _ => rfl
    | idle => simp only [answer?, reply?]; split <;> rfl

/-- A wait that is due is over. -/
theorem isSome_answer?_of_due {s : Suspended β σ α} (hs : s.Timed)
    (hdue : s.deadline.any (· ≤ m.clock) = true) : (m.answer? s.deadline s.wait).isSome = true := by
  obtain ⟨w, deadline, next⟩ := s
  have htimed : w.timed = true := hs.symm.trans (by
    cases deadline with
    | none => exact absurd hdue Bool.false_ne_true
    | some d => rfl)
  cases w with
  | sleep ms =>
    simp only [answer?, reply?]
    rw [if_pos hdue]
    rfl
  | session s t =>
    simp only [answer?, reply?]
    cases m.hub.sessions.status s with
    | waiting =>
      simp only
      rw [if_pos hdue]
      rfl
    | _ => rfl
  | _ => exact absurd htimed Bool.false_ne_true

/-! ## The next turn -/

/-- **To whom the turn is handed**, and what they are told. -/
inductive Handed (m : Scheduler β σ) (main : Suspended β σ α) :
    Scheduler β σ → Turn β σ α → Prop
  | main {m' : Scheduler β σ} {r : main.wait.Reply} : m'.Told main.wait r →
      Handed m main m' (.main (main.next r))
  | begins {m' : Scheduler β σ} {k : Task β σ} {p : HubProgram β σ EventResult} :
      k ∈ m.tasks → k.state = .fresh p → m'.tasks = m.tasks →
      Handed m main m' (.task k.handle p main)
  | resumes {m' : Scheduler β σ} {k : Task β σ} {s : Suspended β σ EventResult}
      {r : s.wait.Reply} : k ∈ m.tasks → k.state = .suspended s → m'.tasks = m.tasks →
      m'.Told s.wait r → Handed m main m' (.task k.handle (s.next r) main)
  | nobody {m' : Scheduler β σ} : m'.tasks = m.tasks → Handed m main m' (.nobody main)
  | stuck {m' : Scheduler β σ} : Handed m main m' .stuck

theorem handed_mainTurn (m : Scheduler β σ) (limit : Option Nat) (main : Suspended β σ α) :
    Handed m main (m.mainTurn limit main).1 (m.mainTurn limit main).2 := by
  unfold mainTurn
  rcases m.resume_cases main with ⟨r, m', hr, hres⟩ | ⟨-, -, hres⟩
  · rw [hres]
    obtain ⟨htold, -⟩ := told_of_answer? hr
    exact .main (htold.congr rfl rfl)
  · rw [hres]
    simp only [setMainAside]
    split
    · exact .stuck
    · exact .nobody rfl

theorem handed_takeTurn (m : Scheduler β σ) (a : Handle) (rest : List Handle)
    (main : Suspended β σ α) :
    Handed m main (m.takeTurn a rest main).1 (m.takeTurn a rest main).2 := by
  unfold takeTurn
  simp only
  split
  · exact .nobody rfl
  · next hfind =>
    have hmem := List.mem_of_find?_eq_some hfind
    rw [← handle_of_find? hfind]
    exact .begins (k := ⟨_, _⟩) hmem rfl rfl
  · next s hfind =>
    have hmem := List.mem_of_find?_eq_some hfind
    rcases resume_cases { m with ready := rest } s with ⟨r, m', hr, hres⟩ | ⟨-, -, hres⟩
    · rw [hres]
      obtain ⟨htold, htasks⟩ := told_of_answer? hr
      rw [← handle_of_find? hfind]
      exact .resumes (k := ⟨_, _⟩) hmem rfl htasks htold
    · rw [hres]
      exact .nobody rfl

theorem Handed.of_tasks {m₁ : Scheduler β σ} (h : Handed m₁ main m' t)
    (htasks : m₁.tasks = m.tasks) : Handed m main m' t := by
  cases h with
  | main htold => exact .main htold
  | begins hk hs ht => exact .begins (htasks ▸ hk) hs (ht.trans htasks)
  | resumes hk hs ht htold => exact .resumes (htasks ▸ hk) hs (ht.trans htasks) htold
  | nobody ht => exact .nobody (ht.trans htasks)
  | stuck => exact .stuck

/-- **The next turn is handed over**, with a true reply to whoever waited. -/
theorem handed (m : Scheduler β σ) (limit : Option Nat) (main : Suspended β σ α) :
    Handed m main (m.nextTurn limit main).1 (m.nextTurn limit main).2 := by
  unfold nextTurn
  split
  · exact m.handed_takeTurn _ _ main
  · extract_lets yielded
    split
    · split
      · exact (handed_mainTurn _ limit main).of_tasks (m.wakes_endRound main).tasks
      · exact .nobody (m.wakes_endRound main).tasks
    · split
      · exact m.handed_mainTurn limit main
      · split
        · exact .stuck
        · simp only
          split
          · exact (handed_mainTurn _ limit main).of_tasks (wakes_endRound _ main).tasks
          · exact .nobody (wakes_endRound _ main).tasks

/-! ## The queue -/

/-- Somebody has the turn, or the run is over. -/
def Turn.Goes : Turn β σ α → Prop
  | nobody _ => False
  | _ => True

/-- **A task that can go on has its turn** when it is at the head of the
queue. Otherwise the next one is. -/
theorem takeTurn_cases (hd : (m.tasks.map (·.handle)).Nodup) (a : Handle) (rest : List Handle)
    (main : Suspended β σ α) :
    (m.takeTurn a rest main).2.Goes ∧ (∃ k ∈ m.tasks, k.handle = a ∧ m.CanGo k) ∨
    (m.takeTurn a rest main) = ({ m with ready := rest }, .nobody main) ∧
      ∀ k ∈ m.tasks, k.handle = a → ¬m.CanGo k := by
  have hunique : ∀ {k k' : Task β σ}, k ∈ m.tasks → k' ∈ m.tasks → k.handle = k'.handle → k = k' :=
    fun hk hk' he => List.inj_on_of_nodup_map hd hk hk' he
  unfold takeTurn
  simp only
  split
  · next hnone =>
    refine .inr ⟨rfl, fun k hk he => absurd (beq_iff_eq.mpr he) ?_⟩
    exact List.find?_eq_none.mp hnone k hk
  · next hfind =>
    exact .inl ⟨trivial, _, List.mem_of_find?_eq_some hfind, handle_of_find? hfind, trivial⟩
  · next s hfind =>
    have hmem := List.mem_of_find?_eq_some hfind
    rcases resume_cases { m with ready := rest } s with ⟨r, m', hr, hres⟩ | ⟨hy, hno, hres⟩
    · rw [hres]
      refine .inl ⟨trivial, _, hmem, handle_of_find? hfind, (canGo_ready_iff rest).mp ?_⟩
      exact congrArg Option.isSome hr
    · rw [hres]
      refine .inr ⟨rfl, fun k hk he hgo => ?_⟩
      obtain rfl := hunique hk hmem (he.trans (handle_of_find? hfind).symm)
      have hsome : ({ m with ready := rest }.answer? s.deadline s.wait).isSome = true :=
        (canGo_ready_iff rest).mpr hgo
      rw [answer?_eq_reply? hy, hno] at hsome
      exact absurd hsome Bool.false_ne_true

/-- Nobody has the turn for a while, and tasks stay what they are. -/
def Idles (B : Behaviours β σ) (limit : Option Nat) (main : Suspended β σ α)
    (m m' : Scheduler β σ) : Prop :=
  ∃ n, m.steps B limit n (.nobody main) = (m', .nobody main) ∧ m'.tasks = m.tasks

theorem Idles.refl (m : Scheduler β σ) : Idles B limit main m m := ⟨0, rfl, rfl⟩

theorem Idles.trans {m'' : Scheduler β σ} (h₁ : Idles B limit main m m')
    (h₂ : Idles B limit main m' m'') : Idles B limit main m m'' := by
  obtain ⟨n, hn, ht⟩ := h₁
  obtain ⟨k, hk, ht'⟩ := h₂
  refine ⟨n + k, ?_, ht'.trans ht⟩
  rw [steps_add, hn, hk]

theorem Idles.next (h : m.nextTurn limit main = (m', .nobody main)) :
    Idles B limit main m m' := by
  refine ⟨1, ?_, ?_⟩
  · rw [steps_succ]
    show (m.nextTurn limit main).1.steps B limit 0 (m.nextTurn limit main).2 = _
    rw [h]
    rfl
  · have hh := m.handed limit main
    rw [h] at hh
    cases hh with
    | nobody ht => exact ht

theorem Idles.alert (h : Idles B limit main m m') (ha : m.Alert H (.nobody main)) :
    m'.Alert H (.nobody main) := by
  obtain ⟨n, hn, -⟩ := h
  have hlater := ha.steps B limit n
  rwa [hn] at hlater

/-- **The queue is drained** up to somebody who can go on. -/
theorem drains (B : Behaviours β σ) (limit : Option Nat) (main : Suspended β σ α)
    (hd : (m.tasks.map (·.handle)).Nodup) :
    ∃ m', Idles B limit main m m' ∧ m' = { m with ready := m'.ready } ∧
      ((m'.nextTurn limit main).2.Goes ∨
        m'.ready = [] ∧ ∀ k ∈ m.tasks, k.handle ∈ m.ready → ¬m.CanGo k) := by
  generalize hq : m.ready = q
  induction q generalizing m with
  | nil => exact ⟨m, .refl m, rfl, .inr ⟨hq, fun k _ hmem => absurd hmem List.not_mem_nil⟩⟩
  | cons a rest ih =>
    have hnext : m.nextTurn limit main = m.takeTurn a rest main := by
      rw [nextTurn, hq]
    rcases takeTurn_cases hd a rest main with ⟨hgoes, -⟩ | ⟨hskip, hno⟩
    · exact ⟨m, .refl m, rfl, .inl (hnext ▸ hgoes)⟩
    · obtain ⟨m', hidles, heq, hend⟩ := ih (m := { m with ready := rest }) hd rfl
      refine ⟨m', (Idles.next (hnext.trans hskip)).trans hidles, heq, hend.imp_right ?_⟩
      rintro ⟨hready, hrest⟩
      refine ⟨hready, fun k hk hmem hgo => ?_⟩
      rcases List.mem_cons.mp hmem with he | hmem
      · exact hno k hk he hgo
      · exact hrest k hk hmem ((canGo_ready_iff rest).mpr hgo)

/-- The main program goes on between two rounds, or it is set aside again. -/
theorem mainTurn_cases (m : Scheduler β σ) (limit : Option Nat) (main : Suspended β σ α) :
    (m.mainTurn limit main).2.Goes ∨
    (m.mainTurn limit main)
        = ({ m with mainWait := some main.wait, mainReady := false }, .nobody main) ∧
      main.wait ≠ .yield ∧ m.reply? main.deadline main.wait = none ∧
      limit.any (· ≤ m.clock) = false := by
  unfold mainTurn
  rcases m.resume_cases main with ⟨r, m', -, hres⟩ | ⟨hy, hno, hres⟩
  · rw [hres]
    exact .inl trivial
  · rw [hres]
    simp only [setMainAside]
    split
    · exact .inl trivial
    · next hlimit => exact .inr ⟨rfl, hy, hno, Bool.eq_false_iff.mpr hlimit⟩

/-- Nobody is ready, and nobody has yielded. -/
structure Quiet (m : Scheduler β σ) (main : Suspended β σ α) : Prop where
  ready : m.ready = []
  deferred : m.deferred = []
  mainReady : m.mainReady = false
  main : main.wait ≠ .yield

/-- When somebody has yielded and nobody is ready, the round ends. -/
theorem nextTurn_of_round (limit : Option Nat) (hready : m.ready = [])
    (hround : m.deferred ≠ [] ∨ main.wait = .yield) :
    m.nextTurn limit main = if (m.endRound main).mainReady then
      (m.endRound main).mainTurn limit main else (m.endRound main, .nobody main) := by
  unfold nextTurn
  rw [hready]
  simp only
  rw [if_pos]
  rcases hround with hd | hy
  · rw [List.isEmpty_eq_false_iff.mpr hd]
    rfl
  · rw [hy]
    exact Bool.or_true _

/-- When nobody has yielded, the main program has its turn if it is ready. -/
theorem nextTurn_of_mainReady (hready : m.ready = []) (hd : m.deferred = [])
    (hy : main.wait ≠ .yield) (hm : m.mainReady = true) :
    m.nextTurn limit main = m.mainTurn limit main := by
  unfold nextTurn
  rw [hready, hd, hm]
  cases hw : main.wait with
  | yield => exact absurd hw hy
  | _ => rfl

/-- When all is quiet and nothing is due at any time, the main program is
given up. -/
theorem nextTurn_of_nothing (hq : m.Quiet main) (hdue : m.nextDue limit main = none) :
    m.nextTurn limit main = ({ m with mainWait := none }.drop main.wait, .stuck) := by
  unfold nextTurn
  rw [hq.ready, hq.deferred, hq.mainReady, hdue]
  cases hw : main.wait with
  | yield => exact absurd hw hq.main
  | _ => rfl

/-- When all is quiet, time moves on to where something is due. -/
theorem nextTurn_of_due (hq : m.Quiet main) {d : Nat} (hdue : m.nextDue limit main = some d) :
    m.nextTurn limit main =
      if (endRound { m with clock := max m.clock d } main).mainReady ||
          limit.any (· ≤ (endRound { m with clock := max m.clock d } main).clock) then
        (endRound { m with clock := max m.clock d } main).mainTurn limit main
      else (endRound { m with clock := max m.clock d } main, .nobody main) := by
  unfold nextTurn
  rw [hq.ready, hq.deferred, hq.mainReady, hdue]
  cases hw : main.wait with
  | yield => exact absurd hw hq.main
  | _ => rfl

/-- **Somebody has the turn at some time, or all is quiet.** -/
theorem goes_or_quiet (B : Behaviours β σ) (limit : Option Nat) (h : m.Alert H (.nobody main)) :
    ∃ m', Idles B limit main m m' ∧ ((m'.nextTurn limit main).2.Goes ∨ m'.Quiet main) := by
  -- once the queue is drained, all is quiet unless the round is to end
  have hdrain : ∀ {m : Scheduler β σ}, m.Alert H (.nobody main) → m.deferred = [] →
      m.mainReady = false → main.wait ≠ .yield →
      ∃ m', Idles B limit main m m' ∧ ((m'.nextTurn limit main).2.Goes ∨ m'.Quiet main) := by
    intro m h hd hm hy
    obtain ⟨m', hidles, heq, hend⟩ :=
      drains B limit main h.attentive.distinct
    refine ⟨m', hidles, hend.imp_right fun hready => ?_⟩
    rw [heq]
    exact ⟨hready.1, hd, hm, hy⟩
  -- so it is when the main program is set aside again
  have hmain : ∀ {m m₁ : Scheduler β σ}, m.Alert H (.nobody main) →
      m.nextTurn limit main = m₁.mainTurn limit main → m₁.deferred = [] →
      ∃ m', Idles B limit main m m' ∧ ((m'.nextTurn limit main).2.Goes ∨ m'.Quiet main) := by
    intro m m₁ h hnext hd
    rcases m₁.mainTurn_cases limit main with hgoes | ⟨haside, hy, -, -⟩
    · exact ⟨m, .refl m, .inl (hnext ▸ hgoes)⟩
    · have hidles : Idles B limit main m _ := Idles.next (hnext.trans haside)
      obtain ⟨m', hlater, hend⟩ := hdrain (hidles.alert h) hd rfl hy
      exact ⟨m', hidles.trans hlater, hend⟩
  obtain ⟨m₁, hidles, -, hend⟩ :=
    drains B limit main h.attentive.distinct
  rcases hend with hgoes | ⟨hready, -⟩
  · exact ⟨m₁, hidles, .inl hgoes⟩
  have h₁ := hidles.alert h
  suffices hlater : ∃ m', Idles B limit main m₁ m' ∧
      ((m'.nextTurn limit main).2.Goes ∨ m'.Quiet main) by
    obtain ⟨m', hlater, hend⟩ := hlater
    exact ⟨m', hidles.trans hlater, hend⟩
  by_cases hround : m₁.deferred ≠ [] ∨ main.wait = .yield
  · have hnext := nextTurn_of_round limit hready hround
    obtain ⟨later, b, heq, -, -, hb⟩ := m₁.endRound_eq main
    rw [heq] at hnext
    cases b with
    | true => exact hmain h₁ (hnext.trans (if_pos rfl)) rfl
    | false =>
      have hidles : Idles B limit main m₁ _ :=
        Idles.next (hnext.trans (if_neg Bool.false_ne_true))
      obtain ⟨m', hlater, hend⟩ := hdrain (hidles.alert h₁) rfl rfl
        fun hy => Bool.false_ne_true (hb.mpr (.inr (.inl hy)))
      exact ⟨m', hidles.trans hlater, hend⟩
  · obtain ⟨hd, hy⟩ := not_or.mp hround
    by_cases hm : m₁.mainReady = true
    · exact hmain h₁ (nextTurn_of_mainReady hready (not_not.mp hd) hy hm) (not_not.mp hd)
    · exact hdrain h₁ (not_not.mp hd) (Bool.eq_false_iff.mpr hm) hy

/-- A task that is due can go on. -/
theorem canGo_of_due (h : Attentive H m x) {k : Task β σ} (hk : k ∈ m.tasks) {d : Nat}
    (hd : k.deadline? = some d) (hle : d ≤ m.clock) : m.CanGo k := by
  unfold CanGo
  unfold Task.deadline? at hd
  cases hstate : k.state with
  | fresh p => trivial
  | suspended s =>
    rw [hstate] at hd
    have hdue : s.deadline.any (· ≤ m.clock) = true := by
      rw [show s.deadline = some d from hd]
      exact decide_eq_true hle
    exact isSome_answer?_of_due (h.timed k hk s hstate) hdue

/-- **When all is quiet, time moves on** to where somebody has the turn. -/
theorem Quiet.goes (B : Behaviours β σ) (limit : Option Nat) (hq : m.Quiet main)
    (h : m.Alert H (.nobody main)) :
    ∃ m', Idles B limit main m m' ∧ (m'.nextTurn limit main).2.Goes := by
  obtain ⟨-, hmain⟩ := h.main main rfl
  cases hdue : m.nextDue limit main with
  | none => exact ⟨m, .refl m, nextTurn_of_nothing hq hdue ▸ trivial⟩
  | some d =>
    have hnext := nextTurn_of_due hq hdue
    obtain ⟨later, b, heq, -, hready, hb⟩ := endRound_eq { m with clock := max m.clock d } main
    rw [heq] at hnext
    have hmainDue : main.deadline.any (· ≤ max m.clock d) = true → b = true := fun hd =>
      hb.mpr (.inr (.inr hd))
    by_cases hnow : (b || limit.any (· ≤ max m.clock d)) = true
    -- the main program is due, or its time is over
    · rw [if_pos hnow] at hnext
      refine ⟨m, .refl m, hnext ▸ ?_⟩
      rcases mainTurn_cases _ limit main with hgoes | ⟨-, -, hno, hlimit⟩
      · exact hgoes
      · rw [hlimit, Bool.or_false] at hnow
        rcases hb.mp hnow with hm | hy | hd
        · exact absurd (hq.mainReady.symm.trans hm) Bool.false_ne_true
        · exact absurd hy hq.main
        · have hsome := isSome_answer?_of_due
            (m := { m with
              clock := max m.clock d, ready := m.ready ++ later, deferred := [], mainReady := b })
            hmain hd
          rw [answer?_eq_reply? hq.main, hno] at hsome
          exact absurd hsome Bool.false_ne_true
    -- a task is due, so it is not passed over
    · have hidles : Idles B limit main m _ := Idles.next (hnext.trans (if_neg hnow))
      have hlater := hidles.alert h
      obtain ⟨m', hidles', -, hgoes | ⟨-, hno⟩⟩ :=
        drains B limit main hlater.attentive.distinct
      · exact ⟨m', hidles.trans hidles', hgoes⟩
      · obtain ⟨hnotb, hnotl⟩ := not_or.mp (mt Bool.or_eq_true_iff.mpr hnow)
        have hself : d ≤ max m.clock d := Nat.le_max_right _ _
        rcases List.mem_append.mp (List.min?_mem hdue) with hmem | hmem
        · rcases List.mem_append.mp hmem with hmem | hmem
          · rw [Option.mem_toList.mp hmem] at hnotl
            exact absurd (decide_eq_true hself) hnotl
          · rw [Option.mem_toList.mp hmem] at hmainDue
            exact absurd (hmainDue (decide_eq_true hself)) hnotb
        · obtain ⟨k, hk, hd⟩ := List.mem_filterMap.mp hmem
          exact absurd (canGo_of_due hlater.attentive hk hd hself)
            (hno k hk (hready k hk d hd hself))

/-- **While the main program waits, somebody has the turn** at some time, or
the main program is given up. -/
theorem Alert.goes (B : Behaviours β σ) (limit : Option Nat) (h : m.Alert H (.nobody main)) :
    ∃ m', Idles B limit main m m' ∧ (m'.nextTurn limit main).2.Goes := by
  obtain ⟨m₁, hidles, hgoes | hq⟩ := goes_or_quiet B limit h
  · exact ⟨m₁, hidles, hgoes⟩
  · obtain ⟨m', hlater, hgoes⟩ := hq.goes B limit (hidles.alert h)
    exact ⟨m', hidles.trans hlater, hgoes⟩

/-! ## Having a turn -/

/-- A program that takes a step adds to the queue, if it does anything to it. -/
theorem ready_advance (B : Behaviours β σ) (m : Scheduler β σ) (p : HubProgram β σ α) :
    m.ready <+: (m.advance B p).1.ready := by
  have hwoken : ∀ hub : Hub β σ, m.ready <+: { m with hub }.wakeSettled.ready := fun hub =>
    (rouses_foldl waitsFor hub.sessions.settled { m with hub :=
      { hub with sessions := { hub.sessions with settled := [] } } }).ready
  cases p with
  | done a => exact List.prefix_refl _
  | panic q => exact List.prefix_refl _
  | call c next =>
    cases c with
    | user c =>
      cases c with
      | request r => exact hwoken _
      | wait w =>
        simp only [advance]
        split
        · next h =>
          cases replies_of_reply? h <;> exact List.prefix_refl _
        · exact List.prefix_refl _
      | dispatch e => exact List.prefix_refl _
    | keepSessions ws => exact hwoken _
    | loseSessions ws => exact hwoken _
    | deliver id e => exact hwoken _
    | spawn job => exact List.prefix_append _ _
    | _ => exact List.prefix_refl _

/-- A step of a task adds to the queue, and concerns no other task. -/
theorem step_task_kept (B : Behaviours β σ) (m : Scheduler β σ) (limit : Option Nat) (a : Handle)
    (p : HubProgram β σ EventResult) (main : Suspended β σ α) :
    m.ready <+: (m.step B limit (.task a p main)).1.ready ∧
      ∀ k ∈ m.tasks, k.handle ≠ a → k ∈ (m.step B limit (.task a p main)).1.tasks := by
  have hready := ready_advance B m p
  have hkept := (grows_advance B m p).kept
  have hothers : ∀ {m₁ : Scheduler β σ} {k : Task β σ}, k ∈ m₁.tasks → k.handle ≠ a →
      k ∈ m₁.tasks.filter (·.handle != a) := fun hk hne =>
    List.mem_filter.mpr ⟨hk, bne_iff_ne.mpr hne⟩
  simp only [step]
  split
  · next hp =>
    rw [hp] at hready hkept
    exact ⟨hready, fun k hk _ => hkept k hk⟩
  · next hp =>
    rw [hp] at hready hkept
    exact ⟨hready, fun k hk hne => List.mem_append_left _ (hothers (hkept k hk) hne)⟩
  · next m₁ r hp =>
    rw [hp] at hready hkept
    refine ⟨hready.trans (m₁.rouses_complete a (asFailure r)).ready, fun k hk hne => ?_⟩
    rw [(m₁.wakes_complete a _).tasks]
    exact hothers (hkept k hk) hne

/-- It goes on, or nobody has the turn after it. -/
theorem turn_step_task (B : Behaviours β σ) (m : Scheduler β σ) (limit : Option Nat) (a : Handle)
    (p : HubProgram β σ EventResult)
    (main : Suspended β σ α) : (∃ q, (m.step B limit (.task a p main)).2 = .task a q main) ∨
      (m.step B limit (.task a p main)).2 = .nobody main := by
  simp only [step]
  split
  · exact .inl ⟨_, rfl⟩
  · exact .inr rfl
  · exact .inr rfl

/-- **A task that has the turn gives it back**, where it halts. The queue gets
longer meanwhile, if it changes, and the other tasks stay what they are. -/
theorem Alert.gives_back (B : Behaviours β σ) (limit : Option Nat) {a : Handle}
    {p : HubProgram β σ EventResult}
    (h : m.Alert H (.task a p main)) (hhalt : m.Halting B (some (a, p))) :
    ∃ n m', m.steps B limit n (.task a p main) = (m', .nobody main) ∧ m'.Halting B none ∧
      m.ready <+: m'.ready ∧ ∀ k ∈ m.tasks, k.handle ≠ a → k ∈ m'.tasks := by
  generalize hload : m.load (some (a, p)) = work
  have hacc := acc_load hhalt
  rw [hload] at hacc
  generalize hs : m.hub.settings = s at hacc
  induction hacc generalizing m p with
  | intro work _ ih =>
    subst hload
    subst hs
    have hp : Acc (Work.Leaves B m.hub.settings) (.runs p) :=
      hhalt _ (Multiset.mem_add.mpr (.inr (Multiset.mem_singleton_self _)))
    have hl := lighter_task limit main h.tidy hp
    have hset := (lasting_settings m.hub.settings).step (dealt B limit m (.task a p main)) rfl
    have hlater := hhalt.of_lighter hset hl
    have halert := h.step B limit
    obtain ⟨hready, hkept⟩ := m.step_task_kept B limit a p main
    have hturn := m.turn_step_task B limit a p main
    generalize hfound : m.step B limit (.task a p main) = found at *
    obtain ⟨m₁, t₁⟩ := found
    have hfirst : ∀ n, m.steps B limit (n + 1) (.task a p main) = m₁.steps B limit n t₁ := by
      intro n
      rw [steps_succ, hfound]
    rcases hturn with ⟨q, rfl⟩ | rfl
    · obtain ⟨n, m', hn, hhalt', hready', hkept'⟩ := ih _ hl halert hlater rfl hset
      exact ⟨n + 1, m', (hfirst n).trans hn, hhalt', hready.trans hready',
        fun k hk hne => hkept' k (hkept k hk hne) hne⟩
    · exact ⟨1, m₁, hfirst 0, hlater, hready, hkept⟩

/-- The task at the head of the queue. -/
theorem find?_of_mem (hd : (m.tasks.map (·.handle)).Nodup) {k : Task β σ} (hk : k ∈ m.tasks) :
    m.tasks.find? (·.handle == k.handle) = some k := by
  cases hfind : m.tasks.find? (·.handle == k.handle) with
  | none => exact absurd (beq_self_eq_true k.handle) (List.find?_eq_none.mp hfind k hk)
  | some k' =>
    rw [List.inj_on_of_nodup_map hd (List.mem_of_find?_eq_some hfind) hk (handle_of_find? hfind)]

/-- A reply leaves the queue. -/
theorem ready_answer? {deadline : Option Nat} {w : Wait} {r : w.Reply}
    (h : m.answer? deadline w = some (r, m')) : m'.ready = m.ready := by
  rcases yields_or_reply?_of_answer? h with ⟨-, rfl⟩ | h
  · rfl
  · cases replies_of_reply? h <;> rfl

/-- **Whoever is in front of the queue is taken from it**, and has the turn if
it can go on. -/
theorem takeTurn_hands (m : Scheduler β σ) (a : Handle) (rest : List Handle)
    (main : Suspended β σ α) : (m.takeTurn a rest main).1.ready = rest ∧
      (m.takeTurn a rest main).1.tasks = m.tasks ∧
      ((m.takeTurn a rest main).2 = .nobody main ∨ ∃ k ∈ m.tasks, ∃ p, k.handle = a ∧
        k.GoesOn p ∧ (m.takeTurn a rest main).2 = .task a p main) := by
  unfold takeTurn
  simp only
  split
  · exact ⟨rfl, rfl, .inl rfl⟩
  · next hfind =>
    exact ⟨rfl, rfl, .inr ⟨_, List.mem_of_find?_eq_some hfind, _, handle_of_find? hfind,
      .begins rfl, rfl⟩⟩
  · next s hfind =>
    rcases resume_cases { m with ready := rest } s with ⟨r, m', hr, hres⟩ | ⟨-, -, hres⟩
    · rw [hres]
      exact ⟨ready_answer? hr, (told_of_answer? hr).2, .inr ⟨_, List.mem_of_find?_eq_some hfind, _,
        handle_of_find? hfind, .resumes r rfl, rfl⟩⟩
    · rw [hres]
      exact ⟨rfl, rfl, .inl rfl⟩

/-- A task that goes on does what is left of its work. -/
theorem leaves_of_goesOn {s : DispatchSettings} {k : Task β σ} {p : HubProgram β σ EventResult}
    (h : k.GoesOn p) : Work.Leaves B s (.runs p) (.waits k.state) := by
  cases h with
  | begins hstate => exact hstate ▸ .begins
  | resumes r hstate => exact hstate ▸ .resumes r

/-- A task that goes on leaves less to be done than it had when it waited. -/
theorem Alert.lighter_of_goesOn (h : m.Alert H (.nobody main)) (hhalt : m.Halting B none)
    {k : Task β σ} {p : HubProgram β σ EventResult} (hk : k ∈ m.tasks) (hgoes : k.GoesOn p)
    (htasks : m'.tasks = m.tasks) :
    Lighter B m.hub.settings (m'.load (some (k.handle, p))) (m.load none) := by
  have hwork : Work.waits k.state ∈ m.load none := Multiset.mem_coe.mpr (List.mem_map_of_mem hk)
  exact lighter_pick h.attentive.distinct hk htasks (leaves_of_goesOn hgoes) (hhalt _ hwork)

/-- **A task that is ready comes to the front of the queue**, where tasks
halt. -/
theorem Alert.comes_first (B : Behaviours β σ) (limit : Option Nat) (h : m.Alert H (.nobody main))
    (hhalt : m.Halting B none)
    {k : Task β σ} (hk : k ∈ m.tasks) (hready : k.handle ∈ m.ready) :
    ∃ n m' rest, m.steps B limit n (.nobody main) = (m', .nobody main) ∧ k ∈ m'.tasks ∧
      m'.ready = k.handle :: rest := by
  obtain ⟨before, behind, hsplit, hnot⟩ := List.eq_append_cons_of_mem hready
  clear hready
  induction before generalizing m behind with
  | nil => exact ⟨0, m, behind, rfl, hk, hsplit⟩
  | cons a before ih =>
    obtain ⟨hne, hrest⟩ := not_or.mp (mt List.mem_cons.mpr hnot)
    have hnext : m.step B limit (.nobody main)
        = m.takeTurn a (before ++ k.handle :: behind) main := by
      show m.nextTurn limit main = _
      rw [nextTurn, hsplit]
      rfl
    have halert := h.step B limit
    have hset := (lasting_settings m.hub.settings).step (dealt B limit m (.nobody main)) rfl
    obtain ⟨hready, htasks, hturn⟩ := m.takeTurn_hands a (before ++ k.handle :: behind) main
    rw [← hnext] at hready htasks hturn
    have hsteps : ∀ n, m.steps B limit (n + 1) (.nobody main)
        = (m.step B limit (.nobody main)).1.steps B limit n (m.step B limit (.nobody main)).2 :=
      fun n => steps_succ ..
    generalize m.step B limit (.nobody main) = found at *
    obtain ⟨m₁, t₁⟩ := found
    have hk₁ : k ∈ m₁.tasks := htasks ▸ hk
    rcases hturn with rfl | ⟨k', hk', p, rfl, hgoes, rfl⟩
    · have hhalt₁ : m₁.Halting B none := by
        unfold Halting load
        rw [htasks, hset]
        exact hhalt
      obtain ⟨n, m', rest, hn, hend⟩ := ih halert hhalt₁ hk₁ behind hready hrest
      exact ⟨n + 1, m', rest, (hsteps n).trans hn, hend⟩
    -- whoever has the turn gives it back, and fewer are in front then
    · have hl := h.lighter_of_goesOn hhalt hk' hgoes htasks
      obtain ⟨n, m₂, hn, hhalt₂, ⟨later, hlater⟩, hkept⟩ :=
        halert.gives_back B limit (hhalt.of_lighter hset hl)
      have halert₂ := halert.steps B limit n
      rw [hn] at halert₂
      obtain ⟨n', m', rest, hn', hend⟩ := ih halert₂ hhalt₂ (hkept k hk₁ hne)
        (behind ++ later) (by rw [← hlater, hready, List.append_assoc]; rfl) hrest
      refine ⟨n + n' + 1, m', rest, ?_, hend⟩
      rw [hsteps, steps_add, hn, hn']

/-- **A task that is ready gets its turn**, where tasks halt and the main
program waits. -/
theorem Alert.gets_turn (B : Behaviours β σ) (limit : Option Nat) (h : m.Alert H t)
    (hmain : t.main? = some main)
    (hhalt : m.Halting B t.task?) {k : Task β σ} (hk : k ∈ m.tasks)
    (hx : some k.handle ≠ t.handle?) (hready : k.handle ∈ m.ready) :
    ∃ n m' rest, m.steps B limit n t = (m', .nobody main) ∧ k ∈ m'.tasks ∧
      m'.ready = k.handle :: rest := by
  cases t with
  | main p => exact absurd hmain (by simp [Turn.main?])
  | ended r => exact absurd hmain (by simp [Turn.main?])
  | stuck => exact absurd hmain (by simp [Turn.main?])
  | nobody main' =>
    obtain rfl : main' = main := Option.some.inj hmain
    exact h.comes_first B limit hhalt hk hready
  | task a p main' =>
    obtain rfl : main' = main := Option.some.inj hmain
    obtain ⟨n, m₁, hn, hhalt₁, hlater, hkept⟩ := h.gives_back B limit hhalt
    have h₁ := h.steps B limit n
    rw [hn] at h₁
    obtain ⟨n', m', rest, hn', hend⟩ := h₁.comes_first B limit hhalt₁
      (hkept k hk fun he => hx (congrArg some he)) (hlater.subset hready)
    exact ⟨n + n', m', rest, by rw [steps_add, hn, hn'], hend⟩

end Scheduler

end Switchboard
