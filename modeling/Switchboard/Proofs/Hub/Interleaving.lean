import Switchboard.Proofs.Hub.Waking
import Switchboard.Proofs.Session.Order

/-!
# The scheduler among threads

The scheduler lets one program take a step at a time. Threads can do all that
it does (`Scheduler.run_steps`): the main program runs on one thread, and
whichever task has the turn runs on another one. A program has hold of the list
of sessions only while it offers an event, and until it lets go it neither
waits nor ends (`Program.Holding`). So nobody else has a turn meanwhile, and
whoever makes a call may make it.

What is known of everything that threads can do is therefore known of the
scheduler.
-/

namespace Switchboard

variable {β σ α γ : Type} {B : Behaviours β σ}

open HubProgram

/-! ## Programs that have hold of the sessions -/

namespace Program

/-- **A program that has hold of the sessions** makes requests and delivers
events, until it lets go of them. -/
inductive Holding (B : Behaviours β σ) : HubProgram β σ α → Prop
  | asks {r : Request β σ} {next : r.Reply → HubProgram β σ α} :
      (∀ a, (next a).Holding B) → Holding B (.call (.user (.request r)) next)
  | delivers {s : Id} {e : Event} {next : Unit → HubProgram β σ α} :
      (next ()).Holding B → Holding B (.call (.deliver s e) next)
  | keeps {ws : List (Waiter β)} {next : Unit → HubProgram β σ α} :
      (next ()).Calm B → Holding B (.call (.keepSessions ws) next)
  | loses {ws : List (Waiter β)} {next : Unit → HubProgram β σ α} :
      (next ()).Calm B → Holding B (.call (.loseSessions ws) next)

variable {c : EventContext} {f : Except Payload Unit → HubProgram β σ α}

theorem holding_question {w : Waiter β} {kept ws : List (Waiter β)}
    (hws : ∀ kept, ((offer B c kept ws).recover.bind f).Holding B) (hf : ∀ r, (f r).Calm B)
    (q : Program (requests β σ) Bool) :
    (((HubProgram.ofRequests q).recover.bind
      (Scheduler.afterQuestion B c kept w ws)).recover.bind f).Holding B := by
  induction q with
  | done b =>
    cases b with
    | true => exact .delivers (hws kept)
    | false => exact hws (kept ++ [w])
  | panic p => exact .loses (hf (.error p))
  | call r next ih => exact .asks ih

/-- Whoever offers an event has hold of the sessions. -/
theorem holding_offer (hf : ∀ r, (f r).Calm B) (kept ws : List (Waiter β)) :
    ((offer B c kept ws).recover.bind f).Holding B := by
  induction ws generalizing kept with
  | nil => exact .keeps (hf (.ok ()))
  | cons w ws ih =>
    rw [offer]
    split
    · exact ih kept
    · rw [acceptedByWaiter_eq]
      exact holding_question ih hf (question B c w)

/-- **How a program stands to the sessions**: whether it has hold of them, and
whether it is about to take hold of them if it has not. -/
inductive Proceeds (B : Behaviours β σ) : Bool → HubProgram β σ α → Prop
  | calm {p : HubProgram β σ α} : p.Calm B → Proceeds B false p
  | begun {c : EventContext} {f : Except Payload Unit → HubProgram β σ α} :
      (∀ r, (f r).Calm B) → Proceeds B false ((resumeSessions B c).recover.bind f)
  | holds {p : HubProgram β σ α} : p.Holding B → Proceeds B true p

variable {b : Bool} {p q : HubProgram β σ α} {m m' : Scheduler β σ}

/-- Whoever has hold of the sessions, if this one has. -/
def seat (i : Nat) (b : Bool) : Option Nat := if b then some i else none

/-- **A program that takes a step** stands to the sessions as its call says. -/
theorem Proceeds.step (h : p.Proceeds B b) (ha : m.Advanced B p m' (.running q)) (i : Nat) :
    ∃ b', q.Proceeds B b' ∧
      p.call?.elim (seat i b) (HubCall.holder i (seat i b)) = seat i b' := by
  cases h with
  | @calm p hcalm =>
    cases hb : p.call?.bind HubCall.begins? with
    | none => exact ⟨false, .calm (ha.calm hcalm hb), hcalm.holder_eq hb i _⟩
    | some e =>
      obtain ⟨next, f, rfl, hnext, hf⟩ := hcalm.of_begins hb
      have hbegun : ∀ b, (next b).Proceeds B false := fun b => by
        rw [hnext]
        exact .begun (hf b)
      cases ha with
      | served _ => exact ⟨false, hbegun _, rfl⟩
  | @begun c f hf =>
    cases ha with
    | served _ => exact ⟨true, .holds (holding_offer hf [] _), rfl⟩
  | holds hholding =>
    cases hholding with
    | asks hnext =>
      cases ha with
      | served _ => exact ⟨true, .holds (hnext _), rfl⟩
    | delivers hnext =>
      cases ha with
      | served _ => exact ⟨true, .holds hnext, rfl⟩
    | keeps hnext =>
      cases ha with
      | served _ => exact ⟨false, .calm hnext, rfl⟩
    | loses hnext =>
      cases ha with
      | served _ => exact ⟨false, .calm hnext, rfl⟩

/-- **A program that waits** goes on with calm ones, and has no hold of the
sessions. -/
theorem Proceeds.waits (h : p.Proceeds B b) {s : Suspended β σ α}
    (ha : m.Advanced B p m' (.waiting s)) (i : Nat) : (∀ r, (s.next r).Calm B) ∧
      p.call?.elim (seat i b) (HubCall.holder i (seat i b)) = none := by
  cases h with
  | calm hcalm =>
    cases ha with
    | waits => exact ⟨Scheduler.calm_of_wait hcalm, rfl⟩
  | begun _ => cases ha
  | holds hholding => cases hholding <;> cases ha

/-- Nor has one that ends. -/
theorem Proceeds.ends (h : p.Proceeds B b) {r : Except Payload α}
    (ha : m.Advanced B p m' (.ended r)) (i : Nat) :
    p.call?.elim (seat i b) (HubCall.holder i (seat i b)) = none := by
  cases h with
  | calm _ => cases ha <;> rfl
  | begun _ => cases ha
  | holds hholding => cases hholding <;> cases ha

/-- It is calm, or it does not wait. -/
theorem Proceeds.calm_or (h : p.Proceeds B b) :
    p.Calm B ∨ ∃ call, p.call? = some call ∧ ∀ w, call ≠ .user (.wait w) := by
  cases h with
  | calm hcalm => exact .inl hcalm
  | begun _ => exact .inr ⟨.holdSessions, rfl, by simp⟩
  | holds hholding =>
    refine .inr ?_
    cases hholding with
    | asks _ => exact ⟨_, rfl, by simp⟩
    | delivers _ => exact ⟨_, rfl, by simp⟩
    | keeps _ => exact ⟨_, rfl, by simp⟩
    | loses _ => exact ⟨_, rfl, by simp⟩

end Program

namespace Scheduler

/-! ## Turns as threads -/

/-- **The threads of a turn**: the main program is on the first one, and the task
that has the turn on the second one. -/
def Turn.thread (t : Turn β σ α) : Nat → Thread β σ α
  | 0 =>
    match t with
    | main p => .runs p
    | task _ _ s => .waits s
    | nobody s => .waits s
    | ended r => .ended r
    | stuck => .idle
  | 1 =>
    match t with
    | task h p _ => .task h p
    | _ => .idle
  | _ => .idle

/-- **Tasks and the main program can be run**, whoever has the turn. -/
structure InTurn (B : Behaviours β σ) (m : Scheduler β σ) (t : Turn β σ α)
    (holder : Option Nat) : Prop where
  tasks : ∀ k ∈ m.tasks, ∀ p, k.GoesOn p → p.Calm B
  turn : match t with
    | .main p => ∃ b, p.Proceeds B b ∧ holder = Program.seat 0 b
    | .task _ p s => (∀ r, (s.next r).Calm B) ∧ ∃ b, p.Proceeds B b ∧ holder = Program.seat 1 b
    | .nobody s => (∀ r, (s.next r).Calm B) ∧ holder = none
    | _ => holder = none

/-- **Threads can come to a turn** of the scheduler. -/
def Comes (B : Behaviours β σ) (T : Threads β σ α) (found : Scheduler β σ × Turn β σ α) : Prop :=
  ∃ x holder, T.Run B x ⟨found.1, found.2.thread, holder⟩ ∧ InTurn B found.1 found.2 holder

variable {m m' : Scheduler β σ} {t t' : Turn β σ α} {T T' : Threads β σ α} {x : History β σ}
  {found : Scheduler β σ × Turn β σ α} {main : Suspended β σ α} {holder : Option Nat}

theorem Comes.of_run (hr : T.Run B x T') (h : Comes B T' found) : Comes B T found := by
  obtain ⟨y, holder, hy, hin⟩ := h
  exact ⟨x ++ y, holder, hr.trans hy, hin⟩

/-- Nothing is seen of the order of turns. -/
theorem run_rests (hw : m.Wakes m') (hclock : m.clock ≤ m'.clock) :
    Threads.Run B (⟨m, t.thread, holder⟩ : Threads β σ α) [] ⟨m', t.thread, holder⟩ :=
  Threads.Step.run (.rests hw hclock)

theorem update_main (t t' : Turn β σ α) (h : t.thread 1 = t'.thread 1) :
    Function.update t.thread 0 (t'.thread 0) = t'.thread := by
  funext i
  match i with
  | 0 => rfl
  | 1 => exact h
  | _ + 2 => rfl

theorem update_task (t t' : Turn β σ α) (h : t.thread 0 = t'.thread 0) :
    Function.update t.thread 1 (t'.thread 1) = t'.thread := by
  funext i
  match i with
  | 0 => exact h
  | 1 => rfl
  | _ + 2 => rfl

/-! ## Between turns -/

section Between

variable (ht : ∀ k ∈ m.tasks, ∀ p, k.GoesOn p → p.Calm B) (hmain : ∀ r, (main.next r).Calm B)

include ht

/-- Waking somebody comes to the same threads. -/
theorem Comes.of_wakes (m' : Scheduler β σ) (hw : m.Wakes m') (hclock : m.clock ≤ m'.clock)
    (h : (∀ k ∈ m'.tasks, ∀ p, k.GoesOn p → p.Calm B) →
      Comes B ⟨m', t.thread, holder⟩ found) : Comes B ⟨m, t.thread, holder⟩ found :=
  .of_run (run_rests hw hclock) (h (hw.tasks ▸ ht))

include hmain

theorem comes_nobody (hw : m.Wakes m') (hclock : m.clock ≤ m'.clock) :
    Comes B ⟨m, (Turn.nobody main).thread, none⟩ (m', .nobody main) :=
  .of_wakes ht m' hw hclock fun ht' => ⟨[], none, .refl, ht', hmain, rfl⟩

omit hmain in
/-- The main program is given up. -/
theorem comes_stuck :
    Comes B ⟨m, (Turn.nobody main).thread, none⟩
      ({ m with mainWait := none }.drop main.wait, (.stuck : Turn β σ α)) := by
  refine .of_wakes ht { m with mainWait := none } ⟨rfl, rfl⟩ (Nat.le_refl _) fun ht' => ?_
  have hgives : Threads.Step B ⟨{ m with mainWait := none }, (Turn.nobody main).thread, none⟩ _ _ :=
    .givesUp 0 rfl
  refine .of_run hgives.run
    ⟨[], none, ?_, fun k hk => ht' k ((kept_drop _ main.wait).tasks k hk), rfl⟩
  rw [← update_main (.nobody main) .stuck rfl]
  exact .refl

/-- The main program is set aside, or given up. -/
theorem comes_setMainAside (limit : Option Nat) :
    Comes B ⟨m, (Turn.nobody main).thread, none⟩ (m.setMainAside limit main) := by
  unfold setMainAside
  split
  · exact comes_stuck ht
  · exact comes_nobody ht hmain ⟨rfl, rfl⟩ (Nat.le_refl _)

/-- The main program goes on between two rounds, or it is set aside again. -/
theorem comes_mainTurn (limit : Option Nat) :
    Comes B ⟨m, (Turn.nobody main).thread, none⟩ (m.mainTurn limit main) := by
  unfold mainTurn
  rcases m.resume_cases main with ⟨r, m', hr, hres⟩ | ⟨-, -, hres⟩
  · rw [hres]
    have hresumes : Threads.Step B ⟨m, (Turn.nobody main).thread, none⟩ _ _ := .resumes 0 rfl hr
    have ht' : ∀ k ∈ m'.tasks, ∀ p, k.GoesOn p → p.Calm B := fun k hk =>
      ht k ((kept_answer? hr).tasks k hk)
    refine .of_run hresumes.run ?_
    show Comes B ⟨m', Function.update (Turn.nobody main).thread 0
      ((Turn.main (main.next r)).thread 0), none⟩ _
    rw [update_main (.nobody main) (.main (main.next r)) rfl]
    refine .of_wakes ht' { m' with mainWait := none } ⟨rfl, rfl⟩ (Nat.le_refl _) fun ht' => ?_
    exact ⟨[], none, .refl, ht', false, .calm (hmain r), rfl⟩
  · rw [hres]
    exact comes_setMainAside ht hmain limit

/-- The task at the head of the queue has its turn. -/
theorem comes_takeTurn (a : Handle) (rest : List Handle) :
    Comes B ⟨m, (Turn.nobody main).thread, none⟩ (m.takeTurn a rest main) := by
  -- the task is run by nobody yet
  have hfree : ∀ (m : Scheduler β σ) (h : Handle),
      (⟨m, (Turn.nobody main).thread, none⟩ : Threads β σ α).Free h := by
    intro m h i p he
    match i with
    | 0 => exact absurd he (by simp [Turn.thread])
    | 1 => exact absurd he (by simp [Turn.thread])
    | _ + 2 => exact absurd he (by simp [Turn.thread])
  refine .of_wakes ht { m with ready := rest } ⟨rfl, rfl⟩ (Nat.le_refl _) fun ht => ?_
  unfold takeTurn
  simp only
  split
  · exact comes_nobody ht hmain (.refl _) (Nat.le_refl _)
  · next h' p hfind =>
    have hmem := List.mem_of_find?_eq_some hfind
    obtain rfl : h' = a := handle_of_find? hfind
    have hstarts : Threads.Step B ⟨{ m with ready := rest }, (Turn.nobody main).thread, none⟩ _ _ :=
      .starts 1 rfl hmem (hfree _ _) rfl
    refine .of_run hstarts.run ?_
    show Comes B ⟨_, Function.update (Turn.nobody main).thread 1
      ((Turn.task h' p main).thread 1), none⟩ _
    rw [update_task (.nobody main) (.task h' p main) rfl]
    exact ⟨[], none, .refl, ht, hmain, false, .calm (ht _ hmem p (.begins rfl)), rfl⟩
  · next h' s hfind =>
    have hmem := List.mem_of_find?_eq_some hfind
    obtain rfl : h' = a := handle_of_find? hfind
    rcases resume_cases { m with ready := rest } s with ⟨r, m', hr, hres⟩ | ⟨-, -, hres⟩
    · rw [hres]
      have hgoes : Threads.Step B ⟨{ m with ready := rest }, (Turn.nobody main).thread, none⟩ _ _ :=
        .goesOn 1 rfl hmem (hfree _ _) rfl hr
      refine .of_run hgoes.run ?_
      show Comes B ⟨m', Function.update (Turn.nobody main).thread 1
        ((Turn.task h' (s.next r) main).thread 1), none⟩ _
      rw [update_task (.nobody main) (.task h' (s.next r) main) rfl]
      exact ⟨[], none, .refl, fun k hk => ht k ((kept_answer? hr).tasks k hk), hmain, false,
        .calm (ht _ hmem _ (.resumes r rfl)), rfl⟩
    · rw [hres]
      exact comes_nobody ht hmain (.refl _) (Nat.le_refl _)

/-- **Threads can come to whoever has the next turn.** -/
theorem comes_nextTurn (limit : Option Nat) :
    Comes B ⟨m, (Turn.nobody main).thread, none⟩ (m.nextTurn limit main) := by
  have hround : ∀ m₁ : Scheduler β σ, m.Wakes m₁ → m.clock ≤ m₁.clock → ∀ b : Bool,
      Comes B ⟨m, (Turn.nobody main).thread, none⟩
        (if b then (m₁.endRound main).mainTurn limit main
          else (m₁.endRound main, .nobody main)) := by
    intro m₁ hw hclock b
    have hw₁ := hw.trans (m₁.wakes_endRound main)
    have hclock₁ : m.clock ≤ (m₁.endRound main).clock := by
      obtain ⟨later, b, heq, -⟩ := m₁.endRound_eq main
      rw [heq]
      exact hclock
    cases b with
    | true => exact .of_wakes ht _ hw₁ hclock₁ fun ht' => comes_mainTurn ht' hmain limit
    | false => exact comes_nobody ht hmain hw₁ hclock₁
  unfold nextTurn
  split
  · exact comes_takeTurn ht hmain _ _
  · extract_lets yielded
    split
    · exact hround m (.refl m) (Nat.le_refl _) _
    · split
      · exact comes_mainTurn ht hmain limit
      · split
        · exact comes_stuck ht
        · next d _ =>
          exact hround { m with clock := max m.clock d } ⟨rfl, rfl⟩ (Nat.le_max_left _ _) _

end Between

/-! ## Steps -/

/-- The thread of a turn that runs a program can take a step. -/
theorem run_acts (m : Scheduler β σ) (t : Turn β σ α) (i : Nat) (b : Bool) :
    Threads.Run B (⟨m, t.thread, Program.seat i b⟩ : Threads β σ α)
      (.on i (((t.thread i).exchange? m).map .made))
      ⟨((t.thread i).act B m).1, Function.update t.thread i ((t.thread i).act B m).2,
        (t.thread i).call?.elim (Program.seat i b) (HubCall.holder i (Program.seat i b))⟩ := by
  refine Threads.Step.run (.acts i fun call _ _ j hj => ?_)
  change Program.seat i b = some j at hj
  cases b with
  | true => exact (Option.some.inj hj).symm
  | false => exact absurd hj (by simp [Program.seat])

/-- The main program takes a step. -/
theorem comes_main (ht : ∀ k ∈ m.tasks, ∀ p, k.GoesOn p → p.Calm B) {p : HubProgram β σ α}
    {b : Bool} (hp : p.Proceeds B b) (limit : Option Nat) :
    Comes B ⟨m, (Turn.main p).thread, Program.seat 0 b⟩ (m.step B limit (.main p)) := by
  have hacts := run_acts (B := B) m (.main p) 0 b
  have htasks := Thread.tasks_calm_act (t := .runs p) ht hp.calm_or
  have ha := m.advanced B p
  change Threads.Run B _ _ ⟨(m.advance B p).1, Function.update (Turn.main p).thread 0
    (.ofProgress (m.advance B p).2), p.call?.elim _ _⟩ at hacts
  change ∀ k ∈ (m.advance B p).1.tasks, _ at htasks
  simp only [Scheduler.step]
  generalize m.advance B p = found at *
  obtain ⟨m', q⟩ := found
  cases q with
  | running q =>
    obtain ⟨b', hq, hholder⟩ := hp.step ha 0
    have hthread : Function.update (Turn.main p).thread 0 (.runs q) = (Turn.main q).thread :=
      update_main (.main p) (.main q) rfl
    rw [hholder] at hacts
    exact ⟨_, Program.seat 0 b', hthread ▸ hacts, htasks, b', hq, rfl⟩
  | waiting s =>
    obtain ⟨hs, hholder⟩ := hp.waits ha 0
    have hthread : Function.update (Turn.main p).thread 0 (.waits s) = (Turn.nobody s).thread :=
      update_main (.main p) (.nobody s) rfl
    rw [hholder] at hacts
    exact .of_run (hthread ▸ hacts) (comes_setMainAside htasks hs limit)
  | ended r =>
    have hthread : Function.update (Turn.main p).thread 0 (.ended r) = (Turn.ended r).thread :=
      update_main (.main p) (.ended r) rfl
    rw [hp.ends ha 0] at hacts
    exact ⟨_, none, hthread ▸ hacts, htasks, rfl⟩

/-- A task takes a step. -/
theorem comes_task (ht : ∀ k ∈ m.tasks, ∀ p, k.GoesOn p → p.Calm B)
    (hmain : ∀ r, (main.next r).Calm B) (a : Handle) {p : HubProgram β σ EventResult}
    {b : Bool} (hp : p.Proceeds B b) (limit : Option Nat) :
    Comes B ⟨m, (Turn.task a p main).thread, Program.seat 1 b⟩
      (m.step B limit (.task a p main)) := by
  have hacts := run_acts (B := B) m (.task a p main) 1 b
  have htasks := Thread.tasks_calm_act (α := α) (t := .task a p) ht hp.calm_or
  have ha := m.advanced B p
  change Threads.Run B _ _ ⟨(Thread.ofTask a (m.advance B p) : _ × Thread β σ α).1,
    Function.update (Turn.task a p main).thread 1 (Thread.ofTask a (m.advance B p)).2,
    p.call?.elim _ _⟩ at hacts
  change ∀ k ∈ (Thread.ofTask a (m.advance B p) : _ × Thread β σ α).1.tasks, _ at htasks
  simp only [Scheduler.step]
  generalize m.advance B p = found at *
  obtain ⟨m', q⟩ := found
  have hidle : Function.update (Turn.task a p main).thread 1 .idle = (Turn.nobody main).thread :=
    update_task (.task a p main) (.nobody main) rfl
  cases q with
  | running q =>
    obtain ⟨b', hq, hholder⟩ := hp.step ha 1
    have hthread : Function.update (Turn.task a p main).thread 1 (.task a q)
        = (Turn.task a q main).thread :=
      update_task (.task a p main) (.task a q main) rfl
    rw [hholder] at hacts
    exact ⟨_, Program.seat 1 b', hthread ▸ hacts, htasks, hmain, b', hq, rfl⟩
  | waiting s =>
    rw [(hp.waits ha 1).2] at hacts
    exact ⟨_, none, hidle ▸ hacts, htasks, hmain, rfl⟩
  | ended r =>
    rw [hp.ends ha 1] at hacts
    exact ⟨_, none, hidle ▸ hacts, htasks, hmain, rfl⟩

/-- **Threads can take each step of the scheduler.** -/
theorem comes_step (h : InTurn B m t holder) (limit : Option Nat) :
    Comes B ⟨m, t.thread, holder⟩ (m.step B limit t) := by
  cases t with
  | main p =>
    obtain ⟨b, hp, rfl⟩ := h.turn
    exact comes_main h.tasks hp limit
  | task a p main =>
    obtain ⟨hmain, b, hp, rfl⟩ := h.turn
    exact comes_task h.tasks hmain a hp limit
  | nobody main =>
    obtain ⟨hmain, rfl⟩ := h.turn
    exact comes_nextTurn h.tasks hmain limit
  | ended r => exact ⟨[], holder, .refl, h⟩
  | stuck => exact ⟨[], holder, .refl, h⟩

/-- **All that the scheduler does, threads can do**, any number of steps. -/
theorem comes_steps (h : InTurn B m t holder) (limit : Option Nat) (n : Nat) :
    Comes B ⟨m, t.thread, holder⟩ (m.steps B limit n t) := by
  induction n generalizing m t holder with
  | zero => exact ⟨[], holder, .refl, h⟩
  | succ n ih =>
    obtain ⟨x, holder', hr, hin⟩ := comes_step h limit
    rw [steps_succ]
    exact .of_run hr (ih hin)

/-- **A scheduler is one of the things that threads can be**: what it comes to
with a calm program is what they come to, to which nothing had happened. -/
theorem run_steps {p : HubProgram β σ α} (hp : p.Calm B) (hub : Hub β σ) (limit : Option Nat)
    (n : Nat) :
    ∃ x T, Threads.Run B (.fresh hub : Threads β σ α) x T ∧
      T.shared = ((Scheduler.fresh hub).steps B limit n (.main p)).1 := by
  have hin : InTurn B (.fresh hub) (.main p) none :=
    ⟨fun k hk => absurd hk List.not_mem_nil, false, .calm hp, rfl⟩
  obtain ⟨x, holder, hr, -⟩ := comes_steps hin limit n
  have hidle : (Turn.stuck : Turn β σ α).thread = fun _ => .idle := by
    funext i
    match i with
    | 0 => rfl
    | 1 => rfl
    | _ + 2 => rfl
  have hbegins : Threads.Step B (.fresh hub : Threads β σ α) _ _ := .begins 0 rfl hp
  have hthread : Function.update (fun _ => .idle) 0 (.runs p) = (Turn.main p).thread :=
    hidle ▸ update_main .stuck (.main p) rfl
  rw [← hthread] at hr
  exact ⟨_, _, Threads.Run.trans hbegins.run hr, rfl⟩

end Scheduler

end Switchboard
