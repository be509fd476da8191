import Switchboard.Hub.Scheduler
import Switchboard.Proofs.Hub.Service
import Switchboard.Proofs.Session.Deeds

/-!
# What a step of the scheduler does

The scheduler lets one program take one step at a time. `Stepped` says
once what a step can do: the program whose turn it is makes one call, waits
or ends (`Advanced`), or the turn goes to another program, which goes on
from where it was set aside (`Hands`).

Of the hub, the scheduler itself touches the sessions and the handles only,
to wake those who wait, and to give up a session when the wait for it is
over. The registry and what belongs to dispatches change by the calls that
programs make, as the hub serves them, and tasks come from nowhere but a
call that starts a handler. What is done on the way from one turn to the
next keeps all three, and does nothing to sessions but give up some that
were waited for (`Kept`).
-/

namespace Switchboard

variable {β σ α : Type}

/-- A program with which a task can go on: it is at its beginning, or it is
given a reply. -/
inductive Task.GoesOn (k : Task β σ) : HubProgram β σ EventResult → Prop
  | begins {p : HubProgram β σ EventResult} : k.state = .fresh p → GoesOn k p
  | resumes {s : Suspended β σ EventResult} (r : s.wait.Reply) : k.state = .suspended s →
      GoesOn k (s.next r)

/-- A wait is for a session. -/
def Wait.For (w : Wait) (s : Id) : Prop := ∃ timeout, w = .session s timeout

/-- The call a program makes next. -/
def Program.call? : HubProgram β σ α → Option (HubCall β σ)
  | call c _ => some c
  | _ => none

/-- Two hubs are alike in what programs have done to them, whoever is to be
woken or has looked at a handle. -/
structure Hub.Alike (h h' : Hub β σ) : Prop where
  registry : h'.registry = h.registry
  dispatches : h'.dispatches = h.dispatches
  drawn : h'.drawn = h.drawn
  sessions : h.sessions.Agree h'.sessions

theorem Hub.Alike.refl (h : Hub β σ) : Alike h h := ⟨rfl, rfl, rfl, .refl _⟩

namespace Hub

/-- **The registry and what belongs to dispatches are kept**, and no
identifiers are drawn. Sessions of a sort can be given up. -/
structure Kept (S : Id → Prop) (h h' : Hub β σ) : Prop where
  registry : h'.registry = h.registry
  dispatches : h'.dispatches = h.dispatches
  drawn : h'.drawn = h.drawn
  sessions : ∃ gone : List Id, (∀ s ∈ gone, S s) ∧
    (h.sessions.applyAll (gone.map .abandoned)).Agree h'.sessions

variable {S S' : Id → Prop} {h h' h'' : Hub β σ}

theorem Alike.kept (ha : Alike h h') : Kept S h h' :=
  ⟨ha.registry, ha.dispatches, ha.drawn, [], fun _ hs => absurd hs List.not_mem_nil, ha.sessions⟩

theorem Kept.trans (h₁ : Kept S h h') (h₂ : Kept S h' h'') : Kept S h h'' where
  registry := h₂.registry.trans h₁.registry
  dispatches := h₂.dispatches.trans h₁.dispatches
  drawn := h₂.drawn.trans h₁.drawn
  sessions := by
    obtain ⟨first, hfirst, h₁⟩ := h₁.sessions
    obtain ⟨later, hlater, h₂⟩ := h₂.sessions
    refine ⟨first ++ later, fun s hs => (List.mem_append.mp hs).elim (hfirst s) (hlater s), ?_⟩
    rw [List.map_append, Sessions.applyAll_append]
    exact (h₁.applyAll _).trans h₂

theorem Kept.mono (hk : Kept S h h') (hS : ∀ s, S s → S' s) : Kept S' h h' where
  registry := hk.registry
  dispatches := hk.dispatches
  drawn := hk.drawn
  sessions := by
    obtain ⟨gone, hgone, hs⟩ := hk.sessions
    exact ⟨gone, fun s hmem => hS s (hgone s hmem), hs⟩

theorem Kept.spares (hk : Kept S h h') (i : Nat) : Spares i h h' :=
  spares_of_dispatches_eq hk.dispatches

end Hub

namespace Scheduler

/-- **The hub is kept**, but for sessions of a sort that are given up, and
there are no new tasks. -/
structure Kept (S : Id → Prop) (m m' : Scheduler β σ) : Prop where
  hub : m.hub.Kept S m'.hub
  tasks : ∀ k ∈ m'.tasks, k ∈ m.tasks

/-- No session at all. -/
def NoSession (_ : Id) : Prop := False

variable {S : Id → Prop}

theorem Kept.trans {m m' m'' : Scheduler β σ} (h₁ : Kept S m m') (h₂ : Kept S m' m'') :
    Kept S m m'' :=
  ⟨h₁.hub.trans h₂.hub, fun k hk => h₁.tasks k (h₂.tasks k hk)⟩

theorem Kept.mono {m m' : Scheduler β σ} {S' : Id → Prop} (hk : Kept S m m')
    (hS : ∀ s, S s → S' s) : Kept S' m m' :=
  ⟨hk.hub.mono hS, hk.tasks⟩

/-- The scheduler keeps them when it leaves the hub as it is for programs. -/
theorem kept_of_alike {m m' : Scheduler β σ} (hh : m.hub.Alike m'.hub)
    (ht : ∀ k ∈ m'.tasks, k ∈ m.tasks) : Kept S m m' :=
  ⟨hh.kept, ht⟩

/-- It does so when it keeps to what is its own. -/
theorem kept_of_eq {m m' : Scheduler β σ} (hh : m'.hub = m.hub) (ht : m'.tasks = m.tasks) :
    Kept S m m' :=
  kept_of_alike (hh ▸ .refl m.hub) fun _ hk => ht ▸ hk

theorem Kept.refl (m : Scheduler β σ) : Kept S m m := kept_of_eq rfl rfl

/-- A session is given up. -/
theorem kept_abandon (m : Scheduler β σ) {s : Id} (hs : S s) :
    Kept S m { m with hub := { m.hub with sessions := m.hub.sessions.abandon s } } :=
  ⟨⟨rfl, rfl, rfl, [s], fun _ hmem => List.mem_singleton.mp hmem ▸ hs, .refl _⟩, fun _ hk => hk⟩

/-! ## Waking -/

/-- **Waking somebody** is a matter of turns: it touches neither the hub nor
the tasks. -/
structure Wakes (m m' : Scheduler β σ) : Prop where
  hub : m'.hub = m.hub
  tasks : m'.tasks = m.tasks

theorem Wakes.refl (m : Scheduler β σ) : Wakes m m := ⟨rfl, rfl⟩

theorem Wakes.trans {m m' m'' : Scheduler β σ} (h₁ : Wakes m m') (h₂ : Wakes m' m'') :
    Wakes m m'' :=
  ⟨h₂.hub.trans h₁.hub, h₂.tasks.trans h₁.tasks⟩

theorem Wakes.kept {m m' : Scheduler β σ} (h : Wakes m m') : Kept S m m' :=
  kept_of_eq h.hub h.tasks

theorem wakes_wake (m : Scheduler β σ) (h : Handle) : Wakes m (m.wake h) := by
  unfold wake
  split
  · exact .refl m
  · exact ⟨rfl, rfl⟩

theorem wakes_foldl {γ : Type} {f : Scheduler β σ → γ → Scheduler β σ}
    (hf : ∀ m a, Wakes m (f m a)) (l : List γ) (m : Scheduler β σ) : Wakes m (l.foldl f m) := by
  induction l generalizing m with
  | nil => exact .refl m
  | cons a l ih => exact (hf m a).trans (ih (f m a))

theorem wakes_wakeWhere (m : Scheduler β σ) (p : Option Wait → Bool) :
    Wakes m (m.wakeWhere p) := by
  have h : Wakes m ((m.tasks.filter fun k => p k.wait?).foldl (fun m k => m.wake k.handle) m) :=
    wakes_foldl (fun m (k : Task β σ) => m.wakes_wake k.handle) _ m
  unfold wakeWhere
  simp only
  split
  · exact h.trans ⟨rfl, rfl⟩
  · exact h

/-- Once the owners of sessions are woken, nobody is to be woken. -/
theorem wakes_wakeSettled (m : Scheduler β σ) :
    Wakes { m with hub := { m.hub with sessions := { m.hub.sessions with settled := [] } } }
      m.wakeSettled :=
  wakes_foldl (fun m s => m.wakes_wakeWhere (waitsFor s)) _ _

theorem alike_wakeSettled (m : Scheduler β σ) : m.hub.Alike m.wakeSettled.hub := by
  rw [m.wakes_wakeSettled.hub]
  exact ⟨rfl, rfl, rfl, rfl, rfl⟩

/-- The scheduler in which a task is no longer there, but its result is. -/
def withResult (m : Scheduler β σ) (h : Handle) (r : EventResult) : Scheduler β σ :=
  { m with
    hub := { m.hub with handles := m.hub.handles.complete h r }
    tasks := m.tasks.filter (·.handle != h) }

/-- Once the result of a task is there, those who wait for it are woken. -/
theorem wakes_complete (m : Scheduler β σ) (h : Handle) (r : EventResult) :
    Wakes (m.withResult h r) (m.complete h r) := by
  unfold complete
  simp only
  split
  · exact (wakes_wakeWhere _ _).trans (wakes_wakeWhere _ _)
  · exact wakes_wakeWhere _ _

/-- Ending a task keeps the others. -/
theorem kept_complete (m : Scheduler β σ) (h : Handle) (r : EventResult) :
    Kept NoSession m (m.complete h r) := by
  have hend : Kept NoSession m (m.withResult h r) :=
    kept_of_alike ⟨rfl, rfl, rfl, .refl _⟩ fun k hk => (List.mem_filter.mp hk).1
  exact hend.trans (m.wakes_complete h r).kept

/-! ## Waiting -/

/-- **The reply to a wait that is over**, and what it leaves behind: it looks
at the hub, and at most marks the handle or gives up the session that was
waited for. -/
inductive Replies (m : Scheduler β σ) (deadline : Option Nat) :
    (w : Wait) → w.Reply → Scheduler β σ → Prop
  | slept {ms : Nat} : deadline.any (· ≤ m.clock) = true → Replies m deadline (.sleep ms) () m
  | result {a : Handle} {r : EventResult} : m.hub.handles.result? a = some r →
      Replies m deadline (.handle a) r
        { m with hub := { m.hub with handles := m.hub.handles.observe a } }
  | received {s : Id} {t : Option Timeout} {e : Event} :
      m.hub.sessions.status s = .received e → Replies m deadline (.session s t) (.ok e) m
  | closed {s : Id} {t : Option Timeout} : m.hub.sessions.status s = .closed →
      Replies m deadline (.session s t) (.error (.closed s)) m
  | timedOut {s : Id} {t : Option Timeout} : m.hub.sessions.status s = .waiting →
      deadline.any (· ≤ m.clock) = true →
      Replies m deadline (.session s t)
        (.error (.timedOut s ((t.map (·.milliseconds)).getD 0)))
        { m with hub := { m.hub with sessions := m.hub.sessions.abandon s } }
  | idle : m.tasks = [] → Replies m deadline .idle () m

/-- **What a wait is answered with.** -/
theorem replies_of_reply? {m m' : Scheduler β σ} {deadline : Option Nat} {w : Wait} {r : w.Reply}
    (h : m.reply? deadline w = some (r, m')) : m.Replies deadline w r m' := by
  cases w with
  | yield => exact absurd h (by simp [reply?])
  | sleep ms =>
    simp only [reply?] at h
    split at h
    · next hdue =>
      cases h
      exact .slept hdue
    · exact absurd h (by simp)
  | handle a =>
    simp only [reply?] at h
    split at h
    · next hr =>
      cases h
      exact .result hr
    · exact absurd h (by simp)
  | session s t =>
    simp only [reply?] at h
    split at h
    · next hs =>
      cases h
      exact .received hs
    · next hs =>
      cases h
      exact .closed hs
    · next hs =>
      split at h
      · next hdue =>
        cases h
        exact .timedOut hs hdue
      · exact absurd h (by simp)
  | idle =>
    simp only [reply?] at h
    split at h
    · next hempty =>
      cases h
      exact .idle (List.isEmpty_iff.mp hempty)
    · exact absurd h (by simp)

/-- A reply to a wait keeps the hub, but for a session that is given up. -/
theorem kept_reply? {m m' : Scheduler β σ} {deadline : Option Nat} {w : Wait} {r : w.Reply}
    (h : m.reply? deadline w = some (r, m')) : Kept w.For m m' := by
  cases replies_of_reply? h with
  | result _ => exact kept_of_alike ⟨rfl, rfl, rfl, .refl _⟩ fun _ hk => hk
  | timedOut _ _ => exact m.kept_abandon ⟨_, rfl⟩
  | _ => exact .refl _

theorem kept_drop (m : Scheduler β σ) (w : Wait) : Kept w.For m (m.drop w) := by
  unfold drop
  split
  · exact m.kept_abandon ⟨_, rfl⟩
  · exact .refl m

/-- The reply to a program that is found to wait, if it is there. One that has
yielded can go on. -/
def answer? (m : Scheduler β σ) (deadline : Option Nat) :
    (w : Wait) → Option (w.Reply × Scheduler β σ)
  | .yield => some ((), m)
  | w => m.reply? deadline w

theorem yields_or_reply?_of_answer? {m m' : Scheduler β σ} {deadline : Option Nat} {w : Wait}
    {r : w.Reply} (h : m.answer? deadline w = some (r, m')) :
    w = .yield ∧ m' = m ∨ m.reply? deadline w = some (r, m') := by
  cases w with
  | yield => exact .inl ⟨rfl, (Prod.mk.inj (Option.some.inj h)).2.symm⟩
  | _ => exact .inr h

theorem answer?_eq_reply? {m : Scheduler β σ} {deadline : Option Nat} {w : Wait}
    (hw : w ≠ .yield) : m.answer? deadline w = m.reply? deadline w := by
  cases w with
  | yield => exact absurd rfl hw
  | _ => rfl

/-- **A program that waits is found to go on, or to wait.** -/
theorem resume_cases (m : Scheduler β σ) (s : Suspended β σ α) :
    (∃ r m', m.answer? s.deadline s.wait = some (r, m') ∧
      m.resume s = (m', .running (s.next r))) ∨
    (s.wait ≠ .yield ∧ m.reply? s.deadline s.wait = none ∧ m.resume s = (m, .waiting s)) := by
  obtain ⟨w, deadline, next⟩ := s
  by_cases hw : w = .yield
  · subst hw
    exact .inl ⟨(), m, rfl, rfl⟩
  · cases hr : m.reply? deadline w with
    | none =>
      refine .inr ⟨hw, rfl, ?_⟩
      cases w with
      | yield => exact absurd rfl hw
      | _ => simp only [resume, hr]
    | some a =>
      refine .inl ⟨a.1, a.2, (answer?_eq_reply? hw).trans hr, ?_⟩
      cases w with
      | yield => exact absurd rfl hw
      | _ => simp only [resume, hr]

/-- What a program that waits is found to do: it goes on with a reply, or
it still waits. -/
inductive Resumed (s : Suspended β σ α) : Progress β σ α → Prop
  | running (r : s.wait.Reply) : Resumed s (.running (s.next r))
  | waiting : Resumed s (.waiting s)

/-- A program that waits is looked at. -/
theorem resumed (m : Scheduler β σ) (s : Suspended β σ α) :
    Kept s.wait.For m (m.resume s).1 ∧ Resumed s (m.resume s).2 := by
  unfold resume
  split
  · next d next => exact ⟨.refl m, .running (s := ⟨.yield, d, next⟩) ()⟩
  · next w d next _ =>
    split
    · next r m' h => exact ⟨kept_reply? h, .running (s := ⟨w, d, next⟩) r⟩
    · exact ⟨.refl m, .waiting⟩

/-! ## Steps of a program -/

/-- The hub has served a call, and there are no new tasks but one that the
call may have started. -/
structure Served (B : Behaviours β σ) (m : Scheduler β σ) (c : HubCall β σ) (r : c.Reply)
    (m' : Scheduler β σ) : Prop where
  hub : ∃ h, m.hub.serve c = some (r, h) ∧ h.Alike m'.hub
  tasks : ∀ k ∈ m'.tasks, k ∈ m.tasks ∨ ∃ job, k.state = .fresh (runJob B m.hub.settings job)

/-- **What a program can do in a step.** -/
inductive Advanced (B : Behaviours β σ) (m : Scheduler β σ) :
    HubProgram β σ α → Scheduler β σ → Progress β σ α → Prop
  | done (a : α) : Advanced B m (.done a) m (.ended (.ok a))
  | panic (p : Payload) : Advanced B m (.panic p) m (.ended (.error p))
  | served {c : HubCall β σ} {next : c.Reply → HubProgram β σ α} {r : c.Reply}
      {m' : Scheduler β σ} : Served B m c r m' → Advanced B m (.call c next) m' (.running (next r))
  | waited {w : Wait} {next : w.Reply → HubProgram β σ α} {r : w.Reply} {m' : Scheduler β σ} :
      Kept w.For m m' → Advanced B m (.call (.user (.wait w)) next) m' (.running (next r))
  | waits {w : Wait} {next : w.Reply → HubProgram β σ α} {deadline : Option Nat} :
      Advanced B m (.call (.user (.wait w)) next) m (.waiting ⟨w, deadline, next⟩)
  /-- An inner dispatch becomes a part of the program. -/
  | inner {e : Event} {next : Except Payload (Except DispatchError DispatchResult) →
      HubProgram β σ α} : Advanced B m (.call (.user (.dispatch e)) next) m
        (.running ((Switchboard.dispatch B m.hub.settings e).recover.bind next))

/-- A call that starts no handler is served. -/
theorem served_of_alike {B : Behaviours β σ} {m m' : Scheduler β σ} {c : HubCall β σ}
    {r : c.Reply} {h : Hub β σ} (hs : m.hub.serve c = some (r, h)) (hh : h.Alike m'.hub)
    (ht : ∀ k ∈ m'.tasks, k ∈ m.tasks) : Served B m c r m' :=
  ⟨⟨h, hs, hh⟩, fun k hm => .inl (ht k hm)⟩

/-- A call after which the owners of sessions are woken is served. -/
theorem served_of_wakeSettled {B : Behaviours β σ} {m : Scheduler β σ} (m₁ : Scheduler β σ)
    {c : HubCall β σ} {r : c.Reply} (hs : m.hub.serve c = some (r, m₁.hub))
    (ht : m₁.tasks = m.tasks) : Served B m c r m₁.wakeSettled :=
  served_of_alike hs m₁.alike_wakeSettled fun _ hk => ht ▸ m₁.wakes_wakeSettled.tasks ▸ hk

/-- **A program takes a step.** -/
theorem advanced (B : Behaviours β σ) (m : Scheduler β σ) (p : HubProgram β σ α) :
    Advanced B m p (m.advance B p).1 (m.advance B p).2 := by
  cases p with
  | done a => exact .done a
  | panic q => exact .panic q
  | call c next =>
    cases c with
    | user c =>
      cases c with
      | request r =>
        exact .served (served_of_wakeSettled { m with hub := (m.hub.answer r).2 } rfl rfl)
      | wait w =>
        simp only [advance]
        split
        · next h => exact .waited (kept_reply? h)
        · exact .waits
      | dispatch e => exact .inner
    | start e => exact .served (served_of_alike rfl (.refl _) fun _ hk => hk)
    | holdSessions => exact .served (served_of_alike rfl (.refl _) fun _ hk => hk)
    | keepSessions ws =>
      exact .served (served_of_wakeSettled { m with hub := m.hub.keepSessions ws } rfl rfl)
    | loseSessions ws =>
      exact .served (served_of_wakeSettled { m with hub := m.hub.loseSessions ws } rfl rfl)
    | deliver s e =>
      exact .served (served_of_wakeSettled { m with hub := m.hub.deliver s e } rfl rfl)
    | record c o => exact .served (served_of_alike rfl (.refl _) fun _ hk => hk)
    | markTruncated c => exact .served (served_of_alike rfl (.refl _) fun _ hk => hk)
    | spawn job =>
      refine .served ⟨⟨_, rfl, .refl _⟩, fun k hk => ?_⟩
      rcases List.mem_append.mp hk with hk | hk
      · exact .inl hk
      · rw [List.mem_singleton.mp hk]
        exact .inr ⟨job, rfl⟩

/-! ## Turns -/

/-- **Who can have the next turn** while the main program waits. -/
inductive Hands (m : Scheduler β σ) (main : Suspended β σ α) : Turn β σ α → Prop
  | main (r : main.wait.Reply) : Hands m main (.main (main.next r))
  | task {k : Task β σ} {h : Handle} {p : HubProgram β σ EventResult} : k ∈ m.tasks →
      k.GoesOn p → Hands m main (.task h p main)
  | nobody : Hands m main (.nobody main)
  | stuck : Hands m main .stuck

theorem Hands.of_kept {m m' : Scheduler β σ} {main : Suspended β σ α} {t : Turn β σ α}
    (ht : Hands m' main t) (hk : Kept S m m') : Hands m main t := by
  cases ht with
  | main r => exact .main r
  | task hmem hp => exact .task (hk.tasks _ hmem) hp
  | nobody => exact .nobody
  | stuck => exact .stuck

/-- The sessions that are waited for, by the main program or by a task. -/
inductive Awaited (m : Scheduler β σ) (main : Suspended β σ α) (s : Id) : Prop
  | main : main.wait.For s → Awaited m main s
  | task {k : Task β σ} {w : Wait} : k ∈ m.tasks → k.wait? = some w → w.For s → Awaited m main s

/-- Finding who has the next turn keeps what there is, and hands it over. -/
def Finds (m : Scheduler β σ) (main : Suspended β σ α)
    (found : Scheduler β σ × Turn β σ α) : Prop :=
  Kept (m.Awaited main) m found.1 ∧ Hands m main found.2

theorem Finds.of_kept {m m' : Scheduler β σ} {main : Suspended β σ α}
    {found : Scheduler β σ × Turn β σ α} (hf : Finds m' main found)
    (hk : Kept (m.Awaited main) m m') : Finds m main found := by
  refine ⟨hk.trans (hf.1.mono fun s hs => ?_), hf.2.of_kept hk⟩
  cases hs with
  | main hw => exact .main hw
  | task hmem hw hs => exact .task (hk.tasks _ hmem) hw hs

theorem setMainAside_eq (m : Scheduler β σ) (limit : Option Nat) (s : Suspended β σ α) :
    Kept s.wait.For m (m.setMainAside limit s).1 ∧
      ((m.setMainAside limit s).2 = .stuck ∨ (m.setMainAside limit s).2 = .nobody s) := by
  have hown : Kept s.wait.For m { m with mainWait := none } := kept_of_eq rfl rfl
  unfold setMainAside
  split
  · exact ⟨hown.trans (kept_drop _ s.wait), .inl rfl⟩
  · exact ⟨kept_of_eq rfl rfl, .inr rfl⟩

theorem finds_setMainAside (m : Scheduler β σ) (limit : Option Nat) (s : Suspended β σ α) :
    Finds m s (m.setMainAside limit s) := by
  obtain ⟨hk, ht⟩ := m.setMainAside_eq limit s
  refine ⟨hk.mono fun _ => .main, ?_⟩
  rcases ht with ht | ht
  · rw [ht]
    exact .stuck
  · rw [ht]
    exact .nobody

theorem finds_mainTurn (m : Scheduler β σ) (limit : Option Nat) (main : Suspended β σ α) :
    Finds m main (m.mainTurn limit main) := by
  obtain ⟨hk, hr⟩ := m.resumed main
  unfold mainTurn
  split
  · next h =>
    rw [h] at hk hr
    cases hr with
    | running r => exact ⟨(hk.mono fun _ => .main).trans (kept_of_eq rfl rfl), .main r⟩
  · next h =>
    rw [h] at hk
    exact (finds_setMainAside _ limit main).of_kept (hk.mono fun _ => .main)

theorem finds_takeTurn (m : Scheduler β σ) (h : Handle) (rest : List Handle)
    (main : Suspended β σ α) : Finds m main (m.takeTurn h rest main) := by
  have hready : Kept (m.Awaited main) m { m with ready := rest } := kept_of_eq rfl rfl
  unfold takeTurn
  simp only
  split
  · exact ⟨hready, .nobody⟩
  · next hfind => exact ⟨hready, .task (List.mem_of_find?_eq_some hfind) (.begins rfl)⟩
  · next s hfind =>
    obtain ⟨hk, hr⟩ := resumed { m with ready := rest } s
    have hmem := List.mem_of_find?_eq_some hfind
    have hk := hready.trans (hk.mono fun _ => .task hmem rfl)
    split
    · next h =>
      rw [h] at hk hr
      cases hr with
      | running r =>
        exact ⟨hk, .task hmem (.resumes r rfl)⟩
    · next h =>
      rw [h] at hk
      exact ⟨hk, .nobody⟩

theorem wakes_wakeDue (m : Scheduler β σ) : Wakes m m.wakeDue :=
  wakes_foldl (f := fun m (d : Nat × Handle) => m.wake d.2) (fun m d => m.wakes_wake d.2) _ m

theorem wakes_endRound (m : Scheduler β σ) (main : Suspended β σ α) :
    Wakes m (m.endRound main) := by
  have hdue : Wakes m { m.wakeDue with deferred := [] } := m.wakes_wakeDue.trans ⟨rfl, rfl⟩
  have h := hdue.trans (wakes_foldl wakes_wake m.wakeDue.deferred.reverse _)
  have hmain : ∀ m' : Scheduler β σ, Wakes m m' → Wakes m { m' with mainReady := true } :=
    fun m' hw => hw.trans ⟨rfl, rfl⟩
  unfold endRound
  simp only
  split
  · exact hmain _ h
  · split
    · exact hmain _ h
    · exact h

/-- **The next turn is found.** -/
theorem finds_nextTurn (m : Scheduler β σ) (limit : Option Nat) (main : Suspended β σ α) :
    Finds m main (m.nextTurn limit main) := by
  unfold nextTurn
  split
  -- a task is ready
  · exact m.finds_takeTurn _ _ main
  · extract_lets yielded
    split
    -- somebody has yielded, so the round ends
    · split
      · exact (finds_mainTurn _ limit main).of_kept (m.wakes_endRound main).kept
      · exact ⟨(m.wakes_endRound main).kept, .nobody⟩
    · split
      · exact m.finds_mainTurn limit main
      -- nothing is ready, so time moves on, if something is due at all
      · split
        · have hown : Kept main.wait.For m { m with mainWait := none } := kept_of_eq rfl rfl
          exact ⟨(hown.trans (kept_drop _ main.wait)).mono fun _ => .main, .stuck⟩
        · next t _ =>
          have hclock : Kept (m.Awaited main) m { m with clock := max m.clock t } :=
            kept_of_eq rfl rfl
          have hk := hclock.trans (wakes_endRound _ main).kept
          simp only
          split
          · exact (finds_mainTurn _ limit main).of_kept hk
          · exact ⟨hk, .nobody⟩

/-- **What a step can do.** -/
inductive Stepped (B : Behaviours β σ) (m : Scheduler β σ) :
    Turn β σ α → Scheduler β σ → Turn β σ α → Prop
  | main {p q : HubProgram β σ α} {m' : Scheduler β σ} :
      Advanced B m p m' (.running q) → Stepped B m (.main p) m' (.main q)
  | mainWaits {p : HubProgram β σ α} {s : Suspended β σ α} {m₁ m' : Scheduler β σ} :
      Advanced B m p m₁ (.waiting s) → Kept s.wait.For m₁ m' →
      Stepped B m (.main p) m' (.nobody s)
  | mainStuck {p : HubProgram β σ α} {s : Suspended β σ α} {m₁ m' : Scheduler β σ} :
      Advanced B m p m₁ (.waiting s) → Kept s.wait.For m₁ m' → Stepped B m (.main p) m' .stuck
  | mainEnds {p : HubProgram β σ α} {r : Except Payload α} {m' : Scheduler β σ} :
      Advanced B m p m' (.ended r) → Stepped B m (.main p) m' (.ended r)
  | task {h : Handle} {p q : HubProgram β σ EventResult} {main : Suspended β σ α}
      {m' : Scheduler β σ} : Advanced B m p m' (.running q) →
      Stepped B m (.task h p main) m' (.task h q main)
  | taskWaits {h : Handle} {p : HubProgram β σ EventResult} {s : Suspended β σ EventResult}
      {main : Suspended β σ α} {m₁ : Scheduler β σ} : Advanced B m p m₁ (.waiting s) →
      Stepped B m (.task h p main) (m₁.setAside h s) (.nobody main)
  | taskEnds {h : Handle} {p : HubProgram β σ EventResult} {r : Except Payload EventResult}
      {main : Suspended β σ α} {m₁ m' : Scheduler β σ} : Advanced B m p m₁ (.ended r) →
      Kept NoSession m₁ m' → Stepped B m (.task h p main) m' (.nobody main)
  | next {main : Suspended β σ α} {m' : Scheduler β σ} {t : Turn β σ α} :
      Kept (m.Awaited main) m m' → Hands m main t → Stepped B m (.nobody main) m' t
  | ended {r : Except Payload α} : Stepped B m (.ended r) m (.ended r)
  | stuck : Stepped B m .stuck m .stuck

/-- **Whoever has its turn takes a step.** -/
theorem stepped (B : Behaviours β σ) (limit : Option Nat) (m : Scheduler β σ) (t : Turn β σ α) :
    Stepped B m t (m.step B limit t).1 (m.step B limit t).2 := by
  cases t with
  | main p =>
    have h := m.advanced B p
    simp only [step]
    split
    · next hp =>
      rw [hp] at h
      exact .main h
    · next m₁ s hp =>
      rw [hp] at h
      obtain ⟨hk, ht⟩ := m₁.setMainAside_eq limit s
      rcases ht with ht | ht
      · rw [ht]
        exact .mainStuck h hk
      · rw [ht]
        exact .mainWaits h hk
    · next hp =>
      rw [hp] at h
      exact .mainEnds h
  | task a p main =>
    have h := m.advanced B p
    simp only [step]
    split
    · next hp =>
      rw [hp] at h
      exact .task h
    · next hp =>
      rw [hp] at h
      exact .taskWaits h
    · next hp =>
      rw [hp] at h
      exact .taskEnds h (kept_complete _ a _)
  | nobody main =>
    obtain ⟨hk, ht⟩ := m.finds_nextTurn limit main
    exact .next hk ht
  | ended r => exact .ended
  | stuck => exact .stuck

/-! ## What a step does to the hub -/

/-- The call that whoever has the turn makes next. -/
def Turn.call? : Turn β σ α → Option (HubCall β σ)
  | main p => p.call?
  | task _ p _ => p.call?
  | _ => none

/-- **The sessions that can be given up in a step**: one that is asked to
be waited for in it, and those that are waited for, if nobody has the
turn. -/
inductive Turn.Awaits (m : Scheduler β σ) (s : Id) : Turn β σ α → Prop
  | asks {t : Turn β σ α} {w : Wait} :
      t.call? = some (.user (.wait w)) → w.For s → Awaits m s t
  | waits {main : Suspended β σ α} : m.Awaited main s → Awaits m s (.nobody main)

/-- What the hub is once whoever has the turn has made a call, if there is
any. -/
inductive Moved (B : Behaviours β σ) (m : Scheduler β σ) : Option (HubCall β σ) → Hub β σ → Prop
  | nobody : Moved B m none m.hub
  | advanced {γ : Type} {p : HubProgram β σ γ} {q : Progress β σ γ} {m₁ : Scheduler β σ} :
      Advanced B m p m₁ q → Moved B m p.call? m₁.hub

/-- **A step makes a call, if there is any**, and then keeps the hub but
for sessions that are waited for. -/
theorem Stepped.moved {B : Behaviours β σ} {m m' : Scheduler β σ} {t t' : Turn β σ α}
    (h : Stepped B m t m' t') :
    ∃ hub, Moved B m t.call? hub ∧ hub.Kept (Turn.Awaits m · t) m'.hub := by
  have hsame : ∀ {S : Id → Prop} (hub : Hub β σ), hub.Kept S hub :=
    fun hub => (Hub.Alike.refl hub).kept
  cases h with
  | main ha => exact ⟨_, .advanced ha, hsame _⟩
  | mainWaits ha hk =>
    refine ⟨_, .advanced ha, hk.hub.mono fun s hs => .asks ?_ hs⟩
    cases ha with
    | waits => rfl
  | mainStuck ha hk =>
    refine ⟨_, .advanced ha, hk.hub.mono fun s hs => .asks ?_ hs⟩
    cases ha with
    | waits => rfl
  | mainEnds ha => exact ⟨_, .advanced ha, hsame _⟩
  | task ha => exact ⟨_, .advanced ha, hsame _⟩
  | taskWaits ha => exact ⟨_, .advanced ha, hsame _⟩
  | taskEnds ha hk => exact ⟨_, .advanced ha, hk.hub.mono fun _ => False.elim⟩
  | next hk hhands => exact ⟨_, .nobody, hk.hub.mono fun _ => .waits⟩
  | ended => exact ⟨_, .nobody, hsame _⟩
  | stuck => exact ⟨_, .nobody, hsame _⟩

/-! ## Exchanges -/

end Scheduler

/-- The exchange that a call is, if the hub serves it. -/
def Hub.exchange? (h : Hub β σ) (c : HubCall β σ) : Option (Exchange (hubCalls β σ)) :=
  (h.serve c).map fun (r, _) => ⟨c, r⟩

theorem Hub.exchange?_of_serve {h h' : Hub β σ} {c : HubCall β σ} {r : c.Reply}
    (hs : h.serve c = some (r, h')) : h.exchange? c = some ⟨c, r⟩ := by
  unfold Hub.exchange?
  rw [hs]
  rfl

namespace Scheduler

/-- **The exchanges that the hub makes in so many steps**, with whoever has
the turn, in their order. -/
def exchanges (B : Behaviours β σ) (limit : Option Nat) :
    Nat → Scheduler β σ → Turn β σ α → HubTrace β σ
  | 0, _, _ => []
  | n + 1, m, t =>
    (t.call?.bind m.hub.exchange?).toList ++
      exchanges B limit n (m.step B limit t).1 (m.step B limit t).2

/-! ## Runs -/

/-- A run is one step and the others, also where there is nothing to do. -/
theorem steps_succ (B : Behaviours β σ) (limit : Option Nat) (n : Nat) (m : Scheduler β σ)
    (t : Turn β σ α) :
    m.steps B limit (n + 1) t = (m.step B limit t).1.steps B limit n (m.step B limit t).2 := by
  have hidle : ∀ t : Turn β σ α, m.step B limit t = (m, t) → m.steps B limit n t = (m, t) := by
    intro t ht
    induction n with
    | zero => rfl
    | succ n ih =>
      unfold steps
      split
      · rfl
      · rfl
      · rw [ht]
        exact ih
  conv => lhs; unfold steps
  split
  · exact (hidle _ rfl).symm
  · exact (hidle _ rfl).symm
  · rfl

theorem steps_add (B : Behaviours β σ) (limit : Option Nat) (n k : Nat) (m : Scheduler β σ)
    (t : Turn β σ α) :
    m.steps B limit (n + k) t
      = (m.steps B limit n t).1.steps B limit k (m.steps B limit n t).2 := by
  induction n generalizing m t with
  | zero => rw [Nat.zero_add]; rfl
  | succ n ih => rw [Nat.succ_add, steps_succ, ih, steps_succ]

/-- What a run leaves behind is what its steps lead to. -/
theorem snd_run (B : Behaviours β σ) (m : Scheduler β σ) (patience : Option Nat)
    (p : HubProgram β σ α) :
    (m.run B patience p).2
      = (m.steps B (patience.map (m.clock + ·)) stepLimit (.main p)).1 := by
  unfold run
  split
  · next h => rw [h]
  · next h => rw [h]

/-- **What programs that run alone preserve**: all that one step does, and
giving a wait up. -/
theorem of_runAlone {P : Scheduler β σ → Prop} {B : Behaviours β σ}
    (hstep : ∀ {m} (p : HubProgram β σ α), P m → P (m.advance B p).1)
    (hdrop : ∀ {m} w, P m → P (m.drop w)) {m : Scheduler β σ} (fuel : Nat)
    (p : HubProgram β σ α) (h : P m) : P (m.runAlone B fuel p).2 := by
  induction fuel generalizing m p with
  | zero => exact h
  | succ fuel ih =>
    have hnext := hstep p h
    unfold runAlone
    split
    · next heq =>
      rw [heq] at hnext
      exact ih _ hnext
    · next heq =>
      rw [heq] at hnext
      exact hnext
    · next heq =>
      rw [heq] at hnext
      exact ih _ hnext
    · next heq =>
      rw [heq] at hnext
      exact hdrop _ hnext

/-! ## Programs of a sort -/

/-- **Tasks go on with programs of a sort**, the one whose turn it is among
them. -/
structure TasksIn (P : HubProgram β σ EventResult → Prop) (m : Scheduler β σ)
    (t : Turn β σ α) : Prop where
  waiting : ∀ k ∈ m.tasks, ∀ p, k.GoesOn p → P p
  running : ∀ h p main, t = .task h p main → P p

section Sorts

variable {B : Behaviours β σ} {m m' : Scheduler β σ} {t t' : Turn β σ α}
  {P : HubProgram β σ EventResult → Prop}

/-- Only a handler that is started is a new task. -/
theorem Advanced.tasks_in {γ : Type} {p : HubProgram β σ γ} {q : Progress β σ γ}
    (h : Advanced B m p m' q) (hjob : ∀ job, P (runJob B m.hub.settings job))
    (hm : ∀ k ∈ m.tasks, ∀ p, k.GoesOn p → P p) : ∀ k ∈ m'.tasks, ∀ p, k.GoesOn p → P p := by
  cases h with
  | served hserved =>
    intro k hk p hp
    rcases hserved.tasks k hk with hk | ⟨job, hfresh⟩
    · exact hm k hk p hp
    · cases hp with
      | begins hp =>
        obtain rfl := TaskState.fresh.inj (hfresh.symm.trans hp)
        exact hjob job
      | resumes r hs => exact absurd (hfresh.symm.trans hs) (by simp)
  | waited hk => exact fun k hmem => hm k (hk.tasks k hmem)
  | _ => exact hm

/-- **Tasks stay in a sort**, if the one whose turn it is does. -/
theorem Stepped.tasksIn (h : Stepped B m t m' t') (ht : TasksIn P m t)
    (hjob : ∀ job, P (runJob B m.hub.settings job))
    (hrun : ∀ a p q main, t = .task a p main → Advanced B m p m' (.running q) → P q)
    (hwait : ∀ a w next main, t = .task a (.call (.user (.wait w)) next) main → ∀ r, P (next r)) :
    TasksIn P m' t' := by
  cases h with
  | main ha => exact ⟨ha.tasks_in hjob ht.waiting, fun h p main he => absurd he (by simp)⟩
  | mainWaits ha hk =>
    exact ⟨fun k hmem => ha.tasks_in hjob ht.waiting k (hk.tasks k hmem),
      fun h p main he => absurd he (by simp)⟩
  | mainStuck ha hk =>
    exact ⟨fun k hmem => ha.tasks_in hjob ht.waiting k (hk.tasks k hmem),
      fun h p main he => absurd he (by simp)⟩
  | mainEnds ha => exact ⟨ha.tasks_in hjob ht.waiting, fun h p main he => absurd he (by simp)⟩
  | task ha =>
    refine ⟨ha.tasks_in hjob ht.waiting, fun h p main he => ?_⟩
    cases he
    exact hrun _ _ _ _ rfl ha
  | @taskWaits a p s main m₁ ha =>
    refine ⟨fun k hmem => ?_, fun h p main he => absurd he (by simp)⟩
    rcases List.mem_append.mp hmem with hmem | hmem
    · exact ha.tasks_in hjob ht.waiting k (List.mem_filter.mp hmem).1
    -- the task that is set aside goes on as its program would have gone on
    · rw [List.mem_singleton.mp hmem]
      intro q hq
      cases hq with
      | begins hfresh => exact absurd hfresh (by simp)
      | resumes r hs =>
        obtain rfl := TaskState.suspended.inj hs
        cases ha with
        | waits => exact hwait _ _ _ _ rfl r
  | taskEnds ha hk =>
    exact ⟨fun k hmem => ha.tasks_in hjob ht.waiting k (hk.tasks k hmem),
      fun h p main he => absurd he (by simp)⟩
  | next hk hhands =>
    refine ⟨fun k hmem => ht.waiting k (hk.tasks k hmem), fun h p main he => ?_⟩
    cases hhands with
    | task hmem hgoes =>
      cases he
      exact ht.waiting _ hmem _ hgoes
    | main r => exact absurd he (by simp)
    | nobody => exact absurd he (by simp)
    | stuck => exact absurd he (by simp)
  | ended => exact ht
  | stuck => exact ht

end Sorts

/-! ## Schedulers that can be reached -/

/-- **A scheduler that can be reached** with a hub: it begins without
tasks, and runs programs, in turns with tasks or on threads of their own,
lets time pass and is looked at, in whatever order. -/
inductive Reached (hub : Hub β σ) : Scheduler β σ → Prop
  | fresh : Reached hub (.fresh hub)
  | run {α : Type} {m : Scheduler β σ} (B : Behaviours β σ) (patience : Option Nat)
      (p : HubProgram β σ α) : Reached hub m → Reached hub (m.run B patience p).2
  | runAlone {α : Type} {m : Scheduler β σ} (B : Behaviours β σ) (fuel : Nat)
      (p : HubProgram β σ α) : Reached hub m → Reached hub (m.runAlone B fuel p).2
  | elapse {m : Scheduler β σ} (milliseconds : Nat) :
      Reached hub m → Reached hub (m.elapse milliseconds)
  | poll {m : Scheduler β σ} (w : Wait) : Reached hub m → Reached hub (m.poll w).2

theorem kept_poll (m : Scheduler β σ) (w : Wait) : Kept w.For m (m.poll w).2 := by
  unfold poll
  split
  · next h => exact kept_reply? h
  · exact .refl m

end Scheduler

end Switchboard
