import Mathlib.Logic.Function.Basic
import Switchboard.Proofs.Hub.Promises
import Switchboard.Proofs.Session.Conduct
import Switchboard.Proofs.Session.Membership

/-!
# Threads

The scheduler of this library is one thread. Where several threads share a
hub, any of them can take the next step, between any two calls of the others.
Callers run programs of their own on them, and tasks go on wherever there is a
thread to run them.

`Threads.Step` is a step that somebody takes, and what can be seen of it: an
exchange, or a wait that is given up. What is seen in a run is its history, in
the order in which it happens, with the thread it happens on.

One thing only is done by one thread at a time. A dispatch has hold of the
list of sessions while it offers its event, and until it lets go nobody else
makes a call that needs the list (`Threads.Permits`). Whoever owns a session
can look at it, and give it up, at any time.

Calls are atomic, and so is what a program does when it finds what it waited
for.
-/

namespace Switchboard

variable {β σ α : Type}

/-! ## What can be seen -/

/-- Something that can be seen of what a thread does. -/
inductive Occurrence (β σ : Type) where
  | made (x : Exchange (hubCalls β σ))
  /-- A wait was given up. -/
  | gaveUp (w : Wait)

namespace Occurrence

/-- What an occurrence does to the sessions. -/
def deed? : Occurrence β σ → Option (SessionDeed β)
  | made x => x.deed?
  | gaveUp (.session s _) => some (.abandoned s)
  | gaveUp _ => none

/-- **What can be seen of a deed.** -/
inductive Does : Occurrence β σ → SessionDeed β → Prop
  | opened {s : Id} {forMessages : Bool} {matcher : β} :
      Does (.made ⟨.user (.request (.openSession forMessages matcher)), s⟩)
        (.opened s forMessages matcher)
  | cancelled {s : Id} {b : Bool} :
      Does (.made ⟨.user (.request (.cancelSession s)), b⟩) (.cancelled s)
  | cleared : Does (.made ⟨.user (.request .clearSessions), ()⟩) .cleared
  | abandoned {s : Id} : Does (.made ⟨.user (.request (.abandonSession s)), ()⟩) (.abandoned s)
  | timedOut {s s' : Id} {timeout : Option Timeout} {ms : Nat} :
      Does (.made ⟨.user (.wait (.session s timeout)), .error (.timedOut s' ms)⟩) (.abandoned s)
  | gaveUp {s : Id} {timeout : Option Timeout} :
      Does (.gaveUp (.session s timeout)) (.abandoned s)
  | delivered {s : Id} {e : Event} : Does (.made ⟨.deliver s e, ()⟩) (.delivered s e)
  | kept {ws : List (Waiter β)} : Does (.made ⟨.keepSessions ws, ()⟩) (.kept ws)
  | lost {ws : List (Waiter β)} : Does (.made ⟨.loseSessions ws, ()⟩) .cleared

theorem does_of_deed? {o : Occurrence β σ} {d : SessionDeed β} (h : o.deed? = some d) :
    o.Does d := by
  cases o with
  | made x =>
    obtain ⟨call, r⟩ := x
    cases call with
    | user u =>
      cases u with
      | request q =>
        cases q with
        | openSession forMessages matcher => exact Option.some.inj h ▸ .opened
        | cancelSession s => exact Option.some.inj h ▸ .cancelled
        | abandonSession s => exact Option.some.inj h ▸ .abandoned
        | clearSessions => exact Option.some.inj h ▸ .cleared
        | _ => exact absurd h (by simp [deed?, Exchange.deed?])
      | wait w =>
        cases w with
        | session s timeout =>
          rcases r with e | e
          · cases e with
            | closed s' => exact absurd h (by simp [deed?, Exchange.deed?])
            | timedOut s' ms => exact Option.some.inj h ▸ .timedOut
          · exact absurd h (by simp [deed?, Exchange.deed?])
        | _ => exact absurd h (by simp [deed?, Exchange.deed?])
      | dispatch e => exact absurd h (by simp [deed?, Exchange.deed?])
    | keepSessions ws => exact Option.some.inj h ▸ .kept
    | loseSessions ws => exact Option.some.inj h ▸ .lost
    | deliver s e => exact Option.some.inj h ▸ .delivered
    | _ => exact absurd h (by simp [deed?, Exchange.deed?])
  | gaveUp w =>
    cases w with
    | session s timeout => exact Option.some.inj h ▸ .gaveUp
    | _ => exact absurd h (by simp [deed?])

/-- The exchange that an occurrence is. -/
def exchange? : Occurrence β σ → Option (Exchange (hubCalls β σ))
  | made x => some x
  | gaveUp _ => none

end Occurrence

/-- What was seen, in its order, and on which threads. -/
abbrev History (β σ : Type) := List (Nat × Occurrence β σ)

namespace History

variable {x y : History β σ}

/-- What was done to the sessions. -/
def deeds (x : History β σ) : List (SessionDeed β) := x.filterMap (·.2.deed?)

/-- The exchanges that were made. -/
def exchanges (x : History β σ) : HubTrace β σ := x.filterMap (·.2.exchange?)

/-- What was seen on one thread. -/
def own (x : History β σ) (i : Nat) : List (Occurrence β σ) :=
  x.filterMap fun a => if a.1 = i then some a.2 else none

theorem deeds_append (x y : History β σ) : deeds (x ++ y) = deeds x ++ deeds y :=
  List.filterMap_append

theorem exchanges_append (x y : History β σ) : exchanges (x ++ y) = exchanges x ++ exchanges y :=
  List.filterMap_append

theorem own_append (x y : History β σ) (i : Nat) : own (x ++ y) i = own x i ++ own y i :=
  List.filterMap_append

theorem own_singleton_self (i : Nat) (o : Occurrence β σ) : own [(i, o)] i = [o] := by
  simp [own]

theorem own_singleton_of_ne {i j : Nat} (h : j ≠ i) (o : Occurrence β σ) : own [(j, o)] i = [] := by
  simp [own, h]

/-- What occurs on a thread. -/
def on (i : Nat) (o : Option (Occurrence β σ)) : History β σ := o.toList.map (i, ·)

theorem on_eq_singleton_iff {i j : Nat} {o : Option (Occurrence β σ)} {o' : Occurrence β σ} :
    on i o = [(j, o')] ↔ i = j ∧ o = some o' := by
  cases o with
  | none => simp [on]
  | some o => simp [on]

theorem deeds_on (i : Nat) (o : Option (Occurrence β σ)) :
    deeds (on i o) = (o.bind (·.deed?)).toList := by
  cases o with
  | none => rfl
  | some o =>
    unfold deeds
    cases h : o.deed? with
    | none => simp [on, h]
    | some d => simp [on, h]

theorem exchanges_on (i : Nat) (o : Option (Occurrence β σ)) :
    exchanges (on i o) = (o.bind (·.exchange?)).toList := by
  cases o with
  | none => rfl
  | some o =>
    unfold exchanges
    cases h : o.exchange? with
    | none => simp [on, h]
    | some x => simp [on, h]

theorem own_on_self (i : Nat) (o : Option (Occurrence β σ)) : own (on i o) i = o.toList := by
  cases o with
  | none => rfl
  | some o => exact own_singleton_self i o

theorem own_on_of_ne {i j : Nat} (h : j ≠ i) (o : Option (Occurrence β σ)) :
    own (on j o) i = [] := by
  cases o with
  | none => rfl
  | some o => exact own_singleton_of_ne h o

end History

/-! ## Threads -/

/-- What a thread does. -/
inductive Thread (β σ α : Type) where
  | idle
  /-- It runs a program of a caller. -/
  | runs (p : HubProgram β σ α)
  /-- The program of its caller waits. -/
  | waits (s : Suspended β σ α)
  | ended (r : Except Payload α)
  /-- It runs a task. -/
  | task (h : Handle) (p : HubProgram β σ EventResult)

namespace Thread

/-- The call a thread makes next. -/
def call? : Thread β σ α → Option (HubCall β σ)
  | runs p => p.call?
  | task _ p => p.call?
  | _ => none

/-- The task a thread runs. -/
def task? : Thread β σ α → Option (Handle × HubProgram β σ EventResult)
  | task h p => some (h, p)
  | _ => none

/-- What a step makes of a thread that runs a program of a caller. -/
def ofProgress : Progress β σ α → Thread β σ α
  | .running p => runs p
  | .waiting s => waits s
  | .ended r => ended r

/-- What a step makes of a thread that runs a task, which is set aside or ends
as it does with the scheduler. -/
def ofTask (h : Handle) :
    Scheduler β σ × Progress β σ EventResult → Scheduler β σ × Thread β σ α
  | (m, .running p) => (m, task h p)
  | (m, .waiting s) => (m.setAside h s, idle)
  | (m, .ended r) => (m.complete h (asFailure r), idle)

end Thread

namespace Scheduler

/-- The exchange that a program makes in a step, if it makes one. -/
def exchange? (m : Scheduler β σ) : HubProgram β σ α → Option (Exchange (hubCalls β σ))
  | .call (.user (.wait w)) _ => (m.reply? (m.deadline w) w).map fun (r, _) => ⟨.user (.wait w), r⟩
  | .call c _ => m.hub.exchange? c
  | _ => none

variable {m : Scheduler β σ}

/-- A call that is no wait is an exchange if the hub serves it. -/
theorem exchange?_call {c : HubCall β σ} {next : c.Reply → HubProgram β σ α}
    (hc : ∀ w, c ≠ .user (.wait w)) : m.exchange? (.call c next) = m.hub.exchange? c := by
  cases c with
  | user c =>
    cases c with
    | wait w => exact absurd rfl (hc w)
    | _ => rfl
  | _ => rfl

theorem call?_of_exchange? {p : HubProgram β σ α} {x : Exchange (hubCalls β σ)}
    (h : m.exchange? p = some x) : p.call? = some x.call := by
  cases p with
  | done a => exact absurd h (by simp [exchange?])
  | panic q => exact absurd h (by simp [exchange?])
  | call c next =>
    by_cases hc : ∃ w, c = .user (.wait w)
    · obtain ⟨w, rfl⟩ := hc
      obtain ⟨⟨r, m'⟩, -, rfl⟩ := Option.map_eq_some_iff.mp h
      rfl
    · rw [exchange?_call fun w hw => hc ⟨w, hw⟩] at h
      obtain ⟨⟨r, h'⟩, -, rfl⟩ := Option.map_eq_some_iff.mp h
      rfl

/-- A program whose wait is over at once is told what the hub has to say, -/
theorem reply?_of_exchange? {p : HubProgram β σ α} {w : Wait} {r : w.Reply}
    (h : m.exchange? p = some ⟨.user (.wait w), r⟩) :
    ∃ m', m.reply? (m.deadline w) w = some (r, m') := by
  have hcall := call?_of_exchange? h
  cases p with
  | call c next =>
    obtain rfl : c = .user (.wait w) := Option.some.inj hcall
    obtain ⟨⟨r', m'⟩, hr, he⟩ := Option.map_eq_some_iff.mp h
    cases he
    exact ⟨m', hr⟩
  | _ => exact absurd hcall (by simp [Program.call?])

/-- and so is whoever looks without waiting. -/
theorem reply?_of_poll {w : Wait} {r : w.Reply} (h : (m.poll w).1 = some r) :
    ∃ m', m.reply? (m.deadline w) w = some (r, m') := by
  unfold poll at h
  split at h
  · next r' m' hr =>
    obtain rfl := Option.some.inj h
    exact ⟨m', hr⟩
  · exact absurd h (by simp)

end Scheduler

namespace Thread

/-- The exchange that a thread makes in a step, if it makes one. -/
def exchange? (m : Scheduler β σ) : Thread β σ α → Option (Exchange (hubCalls β σ))
  | runs p => m.exchange? p
  | task _ p => m.exchange? p
  | _ => none

theorem call?_of_exchange? {m : Scheduler β σ} {t : Thread β σ α}
    {x : Exchange (hubCalls β σ)} (h : t.exchange? m = some x) : t.call? = some x.call := by
  cases t with
  | runs p => exact Scheduler.call?_of_exchange? h
  | task a p => exact Scheduler.call?_of_exchange? h
  | _ => exact absurd h (by simp [exchange?])

/-- A thread whose next call is no wait makes that call. -/
theorem exchange?_of_call? {m : Scheduler β σ} {t : Thread β σ α} {c : HubCall β σ}
    (h : t.call? = some c) (hc : ∀ w, c ≠ .user (.wait w)) :
    t.exchange? m = m.hub.exchange? c := by
  have hcall : ∀ {γ : Type} {p : HubProgram β σ γ}, p.call? = some c →
      m.exchange? p = m.hub.exchange? c := by
    intro γ p hp
    cases p with
    | call c' next =>
      obtain rfl := Option.some.inj hp
      exact Scheduler.exchange?_call hc
    | _ => exact absurd hp (by simp [Program.call?])
  cases t with
  | runs p => exact hcall h
  | task a p => exact hcall h
  | _ => exact absurd h (by simp [call?])

/-- **A thread that runs a program takes a step.** -/
def act (B : Behaviours β σ) (m : Scheduler β σ) : Thread β σ α → Scheduler β σ × Thread β σ α
  | runs p => ((m.advance B p).1, ofProgress (m.advance B p).2)
  | task h p => ofTask h (m.advance B p)
  | t => (m, t)

end Thread

/-- **Threads that share a hub**, with its clock and the tasks that have not
ended. -/
structure Threads (β σ α : Type) where
  shared : Scheduler β σ
  thread : Nat → Thread β σ α
  /-- The thread that has hold of the list of sessions. -/
  holder : Option Nat

namespace HubCall

/-- Whether a call needs the list of sessions. -/
def needsSessions : HubCall β σ → Bool
  | user (.request (.openSession _ _)) => true
  | user (.request (.cancelSession _)) => true
  | user (.request .clearSessions) => true
  | user (.request .pendingSessions) => true
  | holdSessions => true
  | keepSessions _ => true
  | loseSessions _ => true
  | deliver _ _ => true
  | _ => false

/-- Who has hold of the sessions after a call. -/
def holder (i : Nat) (before : Option Nat) : HubCall β σ → Option Nat
  | holdSessions => some i
  | keepSessions _ => none
  | loseSessions _ => none
  | _ => before

end HubCall

namespace Threads

/-- **A thread may make a call**: it does not need the list of sessions, or
nobody else has hold of that. -/
def Permits (T : Threads β σ α) (i : Nat) (c : Option (HubCall β σ)) : Prop :=
  ∀ call, c = some call → call.needsSessions = true → ∀ j, T.holder = some j → j = i

/-- A thread becomes something else. -/
def set (T : Threads β σ α) (i : Nat) (shared : Scheduler β σ) (t : Thread β σ α) :
    Threads β σ α :=
  { T with shared, thread := Function.update T.thread i t }

/-- What becomes of threads when one of them takes a step in its program. -/
def acted (B : Behaviours β σ) (T : Threads β σ α) (i : Nat) : Threads β σ α :=
  { T.set i ((T.thread i).act B T.shared).1 ((T.thread i).act B T.shared).2 with
    holder := (T.thread i).call?.elim T.holder (HubCall.holder i T.holder) }

theorem thread_set_self (T : Threads β σ α) (i : Nat) (m : Scheduler β σ) (t : Thread β σ α) :
    (T.set i m t).thread i = t :=
  Function.update_self ..

theorem thread_set_of_ne (T : Threads β σ α) {i j : Nat} (hj : j ≠ i) (m : Scheduler β σ)
    (t : Thread β σ α) : (T.set i m t).thread j = T.thread j :=
  Function.update_of_ne hj ..

theorem thread_acted_self (B : Behaviours β σ) (T : Threads β σ α) (i : Nat) :
    (T.acted B i).thread i = ((T.thread i).act B T.shared).2 :=
  T.thread_set_self i ((T.thread i).act B T.shared).1 _

theorem thread_acted_of_ne (B : Behaviours β σ) (T : Threads β σ α) {i j : Nat} (hj : j ≠ i) :
    (T.acted B i).thread j = T.thread j :=
  T.thread_set_of_ne hj ((T.thread i).act B T.shared).1 _

theorem holder_acted {T : Threads β σ α} {i : Nat} {c : HubCall β σ}
    (hc : (T.thread i).call? = some c) (B : Behaviours β σ) :
    (T.acted B i).holder = c.holder i T.holder := by
  show (T.thread i).call?.elim _ _ = _
  rw [hc]
  rfl

/-- No thread runs a task. -/
def Free (T : Threads β σ α) (h : Handle) : Prop := ∀ i p, T.thread i ≠ .task h p

/-- **A step of some thread**, and what is seen of it. -/
inductive Step (B : Behaviours β σ) (T : Threads β σ α) : History β σ → Threads β σ α → Prop
  /-- A thread that runs a program goes on. -/
  | acts (i : Nat) : T.Permits i (T.thread i).call? →
      Step B T (.on i (((T.thread i).exchange? T.shared).map .made)) (T.acted B i)
  /-- The program of a caller finds what it waited for. -/
  | resumes (i : Nat) {s : Suspended β σ α} {r : s.wait.Reply} {m : Scheduler β σ} :
      T.thread i = .waits s → T.shared.answer? s.deadline s.wait = some (r, m) →
      Step B T (.on i (some (.made ⟨.user (.wait s.wait), r⟩))) (T.set i m (.runs (s.next r)))
  /-- A caller gives its program up. -/
  | givesUp (i : Nat) {s : Suspended β σ α} : T.thread i = .waits s →
      Step B T (.on i (some (.gaveUp s.wait))) (T.set i (T.shared.drop s.wait) .idle)
  /-- A caller has a program of its own to run. -/
  | begins (i : Nat) {p : HubProgram β σ α} : T.thread i = .idle → p.Calm B →
      Step B T [] (T.set i T.shared (.runs p))
  /-- A task that was not run before is run. -/
  | starts (i : Nat) {k : Task β σ} {p : HubProgram β σ EventResult} : T.thread i = .idle →
      k ∈ T.shared.tasks → T.Free k.handle → k.state = .fresh p →
      Step B T [] (T.set i T.shared (.task k.handle p))
  /-- A task finds what it waited for. -/
  | goesOn (i : Nat) {k : Task β σ} {s : Suspended β σ EventResult} {r : s.wait.Reply}
      {m : Scheduler β σ} : T.thread i = .idle → k ∈ T.shared.tasks → T.Free k.handle →
      k.state = .suspended s → T.shared.answer? s.deadline s.wait = some (r, m) →
      Step B T (.on i (some (.made ⟨.user (.wait s.wait), r⟩)))
        (T.set i m (.task k.handle (s.next r)))
  /-- A caller looks whether a wait is over, without waiting. -/
  | looks (i : Nat) (w : Wait) : T.thread i = .idle →
      Step B T (.on i ((T.shared.poll w).1.map fun r => .made ⟨.user (.wait w), r⟩))
        { T with shared := (T.shared.poll w).2 }
  /-- Time passes, and the order of turns is arranged. -/
  | rests {m : Scheduler β σ} : T.shared.Wakes m → T.shared.clock ≤ m.clock →
      Step B T [] { T with shared := m }

/-- **Any number of steps**, and what is seen of them. -/
inductive Run (B : Behaviours β σ) (T : Threads β σ α) : History β σ → Threads β σ α → Prop
  | refl : Run B T [] T
  | step {x y : History β σ} {T' T'' : Threads β σ α} :
      Run B T x T' → Step B T' y T'' → Run B T (x ++ y) T''

/-- Threads to which nothing has happened. -/
def fresh (hub : Hub β σ) : Threads β σ α := ⟨.fresh hub, fun _ => .idle, none⟩

variable {B : Behaviours β σ} {T T' T₁ T₂ : Threads β σ α} {x y z : History β σ}

/-! ## Runs -/

theorem Run.trans (h₁ : Run B T x T₁) (h₂ : Run B T₁ y T₂) : Run B T (x ++ y) T₂ := by
  induction h₂ with
  | refl => rwa [List.append_nil]
  | step _ hstep ih =>
    rw [← List.append_assoc]
    exact .step ih hstep

theorem Step.run (h : Step B T x T') : Run B T x T' := .step .refl h

/-- At most one thing is seen of a step. -/
theorem Step.eq_on (h : Step B T x T') : ∃ i o, x = .on i o := by
  cases h with
  | acts i => exact ⟨i, _, rfl⟩
  | resumes i => exact ⟨i, _, rfl⟩
  | givesUp i => exact ⟨i, _, rfl⟩
  | goesOn i => exact ⟨i, _, rfl⟩
  | looks i => exact ⟨i, _, rfl⟩
  | begins => exact ⟨0, none, rfl⟩
  | starts => exact ⟨0, none, rfl⟩
  | rests => exact ⟨0, none, rfl⟩

/-- **A run can be taken apart** wherever something is seen. -/
theorem Run.occurs {i : Nat} {o : Occurrence β σ} (h : Run B T x T') (hx : x = y ++ (i, o) :: z) :
    ∃ T₁ T₂, Run B T y T₁ ∧ Step B T₁ [(i, o)] T₂ ∧ Run B T₂ z T' := by
  induction h generalizing z with
  | refl => exact absurd hx (by simp)
  | @step x s T₁ T₂ hrun hstep ih =>
    obtain ⟨j, o', rfl⟩ := hstep.eq_on
    cases o' with
    | none =>
      obtain ⟨T₃, T₄, hfirst, hone, hrest⟩ := ih ((List.append_nil x).symm.trans hx)
      exact ⟨T₃, T₄, hfirst, hone, List.append_nil z ▸ hrest.step hstep⟩
    | some o' =>
      have hx : x ++ [(j, o')] = y ++ (i, o) :: z := hx
      rcases List.eq_nil_or_concat z with rfl | ⟨z, last, rfl⟩
      · obtain ⟨rfl, hlast⟩ := List.append_inj' hx rfl
        obtain ⟨rfl, rfl⟩ := Prod.mk.inj (List.head_eq_of_cons_eq hlast)
        exact ⟨T₁, T₂, hrun, hstep, .refl⟩
      · rw [List.concat_eq_append, ← List.cons_append, ← List.append_assoc] at hx
        obtain ⟨hx, hlast⟩ := List.append_inj' hx rfl
        obtain ⟨T₃, T₄, hfirst, hone, hrest⟩ := ih hx
        refine ⟨T₃, T₄, hfirst, hone, ?_⟩
        rw [List.concat_eq_append, ← List.head_eq_of_cons_eq hlast]
        exact hrest.step hstep

/-! ## What a step does to the hub -/

end Threads

/-- What is seen where no hub serves a call. -/
inductive Occurrence.Unserved : Option (Occurrence β σ) → Prop
  | nothing : Unserved none
  | waited {w : Wait} {r : w.Reply} : Unserved (some (made ⟨.user (.wait w), r⟩))
  | gaveUp {w : Wait} : Unserved (some (gaveUp w))

/-- Nobody opens a session by waiting. -/
theorem Occurrence.Unserved.opening? {o : Option (Occurrence β σ)} (ho : Unserved o)
    {d : SessionDeed β} (hd : o.bind (·.deed?) = some d) : d.opening? = none := by
  obtain ⟨o, rfl, hd⟩ := Option.bind_eq_some_iff.mp hd
  have hdoes := does_of_deed? hd
  cases ho with
  | waited =>
    cases hdoes with
    | timedOut => rfl
  | gaveUp =>
    cases hdoes with
    | gaveUp => rfl

/-- **What is seen of a hub and what it becomes**: it serves a call, or
otherwise keeps its registry and has done to its sessions what is seen. -/
inductive Hub.Takes (h : Hub β σ) : Option (Occurrence β σ) → Hub β σ → Prop
  | served {c : HubCall β σ} {r : c.Reply} {h₁ h' : Hub β σ} : h.serve c = some (r, h₁) →
      h₁.Alike h' → Takes h (some (.made ⟨c, r⟩)) h'
  | unserved {o : Option (Occurrence β σ)} {h' : Hub β σ} : Occurrence.Unserved o →
      h'.registry = h.registry → h'.drawn = h.drawn →
      (h.sessions.applyAll (o.bind (·.deed?)).toList).Agree h'.sessions → Takes h o h'

namespace Hub

variable {h h' h'' : Hub β σ} {o : Option (Occurrence β σ)}

/-- Nothing is seen of a hub that stays alike for programs. -/
theorem Alike.takes (ha : Alike h h') : h.Takes none h' :=
  .unserved .nothing ha.registry ha.drawn ha.sessions

theorem Takes.alike (ht : h.Takes o h') (ha : Alike h' h'') : h.Takes o h'' := by
  cases ht with
  | served hs hh =>
    exact .served hs ⟨ha.registry.trans hh.registry, ha.dispatches.trans hh.dispatches,
      ha.drawn.trans hh.drawn, hh.sessions.trans ha.sessions⟩
  | unserved ho hr hd hs =>
    exact .unserved ho (ha.registry.trans hr) (ha.drawn.trans hd) (hs.trans ha.sessions)

/-- **What happens to the sessions** is what is seen. -/
theorem Takes.sessions (ht : h.Takes o h') :
    (h.sessions.applyAll (o.bind (·.deed?)).toList).Agree h'.sessions := by
  cases ht with
  | served hs hh => exact (sessions_of_serve hs).trans hh.sessions
  | unserved _ _ _ hs => exact hs

theorem Takes.drawn_le (ht : h.Takes o h') : h.drawn ≤ h'.drawn := by
  cases ht with
  | served hs hh => exact hh.drawn ▸ drawn_le_of_serve hs
  | unserved _ _ hd _ => exact Nat.le_of_eq hd.symm

/-- A session that is opened has the identifier that is drawn then. -/
theorem Takes.opening (ht : h.Takes o h') {d : SessionDeed β} (hd : o.bind (·.deed?) = some d)
    {w : Waiter β} (hw : d.opening? = some w) :
    w.id = Id.ofEntropy h.drawn ∧ h.drawn < h'.drawn := by
  cases ht with
  | served hs hh =>
    have hopen := opening_of_serve hs (Option.bind_eq_some_iff.mpr ⟨d, hd, hw⟩)
    exact hh.drawn ▸ hopen
  | unserved ho _ _ _ => exact absurd ((ho.opening? hd).symm.trans hw) (by simp)

end Hub

namespace Scheduler

variable {B : Behaviours β σ} {m m' : Scheduler β σ}

/-- A wait that is over is seen, and its session is given up if its time is. -/
theorem takes_reply? {deadline : Option Nat} {w : Wait} {r : w.Reply}
    (h : m.reply? deadline w = some (r, m')) :
    m.hub.Takes (some (.made ⟨.user (.wait w), r⟩)) m'.hub := by
  cases replies_of_reply? h <;> exact .unserved .waited rfl rfl (.refl _)

theorem takes_answer? {deadline : Option Nat} {w : Wait} {r : w.Reply}
    (h : m.answer? deadline w = some (r, m')) :
    m.hub.Takes (some (.made ⟨.user (.wait w), r⟩)) m'.hub := by
  rcases yields_or_reply?_of_answer? h with ⟨rfl, rfl⟩ | h
  · exact .unserved .waited rfl rfl (.refl _)
  · exact takes_reply? h

/-- What is seen of a program that takes a step is what it makes of the hub. -/
theorem takes_advance (B : Behaviours β σ) (m : Scheduler β σ) (p : HubProgram β σ α) :
    m.hub.Takes ((m.exchange? p).map .made) (m.advance B p).1.hub := by
  have hserved : ∀ {c : HubCall β σ} {next : c.Reply → HubProgram β σ α},
      (∀ w, c ≠ .user (.wait w)) → (∀ e, c ≠ .user (.dispatch e)) →
      m.hub.Takes ((m.exchange? (.call c next)).map .made) (m.advance B (.call c next)).1.hub := by
    intro c next hwait hinner
    have ha := m.advanced B (.call c next)
    rw [exchange?_call hwait]
    generalize (m.advance B (.call c next)).1 = m' at ha ⊢
    generalize (m.advance B (.call c next)).2 = q at ha
    cases ha with
    | served hserved =>
      obtain ⟨h₁, hs, halike⟩ := hserved.hub
      rw [Hub.exchange?_of_serve hs]
      exact .served hs halike
    | waited _ => exact absurd rfl (hwait _)
    | waits => exact absurd rfl (hwait _)
    | inner => exact absurd rfl (hinner _)
  cases p with
  | done a => exact (Hub.Alike.refl m.hub).takes
  | panic q => exact (Hub.Alike.refl m.hub).takes
  | call c next =>
    cases c with
    | user c =>
      cases c with
      | request r => exact hserved (by simp) (by simp)
      | wait w =>
        simp only [exchange?, advance]
        cases h : m.reply? (m.deadline w) w with
        | none => exact (Hub.Alike.refl m.hub).takes
        | some a => exact takes_reply? h
      | dispatch e => exact (Hub.Alike.refl m.hub).takes
    | _ => exact hserved (by simp) (by simp)

theorem alike_complete (m : Scheduler β σ) (h : Handle) (r : EventResult) :
    m.hub.Alike (m.complete h r).hub := by
  rw [(m.wakes_complete h r).hub]
  exact ⟨rfl, rfl, rfl, .refl _⟩

/-- So it is of a thread that takes a step. -/
theorem takes_act (B : Behaviours β σ) (m : Scheduler β σ) (t : Thread β σ α) :
    m.hub.Takes ((t.exchange? m).map .made) (t.act B m).1.hub := by
  cases t with
  | runs p => exact m.takes_advance B p
  | task h p =>
    have ht := m.takes_advance B p
    show m.hub.Takes _ (Thread.ofTask h (m.advance B p) : _ × Thread β σ α).1.hub
    generalize m.advance B p = found at ht ⊢
    obtain ⟨m', q⟩ := found
    cases q with
    | ended r => exact ht.alike (alike_complete _ h _)
    | _ => exact ht
  | _ => exact (Hub.Alike.refl m.hub).takes

theorem takes_drop (m : Scheduler β σ) (w : Wait) :
    m.hub.Takes (some (.gaveUp w)) (m.drop w).hub := by
  cases w <;> exact .unserved .gaveUp rfl rfl (.refl _)

theorem takes_poll (m : Scheduler β σ) (w : Wait) :
    m.hub.Takes ((m.poll w).1.map fun r => .made ⟨.user (.wait w), r⟩) (m.poll w).2.hub := by
  unfold poll
  cases h : m.reply? (m.deadline w) w with
  | none => exact (Hub.Alike.refl m.hub).takes
  | some a => exact takes_reply? h

end Scheduler

namespace Threads

variable {B : Behaviours β σ} {T T' : Threads β σ α} {x : History β σ}

/-- **What is seen of a step is what it makes of the hub.** -/
theorem Step.takes (h : Step B T x T') :
    ∃ i o, x = .on i o ∧ T.shared.hub.Takes o T'.shared.hub := by
  cases h with
  | acts i _ => exact ⟨i, _, rfl, T.shared.takes_act B (T.thread i)⟩
  | resumes i _ ha => exact ⟨i, _, rfl, Scheduler.takes_answer? ha⟩
  | givesUp i _ => exact ⟨i, _, rfl, T.shared.takes_drop _⟩
  | begins i _ _ => exact ⟨i, none, rfl, (Hub.Alike.refl _).takes⟩
  | starts i _ _ _ _ => exact ⟨i, none, rfl, (Hub.Alike.refl _).takes⟩
  | goesOn i _ _ _ _ ha => exact ⟨i, _, rfl, Scheduler.takes_answer? ha⟩
  | looks i w _ => exact ⟨i, _, rfl, T.shared.takes_poll w⟩
  | rests hw _ => exact ⟨0, none, rfl, (hw.hub ▸ .refl _ : T.shared.hub.Alike _).takes⟩

/-- Threads draw identifiers, if any. -/
theorem Run.drawn_le (h : Run B T x T') : T.shared.hub.drawn ≤ T'.shared.hub.drawn := by
  induction h with
  | refl => exact Nat.le_refl _
  | step _ hstep ih =>
    obtain ⟨i, o, -, ht⟩ := hstep.takes
    exact Nat.le_trans ih ht.drawn_le

end Threads

/-! ## What a step does to tasks -/

namespace Scheduler

variable {B : Behaviours β σ} {m m' : Scheduler β σ}

/-- A reply keeps the hub and the tasks, but for a session that is given up. -/
theorem kept_answer? {deadline : Option Nat} {w : Wait} {r : w.Reply}
    (h : m.answer? deadline w = some (r, m')) : Kept w.For m m' := by
  rcases yields_or_reply?_of_answer? h with ⟨-, rfl⟩ | h
  · exact .refl m'
  · exact kept_reply? h

theorem grows_answer? {deadline : Option Nat} {w : Wait} {r : w.Reply}
    (h : m.answer? deadline w = some (r, m')) : Grows m m' := by
  rcases yields_or_reply?_of_answer? h with ⟨-, rfl⟩ | h
  · exact .refl m'
  · exact grows_reply? h

/-- A thread that takes a step deals with its task, if it runs one. -/
theorem dealt_act (B : Behaviours β σ) (m : Scheduler β σ) (t : Thread β σ α) :
    Dealt B m t.task? (t.act B m).1 (t.act B m).2.task? := by
  have hnone : ∀ q : Progress β σ α, (Thread.ofProgress q).task? = none := fun q => by
    cases q <;> rfl
  cases t with
  | runs p =>
    show Dealt B m none _ (Thread.ofProgress _).task?
    rw [hnone]
    exact .rests (grows_advance B m p)
  | task h p =>
    have ha := m.advanced B p
    have hg := grows_advance B m p
    show Dealt B m (some (h, p)) (Thread.ofTask h (m.advance B p) : _ × Thread β σ α).1
      (Thread.ofTask h (m.advance B p) : _ × Thread β σ α).2.task?
    generalize m.advance B p = found at ha hg ⊢
    obtain ⟨m', q⟩ := found
    cases q with
    | running q => exact .goes hg ha
    | waiting s =>
      obtain rfl : m' = m := ha.eq_of_not_running fun _ => by simp
      exact .setsAside ha
    | ended r =>
      obtain rfl : m' = m := ha.eq_of_not_running fun _ => by simp
      exact .ends ha (m'.wakes_complete h _)
  | _ => exact .rests (.refl m)

/-- Cells are never taken away. -/
theorem Dealt.length_le {x x' : Option (Handle × HubProgram β σ EventResult)}
    (h : Dealt B m x m' x') : m.results.length ≤ m'.results.length := by
  cases h with
  | picks hg _ _ => exact hg.results.length_le
  | goes hg _ => exact hg.results.length_le
  | setsAside _ => exact Nat.le_refl _
  | @ends h p r _ _ hw =>
    have hlen := Handles.length_results_complete m.hub.handles h (asFailure r)
    exact Nat.le_trans (Nat.le_of_eq hlen.symm) hw.grows.results.length_le
  | rests hg => exact hg.results.length_le

end Scheduler

namespace Threads

variable {B : Behaviours β σ} {T T' T₀ : Threads β σ α} {x : History β σ}

/-- **A step deals with the task of one thread**, if any, and the other threads
stay what they are. -/
theorem Step.dealt (h : Step B T x T') :
    ∃ i, Scheduler.Dealt B T.shared (T.thread i).task? T'.shared (T'.thread i).task? ∧
      (∀ j, j ≠ i → T'.thread j = T.thread j) ∨
    T.shared.Grows T'.shared ∧ T'.thread = T.thread := by
  have hset : ∀ (i : Nat) {m' : Scheduler β σ} {t : Thread β σ α},
      Scheduler.Dealt B T.shared (T.thread i).task? m' t.task? →
      ∃ j, Scheduler.Dealt B T.shared (T.thread j).task? m' ((T.set i m' t).thread j).task? ∧
        (∀ k, k ≠ j → (T.set i m' t).thread k = T.thread k) ∨
      T.shared.Grows m' ∧ (T.set i m' t).thread = T.thread := by
    intro i m' t hd
    refine ⟨i, .inl ⟨?_, fun k hk => T.thread_set_of_ne hk m' t⟩⟩
    rwa [thread_set_self]
  cases h with
  | acts i _ =>
    refine ⟨i, .inl ⟨?_, fun j hj => T.thread_acted_of_ne B hj⟩⟩
    rw [thread_acted_self]
    exact T.shared.dealt_act B _
  | resumes i ht ha =>
    refine hset i ?_
    rw [ht]
    exact .rests (Scheduler.grows_answer? ha)
  | givesUp i ht =>
    refine hset i ?_
    rw [ht]
    exact .rests (T.shared.grows_drop _)
  | begins i ht _ =>
    refine hset i ?_
    rw [ht]
    exact .rests (.refl _)
  | starts i ht hk _ hfresh =>
    refine hset i ?_
    rw [ht]
    exact .picks (.refl _) hk (.begins hfresh)
  | goesOn i ht hk _ hs ha =>
    refine hset i ?_
    rw [ht]
    exact .picks (Scheduler.grows_answer? ha) hk (.resumes _ hs)
  | looks i w _ => exact ⟨i, .inr ⟨T.shared.grows_poll w, rfl⟩⟩
  | rests hw _ => exact ⟨0, .inr ⟨hw.grows, rfl⟩⟩

/-- **A property of tasks and handles lasts**, whichever thread runs which
task. -/
def Lasts (T : Threads β σ α)
    (J : Scheduler β σ → Option (Handle × HubProgram β σ EventResult) → Prop) : Prop :=
  J T.shared none ∧ ∀ i, J T.shared (T.thread i).task?

section Lasting

variable {J : Scheduler β σ → Option (Handle × HubProgram β σ EventResult) → Prop}

/-- What lasts with the scheduler lasts with threads, if a thread is not
concerned by the tasks of others. -/
theorem Step.lasts (hJ : Scheduler.Lasting J)
    (hjoin : ∀ {m m' x}, J m x → J m' none → m.results.length ≤ m'.results.length → J m' x)
    (h : Step B T x T') (hT : T.Lasts J) : T'.Lasts J := by
  rcases h.dealt with ⟨i, ⟨hd, hothers⟩ | ⟨hg, hthread⟩⟩
  · have hi := hJ.step hd (hT.2 i)
    refine ⟨hJ.rest hi, fun j => ?_⟩
    by_cases hj : j = i
    · exact hj ▸ hi
    · rw [hothers j hj]
      exact hjoin (hT.2 j) (hJ.rest hi) hd.length_le
  · have hnone := hJ.grows hg hT.1
    refine ⟨hnone, fun j => ?_⟩
    rw [hthread]
    exact hjoin (hT.2 j) hnone hg.results.length_le

theorem Run.lasts (hJ : Scheduler.Lasting J)
    (hjoin : ∀ {m m' x}, J m x → J m' none → m.results.length ≤ m'.results.length → J m' x)
    (h : Run B T x T') (hT : T.Lasts J) : T'.Lasts J := by
  induction h with
  | refl => exact hT
  | step _ hstep ih => exact hstep.lasts hJ hjoin ih

end Lasting

theorem Run.tidy (h : Run B T x T') (hT : T.Lasts Scheduler.Tidy) : T'.Lasts Scheduler.Tidy :=
  h.lasts Scheduler.lasting_tidy (fun hx hnone hle => ⟨hnone.tasks, fun a p he =>
    Nat.lt_of_lt_of_le (hx.running a p he) hle⟩) hT

theorem Run.settings_eq (h : Run B T x T') : T'.shared.hub.settings = T.shared.hub.settings :=
  (h.lasts (Scheduler.lasting_settings T.shared.hub.settings) (fun _ hnone _ => hnone)
    ⟨rfl, fun _ => rfl⟩).1

theorem Run.promised {Q : EventResult → Prop} {a : Handle} (h : Run B T x T')
    (hT : T.Lasts (Scheduler.Promised Q a)) : T'.Lasts (Scheduler.Promised Q a) :=
  h.lasts (Scheduler.lasting_promised Q a)
    (fun hx hnone _ => { hnone with running := hx.running }) hT

/-- **A result that is there stays.** -/
theorem Run.result {a : Handle} {w : EventResult} (h : Run B T x T')
    (hT : T.shared.hub.handles.result? a = some w) : T'.shared.hub.handles.result? a = some w :=
  (h.lasts (Scheduler.lasting_result a w) (fun _ hnone _ => hnone) ⟨hT, fun _ => hT⟩).1

/-- **A call that is served is made by a thread whose next call it is**, and
which may make it. -/
theorem Step.of_served {i : Nat} {c : HubCall β σ} {r : c.Reply}
    (h : Step B T [(i, .made ⟨c, r⟩)] T') (hc : ∀ w, c ≠ .user (.wait w)) :
    T.Permits i (some c) ∧ (T.thread i).call? = some c ∧
      T.shared.hub.exchange? c = some ⟨c, r⟩ ∧ T' = T.acted B i := by
  have hwait : ∀ {w : Wait} {a : w.Reply} {j : Nat},
      History.on j (some (Occurrence.made (β := β) (σ := σ) ⟨.user (.wait w), a⟩))
        = [(i, .made ⟨c, r⟩)] → False := by
    intro w a j he
    have hx := Occurrence.made.inj (Option.some.inj (History.on_eq_singleton_iff.mp he).2)
    exact hc w (congrArg Exchange.call hx).symm
  generalize hx : [(i, Occurrence.made ⟨c, r⟩)] = x at h
  cases h with
  | acts j hpermits =>
    obtain ⟨rfl, ho⟩ := History.on_eq_singleton_iff.mp hx.symm
    obtain ⟨y, hy, he⟩ := Option.map_eq_some_iff.mp ho
    obtain rfl := Occurrence.made.inj he
    have hcall := Thread.call?_of_exchange? hy
    rw [Thread.exchange?_of_call? hcall hc] at hy
    rw [hcall] at hpermits
    exact ⟨hpermits, hcall, hy, rfl⟩
  | resumes j _ _ => exact (hwait hx.symm).elim
  | givesUp j _ => exact absurd (History.on_eq_singleton_iff.mp hx.symm).2 (by simp)
  | begins => exact absurd hx (by simp)
  | starts => exact absurd hx (by simp)
  | goesOn j _ _ _ _ _ => exact (hwait hx.symm).elim
  | looks j w _ =>
    obtain ⟨-, ho⟩ := History.on_eq_singleton_iff.mp hx.symm
    obtain ⟨a, -, he⟩ := Option.map_eq_some_iff.mp ho
    exact absurd (congrArg Exchange.call (Occurrence.made.inj he)).symm (hc w)
  | rests => exact absurd hx (by simp)

/-- **A wait is told what the hub has to say**, on whatever thread. -/
theorem Step.of_waited {w : Wait} {r : w.Reply} (h : Step B T [(i, .made ⟨.user (.wait w), r⟩)] T')
    (hw : w ≠ .yield) : ∃ deadline m', T.shared.reply? deadline w = some (r, m') := by
  have hanswer : ∀ {w' : Wait} {r' : w'.Reply} {deadline : Option Nat} {m' : Scheduler β σ} {j},
      (History.on j (some (.made ⟨.user (.wait w'), r'⟩)) : History β σ)
        = [(i, .made ⟨.user (.wait w), r⟩)] →
      T.shared.answer? deadline w' = some (r', m') →
      ∃ deadline m', T.shared.reply? deadline w = some (r, m') := by
    intro w' r' deadline m' j he ha
    cases Occurrence.made.inj (Option.some.inj (History.on_eq_singleton_iff.mp he).2)
    rcases Scheduler.yields_or_reply?_of_answer? ha with ⟨rfl, -⟩ | hr
    · exact absurd rfl hw
    · exact ⟨deadline, m', hr⟩
  generalize hx : [(i, Occurrence.made ⟨.user (.wait w), r⟩)] = x at h
  cases h with
  | acts j _ =>
    obtain ⟨-, ho⟩ := History.on_eq_singleton_iff.mp hx.symm
    obtain ⟨y, hy, he⟩ := Option.map_eq_some_iff.mp ho
    obtain rfl := Occurrence.made.inj he
    generalize T.thread j = t at hy
    cases t with
    | runs p => exact ⟨_, Scheduler.reply?_of_exchange? hy⟩
    | task a p => exact ⟨_, Scheduler.reply?_of_exchange? hy⟩
    | _ => exact absurd hy (by simp [Thread.exchange?])
  | resumes j _ ha => exact hanswer hx.symm ha
  | givesUp j _ => exact absurd (History.on_eq_singleton_iff.mp hx.symm).2 (by simp)
  | begins => exact absurd hx (by simp)
  | starts => exact absurd hx (by simp)
  | goesOn j _ _ _ _ ha => exact hanswer hx.symm ha
  | looks j w' _ =>
    obtain ⟨-, ho⟩ := History.on_eq_singleton_iff.mp hx.symm
    obtain ⟨r', hr', he⟩ := Option.map_eq_some_iff.mp ho
    cases Occurrence.made.inj he
    exact ⟨_, Scheduler.reply?_of_poll hr'⟩
  | rests => exact absurd hx (by simp)

/-- A step in which a handler is started promises its result. -/
theorem Step.promised_of_spawn {Q : EventResult → Prop} {i : Nat} {job : Job β} {a : Handle}
    (h : Step B T [(i, .made ⟨.spawn job, a⟩)] T')
    (hjob : (runJob B T.shared.hub.settings job).Ends fun e => Q (asFailure e))
    (hT : T.Lasts Scheduler.Tidy) : T'.Lasts (Scheduler.Promised Q a) := by
  obtain ⟨-, hcall, hx, rfl⟩ := h.of_served (by simp)
  obtain ⟨-, rfl⟩ := Scheduler.exchange?_eq_spawn hx
  obtain ⟨hspawned, hrunning⟩ : (∀ y, Scheduler.Tidy T.shared y →
        Scheduler.Spawned B job (T.shared.hub.handles.add none).1 T.shared
          ((T.thread i).act B T.shared).1 y) ∧
      Scheduler.Tidy T.shared ((T.thread i).act B T.shared).2.task? := by
    have hi := hT.2 i
    generalize T.thread i = t at hcall hi
    cases t with
    | runs p =>
      cases p with
      | call c next =>
        obtain rfl : c = .spawn job := Option.some.inj hcall
        exact ⟨fun y hy => Scheduler.spawned_of_advance hy next, hT.1⟩
      | _ => exact absurd hcall (by simp [Thread.call?, Program.call?])
    | task b p =>
      cases p with
      | call c next =>
        obtain rfl : c = .spawn job := Option.some.inj hcall
        refine ⟨fun y hy => Scheduler.spawned_of_advance hy next, hi.tasks, fun b' p' he => ?_⟩
        obtain ⟨rfl, -⟩ := Prod.mk.inj (Option.some.inj he)
        exact hi.running b _ rfl
      | _ => exact absurd hcall (by simp [Thread.call?, Program.call?])
    | _ => exact absurd hcall (by simp [Thread.call?])
  refine ⟨(hspawned none hT.1).promised hjob, fun j => ?_⟩
  by_cases hj : j = i
  · subst hj
    rw [thread_acted_self]
    exact (hspawned _ hrunning).promised hjob
  · rw [T.thread_acted_of_ne B hj]
    exact (hspawned _ (hT.2 j)).promised hjob

/-- **Every handler that was started** gives what its program can end in,
whatever threads there are. -/
theorem Run.promised_of_mem {job : Job β} {a : Handle} (h : Run B T x T')
    (hT : T.Lasts Scheduler.Tidy) (hx : ⟨.spawn job, a⟩ ∈ x.exchanges) :
    T'.Lasts (Scheduler.Promised (job.CanGive B T.shared.hub.settings) a) := by
  obtain ⟨⟨i, o⟩, hmem, ho⟩ := List.mem_filterMap.mp hx
  cases o with
  | made y =>
    obtain rfl := Option.some.inj ho
    obtain ⟨y, z, rfl⟩ := List.append_of_mem hmem
    obtain ⟨T₁, T₂, hfirst, hstep, hrest⟩ := h.occurs rfl
    refine hrest.promised (hstep.promised_of_spawn ?_ (hfirst.tidy hT))
    rw [hfirst.settings_eq]
    exact fun t e hrun => ⟨t, e, hrun, rfl⟩
  | gaveUp w => exact absurd ho (by simp [Occurrence.exchange?])

end Threads

end Switchboard
