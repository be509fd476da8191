import Mathlib.Logic.Hydra
import Switchboard.Proofs.Hub.Attention

/-!
# Programs that halt

A program is a finite tree of calls. But an inner dispatch becomes a part of
the program that makes it, and the listeners of that can dispatch again, so a
task need not come to an end even if it never waits. `Program.Halts` says that
it does, whatever it is told, and that the handlers it starts do so too.

While the main program waits, every step of a task leaves less to be done:
one piece of work is replaced by smaller ones, and there may be several of
them, since a task can start others. This is a step of the hydra game on what
all tasks have yet to do (`Scheduler.load`), and where programs halt the game
is finite (`Scheduler.acc_load`).
-/

namespace Switchboard

variable {β σ α : Type} {B : Behaviours β σ} {s : DispatchSettings}

/-- **A program halts**, whatever it is told, with the dispatches it makes,
and so do the handlers it starts. -/
inductive Program.Halts (B : Behaviours β σ) (s : DispatchSettings) :
    HubProgram β σ EventResult → Prop
  | done (r : EventResult) : Halts B s (.done r)
  | panic (p : Payload) : Halts B s (.panic p)
  | call {c : HubCall β σ} {next : c.Reply → HubProgram β σ EventResult} :
      (∀ e, c ≠ .user (.dispatch e)) → (∀ r, Halts B s (next r)) →
      (∀ job, c = .spawn job → Halts B s (runJob B s job)) → Halts B s (.call c next)
  | dispatch {e : Event} {next : Except Payload (Except DispatchError DispatchResult) →
      HubProgram β σ EventResult} :
      Halts B s ((Switchboard.dispatch B s e).recover.bind next) →
      Halts B s (.call (.user (.dispatch e)) next)

/-- A call that is answered in time: a request, or a wait that is over at some
time in any case. -/
def HubCall.isPrompt : HubCall β σ → Bool
  | user (.request _) => true
  | user (.wait .yield) => true
  | user (.wait w) => w.timed
  | _ => false

/-- An exchange in which nothing is waited for without end. -/
def Prompt (x : Exchange (hubCalls β σ)) : Prop := x.call.isPrompt = true

/-! ## Work -/

/-- What a task has yet to do, while it waits or has its turn. -/
inductive Work (β σ : Type) where
  | waits (k : TaskState β σ)
  | runs (p : HubProgram β σ EventResult)

namespace Work

/-- **What is left of a piece of work** after a step, or is started by it. -/
inductive Leaves (B : Behaviours β σ) (s : DispatchSettings) : Work β σ → Work β σ → Prop
  | begins {p : HubProgram β σ EventResult} : Leaves B s (runs p) (waits (.fresh p))
  | resumes {k : Suspended β σ EventResult} (r : k.wait.Reply) :
      Leaves B s (runs (k.next r)) (waits (.suspended k))
  | setsAside {w : Wait} {deadline : Option Nat} {next : w.Reply → HubProgram β σ EventResult} :
      Leaves B s (waits (.suspended ⟨w, deadline, next⟩)) (runs (.call (.user (.wait w)) next))
  | goes {c : HubCall β σ} {next : c.Reply → HubProgram β σ EventResult} (r : c.Reply) :
      (∀ e, c ≠ .user (.dispatch e)) → Leaves B s (runs (next r)) (runs (.call c next))
  | inner {e : Event} {next : Except Payload (Except DispatchError DispatchResult) →
      HubProgram β σ EventResult} :
      Leaves B s (runs ((Switchboard.dispatch B s e).recover.bind next))
        (runs (.call (.user (.dispatch e)) next))
  | starts {job : Job β} {next : Handle → HubProgram β σ EventResult} :
      Leaves B s (waits (.fresh (runJob B s job))) (runs (.call (.spawn job) next))

/-- A task that waits for its first turn halts if it does when it has it. -/
theorem acc_fresh {p : HubProgram β σ EventResult} (hp : Acc (Leaves B s) (runs p)) :
    Acc (Leaves B s) (waits (.fresh p)) :=
  ⟨_, fun _ hw => by cases hw with | begins => exact hp⟩

theorem acc_suspended {k : Suspended β σ EventResult}
    (hk : ∀ r, Acc (Leaves B s) (runs (k.next r))) : Acc (Leaves B s) (waits (.suspended k)) :=
  ⟨_, fun _ hw => by cases hw with | resumes r => exact hk r⟩

/-- **Where a program halts, what is left of it becomes less and less.** -/
theorem acc_of_halts {p : HubProgram β σ EventResult} (hp : p.Halts B s) :
    Acc (Leaves B s) (runs p) := by
  induction hp with
  | done r => exact ⟨_, fun _ hw => by cases hw⟩
  | panic p => exact ⟨_, fun _ hw => by cases hw⟩
  | call hno _ _ ih ihjob =>
    refine ⟨_, fun w hw => ?_⟩
    cases hw with
    | setsAside => exact acc_suspended ih
    | goes r _ => exact ih r
    | inner => exact absurd rfl (hno _)
    | starts => exact acc_fresh (ihjob _ rfl)
  | dispatch _ ih =>
    refine ⟨_, fun w hw => ?_⟩
    cases hw with
    | goes r hno => exact absurd rfl (hno _)
    | inner => exact ih

/-- What is left of work that comes to an end. -/
def Below (B : Behaviours β σ) (s : DispatchSettings) (w w' : Work β σ) : Prop :=
  Leaves B s w w' ∧ Acc (Leaves B s) w'

instance : Std.Irrefl (Below B s) where
  irrefl := by
    rintro w ⟨hself, hacc⟩
    induction hacc with
    | intro w _ ih => exact ih w hself hself

theorem acc_below {w : Work β σ} (h : Acc (Leaves B s) w) : Acc (Below B s) w :=
  Subrelation.accessible (fun hw => hw.1) h

end Work

/-! ## What all tasks have yet to do -/

namespace Scheduler

variable {m m' : Scheduler β σ} {x : Option (Handle × HubProgram β σ EventResult)}

/-- What tasks have yet to do while they wait. -/
def work (ks : List (Task β σ)) : Multiset (Work β σ) :=
  Multiset.ofList (ks.map fun k => .waits k.state)

theorem work_append (ks ks' : List (Task β σ)) : work (ks ++ ks') = work ks + work ks' := by
  unfold work
  rw [List.map_append, Multiset.coe_add]

/-- Picking a task out of the list leaves the others. -/
theorem work_eq {ks : List (Task β σ)} (hd : (ks.map (·.handle)).Nodup) {k : Task β σ}
    (hk : k ∈ ks) : work ks = work (ks.filter (·.handle != k.handle)) + {.waits k.state} := by
  obtain ⟨l, r, rfl⟩ := List.append_of_mem hk
  have hothers : ∀ k' ∈ l ++ r, (k'.handle != k.handle) = true := by
    intro k' hk'
    rw [List.map_append, List.map_cons] at hd
    have hnot := (List.nodup_cons.mp (List.perm_middle.nodup_iff.mp hd)).1
    rw [← List.map_append] at hnot
    exact bne_iff_ne.mpr fun he => hnot (he ▸ List.mem_map_of_mem hk')
  have hfilter : (l ++ k :: r).filter (·.handle != k.handle) = l ++ r := by
    rw [List.filter_append, List.filter_cons_of_neg (by simp), ← List.filter_append,
      List.filter_eq_self.mpr hothers]
  rw [hfilter, work_append, work_append, add_assoc]
  refine congrArg (work l + ·) ?_
  show work ([k] ++ r) = _
  rw [work_append, add_comm]
  rfl

/-- **What all tasks have yet to do**, with the one that has its turn. -/
def load (m : Scheduler β σ) : Option (Handle × HubProgram β σ EventResult) → Multiset (Work β σ)
  | none => work m.tasks
  | some (a, p) => work (m.tasks.filter (·.handle != a)) + {.runs p}

/-- One piece of work is replaced by what is left of it. -/
abbrev Lighter (B : Behaviours β σ) (s : DispatchSettings) :
    Multiset (Work β σ) → Multiset (Work β σ) → Prop :=
  Relation.CutExpand (Work.Below B s)

theorem lighter_of_leaves {rest left : Multiset (Work β σ)} {w : Work β σ}
    (hleft : ∀ w' ∈ left, Work.Leaves B s w' w) (hw : Acc (Work.Leaves B s) w) :
    Lighter B s (rest + left) (rest + {w}) :=
  (Relation.cutExpand_add_left rest).mpr
    (Relation.cutExpand_singleton fun w' hw' => ⟨hleft w' hw', hw⟩)

/-- All tasks halt. -/
def Halting (B : Behaviours β σ) (m : Scheduler β σ)
    (x : Option (Handle × HubProgram β σ EventResult)) : Prop :=
  ∀ w ∈ m.load x, Acc (Work.Leaves B m.hub.settings) w

/-- **The work of tasks that halt comes to an end.** -/
theorem acc_load (h : m.Halting B x) : Acc (Lighter B m.hub.settings) (m.load x) :=
  Relation.acc_of_singleton fun w hw => (Work.acc_below (h w hw)).cutExpand

/-- What a program leaves to be done when it goes on. A handler that it starts
is one task more. -/
theorem work_advance {p q : HubProgram β σ EventResult} (h : m.advance B p = (m', .running q)) :
    m'.tasks = m.tasks ∧ Work.Leaves B m.hub.settings (.runs q) (.runs p) ∨
    ∃ job next, p = .call (.spawn job) next ∧ q = next (m.hub.handles.add none).1 ∧
      m'.tasks = m.tasks ++
        [⟨(m.hub.handles.add none).1, .fresh (runJob B m.hub.settings job)⟩] := by
  have hgoes : ∀ {c : HubCall β σ} {next : c.Reply → HubProgram β σ EventResult} {r : c.Reply},
      (∀ e, c ≠ .user (.dispatch e)) → m'.tasks = m.tasks → q = next r →
      m'.tasks = m.tasks ∧ Work.Leaves B m.hub.settings (.runs q) (.runs (.call c next)) := by
    rintro c next r hno htasks rfl
    exact ⟨htasks, .goes r hno⟩
  cases p with
  | done a => exact absurd h (by simp [advance])
  | panic p => exact absurd h (by simp [advance])
  | call c next =>
    cases c with
    | spawn job =>
      obtain ⟨rfl, hq⟩ := Prod.mk.inj h
      exact .inr ⟨job, next, rfl, (Progress.running.inj hq).symm, rfl⟩
    | user c =>
      cases c with
      | wait w =>
        simp only [advance] at h
        split at h
        · next r m₁ hr =>
          obtain ⟨rfl, hq⟩ := Prod.mk.inj h
          refine .inl (hgoes (by simp) ?_ (Progress.running.inj hq).symm)
          cases replies_of_reply? hr <;> rfl
        · exact absurd h (by simp)
      | dispatch e =>
        obtain ⟨rfl, hq⟩ := Prod.mk.inj h
        obtain rfl := Progress.running.inj hq
        exact .inl ⟨rfl, .inner⟩
      | request r =>
        obtain ⟨rfl, hq⟩ := Prod.mk.inj h
        exact .inl (hgoes (by simp) (wakes_wakeSettled _).tasks (Progress.running.inj hq).symm)
    | keepSessions ws =>
      obtain ⟨rfl, hq⟩ := Prod.mk.inj h
      exact .inl (hgoes (by simp) (wakes_wakeSettled _).tasks (Progress.running.inj hq).symm)
    | loseSessions ws =>
      obtain ⟨rfl, hq⟩ := Prod.mk.inj h
      exact .inl (hgoes (by simp) (wakes_wakeSettled _).tasks (Progress.running.inj hq).symm)
    | deliver id e =>
      obtain ⟨rfl, hq⟩ := Prod.mk.inj h
      exact .inl (hgoes (by simp) (wakes_wakeSettled _).tasks (Progress.running.inj hq).symm)
    | _ =>
      obtain ⟨rfl, hq⟩ := Prod.mk.inj h
      exact .inl (hgoes (by simp) rfl (Progress.running.inj hq).symm)

/-- A task that starts a handler has less to do, and the new task can do less than
it could. -/
theorem lighter_spawn {a : Handle} {job : Job β} {next : Handle → HubProgram β σ EventResult}
    {m' : Scheduler β σ} (ht : Tidy m (some (a, .call (.spawn job) next)))
    (hp : Acc (Work.Leaves B m.hub.settings) (.runs (.call (.spawn job) next)))
    (htasks : m'.tasks = m.tasks ++
      [⟨(m.hub.handles.add none).1, .fresh (runJob B m.hub.settings job)⟩]) :
    Lighter B m.hub.settings (m'.load (some (a, next (m.hub.handles.add none).1)))
      (m.load (some (a, .call (.spawn job) next))) := by
  -- the new task is another one
  have hnew : ((m.hub.handles.add none).1 != a) = true := by
    refine bne_iff_ne.mpr fun he => ?_
    have hlt := ht.running a _ rfl
    rw [← he] at hlt
    exact absurd hlt (by simp [Handles.add, results, Handles.results])
  have hfilter : m'.tasks.filter (·.handle != a) = m.tasks.filter (·.handle != a) ++
      [⟨(m.hub.handles.add none).1, .fresh (runJob B m.hub.settings job)⟩] := by
    rw [htasks, List.filter_append]
    exact congrArg _ (List.filter_eq_self.mpr fun k hk => List.mem_singleton.mp hk ▸ hnew)
  show Lighter B _ (work (m'.tasks.filter (·.handle != a)) + {.runs _}) _
  rw [hfilter, work_append, add_assoc]
  refine lighter_of_leaves (fun w hw => ?_) hp
  rcases Multiset.mem_add.mp hw with hw | hw
  · rw [show w = .waits (.fresh (runJob B m.hub.settings job)) from Multiset.mem_singleton.mp hw]
    exact .starts
  · rw [Multiset.mem_singleton.mp hw]
    exact .goes (c := .spawn job) _ (by simp)

/-- **A task that has its turn leaves less to be done** in every step. -/
theorem lighter_task (limit : Option Nat) {a : Handle} {p : HubProgram β σ EventResult}
    (main : Suspended β σ α) (ht : Tidy m (some (a, p)))
    (hp : Acc (Work.Leaves B m.hub.settings) (.runs p)) :
    Lighter B m.hub.settings
      ((m.step B limit (.task a p main)).1.load (m.step B limit (.task a p main)).2.task?)
      (m.load (some (a, p))) := by
  have hothers : ∀ {w : Work β σ}, Work.Leaves B m.hub.settings w (.runs p) →
      Lighter B m.hub.settings (work (m.tasks.filter (·.handle != a)) + {w})
        (m.load (some (a, p))) := fun hw =>
    lighter_of_leaves (fun w' hw' => Multiset.mem_singleton.mp hw' ▸ hw) hp
  simp only [step]
  split
  · next m₁ q hadv =>
    rcases work_advance hadv with ⟨htasks, hleaves⟩ | ⟨job, next, rfl, rfl, htasks⟩
    · show Lighter B _ (work (m₁.tasks.filter (·.handle != a)) + {.runs q}) _
      rw [htasks]
      exact hothers hleaves
    · exact lighter_spawn ht hp htasks
  · next m₁ k hadv =>
    have hwaits : Work.Leaves B m.hub.settings (.waits (.suspended k)) (.runs p) := by
      have ha := m.advanced B p
      rw [hadv] at ha
      cases ha with
      | waits => exact .setsAside
    obtain ⟨rfl, -, -⟩ := waits_of_advance hadv
    show Lighter B _ (work (m₁.tasks.filter (·.handle != a) ++ [_])) _
    rw [work_append]
    exact hothers hwaits
  · next m₁ r hadv =>
    have ha := m.advanced B p
    rw [hadv] at ha
    obtain rfl := ha.eq_of_not_running fun _ => by simp
    show Lighter B _ (work (m₁.complete a _).tasks) _
    rw [(m₁.wakes_complete a _).tasks]
    show Lighter B _ (work (m₁.tasks.filter (·.handle != a))) _
    rw [← add_zero (work _)]
    exact lighter_of_leaves (fun w hw => absurd hw (Multiset.notMem_zero w)) hp

/-- **A task that is given the turn leaves less to be done** than it had when
it waited. -/
theorem lighter_pick (hd : (m.tasks.map (·.handle)).Nodup) {k : Task β σ} (hk : k ∈ m.tasks)
    (htasks : m'.tasks = m.tasks) {p : HubProgram β σ EventResult}
    (hp : Work.Leaves B s (.runs p) (.waits k.state))
    (hacc : Acc (Work.Leaves B s) (.waits k.state)) :
    Lighter B s (m'.load (some (k.handle, p))) (m.load none) := by
  show Lighter B s (work (m'.tasks.filter (·.handle != k.handle)) + {.runs p}) (work m.tasks)
  rw [htasks, work_eq hd hk]
  exact lighter_of_leaves (fun w hw => Multiset.mem_singleton.mp hw ▸ hp) hacc

/-- Tasks that halt go on to halt. -/
theorem Halting.of_lighter {x' : Option (Handle × HubProgram β σ EventResult)}
    (h : m.Halting B x) (hs : m'.hub.settings = m.hub.settings)
    (hl : Lighter B m.hub.settings (m'.load x') (m.load x)) : m'.Halting B x' := by
  unfold Halting
  rw [hs]
  exact Relation.cutExpand_closed _ (fun hb ha => ha.inv hb.1) hl h

/-- Tasks halt whose programs do, whatever they are told. -/
theorem halting_of_halts (h : ∀ k ∈ m.tasks, ∀ p, k.GoesOn p → p.Halts B m.hub.settings) :
    m.Halting B none := by
  intro w hw
  obtain ⟨k, hk, rfl⟩ := List.mem_map.mp (Multiset.mem_coe.mp hw)
  cases hstate : k.state with
  | fresh p => exact Work.acc_fresh (Work.acc_of_halts (h k hk p (.begins hstate)))
  | suspended s =>
    exact Work.acc_suspended fun r => Work.acc_of_halts (h k hk _ (.resumes r hstate))

end Scheduler

end Switchboard
