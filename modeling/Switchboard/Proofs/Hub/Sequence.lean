import Switchboard.Proofs.Hub.Turns

/-!
# A main program in two parts

A main program that is a sequence does what its first part does until that
ends, and then what its second part does. This is so although tasks have
turns in between, and although the first part may be set aside many times:
what is found next depends on what the main program waits for, and not on
what it does afterwards (`step_bind`).

So the steps of a sequence are those of its first part, without the one in
which that ends, followed by those of its second part. This is shown in both
directions, from the parts to the sequence (`steps_bind`) and back
(`parts_of_steps_bind`).

The simplest part is to wait for one thing. The main program is resumed only
with a reply that is there, and nothing happens between this and its end, so
what was waited for is there when the wait has ended (`replied_of_steps`).
-/

namespace Switchboard

variable {β σ α γ : Type}

/-- A program that waits, and what follows it. -/
def Suspended.bind (s : Suspended β σ α) (f : α → HubProgram β σ γ) : Suspended β σ γ :=
  ⟨s.wait, s.deadline, fun r => (s.next r).bind f⟩

/-- What a step makes of a program, and what follows that. -/
def Progress.bind (f : α → HubProgram β σ γ) : Progress β σ α → Progress β σ γ
  | running p => running (p.bind f)
  | waiting s => waiting (s.bind f)
  | ended (.ok a) => running (f a)
  | ended (.error p) => ended (.error p)

namespace Scheduler

/-- Whose turn it is, where something follows the main program. -/
def Turn.bind (f : α → HubProgram β σ γ) : Turn β σ α → Turn β σ γ
  | main p => main (p.bind f)
  | task h p s => task h p (s.bind f)
  | nobody s => nobody (s.bind f)
  | ended (.ok a) => main (f a)
  | ended (.error p) => ended (.error p)
  | stuck => stuck

/-- A main program that is about to end, or has ended, with a value. -/
inductive Turn.Over (a : α) : Turn β σ α → Prop
  | about : Over a (main (.done a))
  | ended : Over a (ended (.ok a))

/-! ## One step -/

section Step

variable (B : Behaviours β σ) (limit : Option Nat) (m : Scheduler β σ) (f : α → HubProgram β σ γ)

theorem advance_call_bind (c : HubCall β σ) (next : c.Reply → HubProgram β σ α) :
    m.advance B ((Program.call c next : HubProgram β σ α).bind f)
      = ((m.advance B (.call c next)).1, (m.advance B (.call c next)).2.bind f) := by
  cases c with
  | user c =>
    cases c with
    | request r => rfl
    | wait w =>
      simp only [Program.call_bind, advance]
      cases m.reply? (m.deadline w) w <;> rfl
    | dispatch e =>
      have hassoc := Program.bind_assoc (Switchboard.dispatch B m.hub.settings e).recover next f
      exact congrArg (fun p => (m, Progress.running p)) hassoc.symm
  | _ => rfl

theorem resume_bind (s : Suspended β σ α) :
    m.resume (s.bind f) = ((m.resume s).1, (m.resume s).2.bind f) := by
  obtain ⟨w, deadline, next⟩ := s
  cases w with
  | yield => rfl
  | _ =>
    simp only [Suspended.bind, resume]
    split <;> rfl

theorem setMainAside_bind (s : Suspended β σ α) :
    m.setMainAside limit (s.bind f)
      = ((m.setMainAside limit s).1, (m.setMainAside limit s).2.bind f) := by
  unfold setMainAside
  split <;> rfl

/-- A program that is resumed has not ended. -/
theorem mainTurn_bind (s : Suspended β σ α) :
    m.mainTurn limit (s.bind f) = ((m.mainTurn limit s).1, (m.mainTurn limit s).2.bind f) := by
  have hresume := m.resume_bind f s
  obtain ⟨-, hresumed⟩ := resumed m s
  unfold mainTurn
  rw [hresume]
  generalize m.resume s = found at hresumed
  obtain ⟨m₁, q⟩ := found
  cases hresumed with
  | running r => rfl
  | waiting => exact m₁.setMainAside_bind limit f s

theorem takeTurn_bind (h : Handle) (rest : List Handle) (s : Suspended β σ α) :
    m.takeTurn h rest (s.bind f)
      = ((m.takeTurn h rest s).1, (m.takeTurn h rest s).2.bind f) := by
  unfold takeTurn
  simp only
  split
  · rfl
  · rfl
  · split <;> rfl

theorem nextTurn_bind (s : Suspended β σ α) :
    m.nextTurn limit (s.bind f) = ((m.nextTurn limit s).1, (m.nextTurn limit s).2.bind f) := by
  have hround : ∀ m : Scheduler β σ, m.endRound (s.bind f) = m.endRound s := fun _ => rfl
  have hdue : m.nextDue limit (s.bind f) = m.nextDue limit s := rfl
  have hmain : ∀ m : Scheduler β σ,
      m.mainTurn limit (s.bind f) = (m.mainTurn limit s).map id (Turn.bind f) :=
    fun m => m.mainTurn_bind limit f s
  show _ = (m.nextTurn limit s).map id (Turn.bind f)
  unfold nextTurn
  split
  · exact m.takeTurn_bind f _ _ s
  · simp only [hround, hdue, hmain]
    cases m.nextDue limit s <;> simp only [apply_ite (Prod.map id (Turn.bind f))] <;> rfl

/-- **A step of a sequence** is one of its first part, until that ends. -/
theorem step_bind {t : Turn β σ α} (ht : ∀ a, ¬ t.Over a) :
    m.step B limit (t.bind f) = ((m.step B limit t).1, (m.step B limit t).2.bind f) := by
  cases t with
  | main p =>
    cases p with
    | done a => exact absurd .about (ht a)
    | panic p => rfl
    | call c next =>
      have hadvance := m.advance_call_bind B f c next
      simp only [Turn.bind, step]
      rw [hadvance]
      have h := m.advanced B (.call c next)
      generalize m.advance B (.call c next) = found at h
      obtain ⟨m₁, q⟩ := found
      cases q with
      | running p => rfl
      | waiting s => exact m₁.setMainAside_bind limit f s
      | ended e => exact absurd h (by intro h; cases h)
  | task h p s =>
    simp only [Turn.bind, step]
    split <;> rfl
  | nobody s => exact m.nextTurn_bind limit f s
  | ended r =>
    cases r with
    | ok a => exact absurd .ended (ht a)
    | error p => rfl
  | stuck => rfl

end Step

/-! ## Many steps -/

section Steps

variable {B : Behaviours β σ} {limit : Option Nat} {m m' : Scheduler β σ}

/-- A main program that is over takes one step at most, and ends. -/
theorem step_of_over {t : Turn β σ α} {a : α} (h : t.Over a) :
    m.step B limit t = (m, .ended (.ok a)) := by
  cases h <;> rfl

theorem bind_of_over {t : Turn β σ α} {a : α} (h : t.Over a) (f : α → HubProgram β σ γ) :
    t.bind f = .main (f a) := by
  cases h <;> rfl

/-- A main program that has ended stays as it is. -/
theorem steps_ended (n : Nat) (r : Except Payload α) :
    m.steps B limit n (.ended r) = (m, .ended r) := by
  cases n <;> rfl

/-- **What ends is followed by what comes after it.** -/
theorem steps_bind {n : Nat} {t : Turn β σ α} {a : α}
    (h : m.steps B limit n t = (m', .ended (.ok a))) (f : α → HubProgram β σ γ) :
    ∃ k, m.steps B limit k (t.bind f) = (m', .main (f a)) := by
  induction n generalizing m t with
  | zero =>
    obtain ⟨rfl, rfl⟩ := Prod.mk.inj h
    exact ⟨0, rfl⟩
  | succ n ih =>
    rw [steps_succ] at h
    by_cases hover : ∃ b, t.Over b
    · obtain ⟨b, hb⟩ := hover
      rw [step_of_over hb, steps_ended] at h
      obtain ⟨rfl, hr⟩ := Prod.mk.inj h
      obtain rfl := Except.ok.inj (Turn.ended.inj hr)
      exact ⟨0, by rw [bind_of_over hb]; rfl⟩
    · obtain ⟨k, hk⟩ := ih h
      refine ⟨k + 1, ?_⟩
      rw [steps_succ, m.step_bind B limit f fun b hb => hover ⟨b, hb⟩]
      exact hk

/-- **A sequence ends as its first part in a panic, or as its second part**
where its first part has ended. -/
theorem parts_of_steps_bind {n : Nat} {t : Turn β σ α} {f : α → HubProgram β σ γ}
    {r : Except Payload γ} (h : m.steps B limit n (t.bind f) = (m', .ended r)) :
    (∃ k p, r = .error p ∧ m.steps B limit k t = (m', .ended (.error p))) ∨
      ∃ k j m₁ a, m.steps B limit k t = (m₁, .ended (.ok a)) ∧
        m₁.steps B limit j (.main (f a)) = (m', .ended r) := by
  by_cases hover : ∃ b, t.Over b
  · obtain ⟨b, hb⟩ := hover
    rw [bind_of_over hb] at h
    exact .inr ⟨1, n, m, b, by rw [steps_succ, step_of_over hb, steps_ended], h⟩
  · induction n generalizing m t with
    | zero =>
      obtain ⟨rfl, hr⟩ := Prod.mk.inj h
      cases t with
      | ended e =>
        cases e with
        | ok a => exact absurd ⟨a, .ended⟩ hover
        | error p =>
          obtain rfl := Turn.ended.inj hr
          exact .inl ⟨0, p, rfl, rfl⟩
      | _ => exact absurd hr (by simp [Turn.bind])
    | succ n ih =>
      rw [steps_succ, m.step_bind B limit f fun b hb => hover ⟨b, hb⟩] at h
      by_cases hnext : ∃ b, (m.step B limit t).2.Over b
      · obtain ⟨b, hb⟩ := hnext
        rw [bind_of_over hb] at h
        refine .inr ⟨1 + 1, n, _, b, ?_, h⟩
        rw [steps_succ, steps_succ, step_of_over hb, steps_ended]
      · rcases ih h hnext with ⟨k, p, rfl, hk⟩ | ⟨k, j, m₁, a, hk, hj⟩
        · exact .inl ⟨k + 1, p, rfl, by rw [steps_succ]; exact hk⟩
        · exact .inr ⟨k + 1, j, m₁, a, by rw [steps_succ]; exact hk, hj⟩

/-- A main program that is over ends, and nothing else happens. -/
theorem ended_of_over {n : Nat} {t : Turn β σ α} {a : α} (ht : t.Over a) {r : Except Payload α}
    (h : m.steps B limit n t = (m', .ended r)) : m' = m ∧ r = .ok a := by
  have hover : (m.steps B limit n t).1 = m ∧ (m.steps B limit n t).2.Over a := by
    cases n with
    | zero => exact ⟨rfl, ht⟩
    | succ n =>
      rw [steps_succ, step_of_over ht, steps_ended]
      exact ⟨rfl, .ended⟩
  rw [h] at hover
  obtain ⟨hm, hended⟩ := hover
  refine ⟨hm, ?_⟩
  cases hended
  rfl

/-- Steps and more steps. -/
theorem steps_trans {n k : Nat} {t t₁ t₂ : Turn β σ α} {m₁ m₂ : Scheduler β σ}
    (h₁ : m.steps B limit n t = (m₁, t₁)) (h₂ : m₁.steps B limit k t₁ = (m₂, t₂)) :
    m.steps B limit (n + k) t = (m₂, t₂) := by
  rw [steps_add, h₁]
  exact h₂

/-- What ends is followed by what is made of its value. -/
theorem steps_bind_done {n : Nat} {p : HubProgram β σ α} {a : α}
    (h : m.steps B limit n (.main p) = (m', .ended (.ok a))) (f : α → γ) :
    ∃ k, m.steps B limit k (.main (p.bind fun a => .done (f a))) = (m', .ended (.ok (f a))) := by
  obtain ⟨k, hk⟩ := steps_bind h fun a => .done (f a)
  exact ⟨k + 1, steps_trans hk rfl⟩

/-- A main program of whose value something is made ends as the program
does. -/
theorem of_steps_bind_done {n : Nat} {p : HubProgram β σ α} {f : α → γ} {r : Except Payload γ}
    (h : m.steps B limit n (.main (p.bind fun a => .done (f a))) = (m', .ended r)) :
    ∃ k e, m.steps B limit k (.main p) = (m', .ended e) ∧ r = e.map f := by
  rcases parts_of_steps_bind (t := .main p) (f := fun a => .done (f a)) h with
    ⟨k, q, rfl, hk⟩ | ⟨k, j, m₁, a, hk, hj⟩
  · exact ⟨k, _, hk, rfl⟩
  · obtain ⟨rfl, rfl⟩ := ended_of_over .about hj
    exact ⟨k, _, hk, rfl⟩

end Steps

/-! ## Waiting -/

section Waiting

variable {B : Behaviours β σ} {limit : Option Nat} {m m' : Scheduler β σ}

/-- If the main program has the turn that was found, it has been resumed. -/
def Resumes (s : Suspended β σ α) (found : Scheduler β σ × Turn β σ α) : Prop :=
  ∀ p, found.2 = .main p → ∃ m₁ m₂ : Scheduler β σ,
    m₁.resume s = (m₂, .running p) ∧ found.1 = { m₂ with mainWait := none }

theorem resumes_of_ne {s : Suspended β σ α} {found : Scheduler β σ × Turn β σ α}
    (h : ∀ p, found.2 ≠ .main p) : Resumes s found :=
  fun p hp => absurd hp (h p)

theorem resumes_mainTurn (m : Scheduler β σ) (limit : Option Nat) (s : Suspended β σ α) :
    Resumes s (m.mainTurn limit s) := by
  unfold mainTurn
  split
  · next m₁ q hresume =>
    intro p hp
    obtain rfl := Turn.main.inj hp
    exact ⟨m, m₁, hresume, rfl⟩
  · next m₁ q _ hresume =>
    refine resumes_of_ne fun p hp => ?_
    rcases (setMainAside_eq m₁ limit s).2 with ht | ht
    · exact absurd (ht.symm.trans hp) (by simp)
    · exact absurd (ht.symm.trans hp) (by simp)

theorem resumes_takeTurn (m : Scheduler β σ) (h : Handle) (rest : List Handle)
    (s : Suspended β σ α) : Resumes s (m.takeTurn h rest s) := by
  unfold takeTurn
  simp only
  split
  · exact resumes_of_ne fun p hp => absurd hp (by simp)
  · exact resumes_of_ne fun p hp => absurd hp (by simp)
  · split
    · exact resumes_of_ne fun p hp => absurd hp (by simp)
    · exact resumes_of_ne fun p hp => absurd hp (by simp)

/-- **The main program has its next turn when it can be resumed.** -/
theorem resumes_nextTurn (m : Scheduler β σ) (limit : Option Nat) (s : Suspended β σ α) :
    Resumes s (m.nextTurn limit s) := by
  have hnobody : ∀ m₁ : Scheduler β σ, Resumes s (m₁, Turn.nobody s) :=
    fun _ => resumes_of_ne fun p hp => absurd hp (by simp)
  unfold nextTurn
  split
  · exact m.resumes_takeTurn _ _ s
  · extract_lets yielded
    split
    · split
      · exact resumes_mainTurn _ limit s
      · exact hnobody _
    · split
      · exact m.resumes_mainTurn limit s
      · split
        · exact resumes_of_ne fun p hp => absurd hp (by simp)
        · simp only
          split
          · exact resumes_mainTurn _ limit s
          · exact hnobody _

/-- A main program that only waits, be it that it is to begin with that or
has been set aside. -/
inductive Turn.Waits (w : Wait) : Turn β σ w.Reply → Prop
  | asks : Waits w (.main (HubProgram.lift (.wait w)))
  | task (h : Handle) (p : HubProgram β σ EventResult) (deadline : Option Nat) :
      Waits w (.task h p ⟨w, deadline, .done⟩)
  | nobody (deadline : Option Nat) : Waits w (.nobody ⟨w, deadline, .done⟩)

/-- A reply that was there, and what the scheduler is once it is given. -/
def Replied (w : Wait) (a : w.Reply) (m : Scheduler β σ) : Prop :=
  ∃ (m₁ m₂ : Scheduler β σ) (deadline : Option Nat), m₁.reply? deadline w = some (a, m₂) ∧
    m.hub = m₂.hub ∧ m.tasks = m₂.tasks

/-- A program that waits is resumed with a reply that is there. -/
theorem reply?_of_resume {w : Wait} (hw : w ≠ .yield) {deadline : Option Nat}
    {next : w.Reply → HubProgram β σ α} {m₂ : Scheduler β σ} {p : HubProgram β σ α}
    (h : m.resume ⟨w, deadline, next⟩ = (m₂, .running p)) :
    ∃ a, m.reply? deadline w = some (a, m₂) ∧ p = next a := by
  rcases m.resume_cases ⟨w, deadline, next⟩ with ⟨r, m', hr, hres⟩ | ⟨-, -, hres⟩
  · obtain ⟨rfl, hp⟩ := Prod.mk.inj (hres.symm.trans h)
    exact ⟨r, (yields_or_reply?_of_answer? hr).resolve_left fun hy => hw hy.1,
      (Progress.running.inj hp).symm⟩
  · exact absurd (hres.symm.trans h) (by simp)

/-- **A main program that only waits** goes on to wait in a step, or is given
a reply that is there, or is given up. -/
theorem step_of_waits (B : Behaviours β σ) (limit : Option Nat) (m : Scheduler β σ) {w : Wait}
    (hw : w ≠ .yield) {t : Turn β σ w.Reply} (ht : t.Waits w) :
    (m.step B limit t).2.Waits w ∨
      (∃ a, (m.step B limit t).2 = .main (.done a) ∧ Replied w a (m.step B limit t).1) ∨
      (m.step B limit t).2 = .stuck := by
  cases ht with
  | asks =>
    simp only [step, HubProgram.lift, advance]
    cases hr : m.reply? (m.deadline w) w with
    | some found => exact .inr (.inl ⟨found.1, rfl, m, found.2, _, hr, rfl, rfl⟩)
    | none =>
      rcases (setMainAside_eq m limit (⟨w, m.deadline w, .done⟩ : Suspended β σ w.Reply)).2
        with h | h
      · exact .inr (.inr h)
      · exact .inl (h ▸ .nobody _)
  | task h p d =>
    simp only [step]
    split
    · exact .inl (.task _ _ d)
    · exact .inl (.nobody d)
    · exact .inl (.nobody d)
  | nobody d =>
    have hhands : Hands m ⟨w, d, .done⟩ (m.nextTurn limit ⟨w, d, .done⟩).2 :=
      (m.finds_nextTurn limit _).2
    have hresumes := m.resumes_nextTurn limit (⟨w, d, .done⟩ : Suspended β σ w.Reply)
    show (m.nextTurn limit ⟨w, d, .done⟩).2.Waits w ∨
      (∃ a, (m.nextTurn limit ⟨w, d, .done⟩).2 = .main (.done a) ∧
        Replied w a (m.nextTurn limit (⟨w, d, .done⟩ : Suspended β σ w.Reply)).1) ∨
      (m.nextTurn limit (⟨w, d, .done⟩ : Suspended β σ w.Reply)).2 = .stuck
    generalize m.nextTurn limit (⟨w, d, .done⟩ : Suspended β σ w.Reply) = found at *
    obtain ⟨m₃, t⟩ := found
    cases hhands with
    | task _ _ => exact .inl (.task _ _ d)
    | nobody => exact .inl (.nobody d)
    | stuck => exact .inr (.inr rfl)
    | main r =>
      obtain ⟨m₁, m₂, hresume, hm⟩ := hresumes _ rfl
      obtain ⟨a, ha, hp⟩ := reply?_of_resume hw hresume
      exact .inr (.inl ⟨a, congrArg Turn.main hp, m₁, m₂, d, ha, by rw [hm], by rw [hm]⟩)

/-- **A main program that only waits ends with a reply that is there**, in
what the scheduler is then. -/
theorem replied_of_steps {w : Wait} (hw : w ≠ .yield) {n : Nat} {t : Turn β σ w.Reply}
    (ht : t.Waits w) {r : Except Payload w.Reply}
    (h : m.steps B limit n t = (m', .ended r)) : ∃ a, r = .ok a ∧ Replied w a m' := by
  induction n generalizing m t with
  | zero =>
    obtain ⟨-, rfl⟩ := Prod.mk.inj h
    cases ht
  | succ n ih =>
    rw [steps_succ] at h
    rcases m.step_of_waits B limit hw ht with hnext | ⟨a, ha, hr⟩ | hstuck
    · exact ih hnext h
    · rw [ha] at h
      cases n with
      | zero => exact absurd (Prod.mk.inj h).2 (by simp)
      | succ n =>
        rw [steps_succ, step_of_over .about, steps_ended] at h
        obtain ⟨rfl, he⟩ := Prod.mk.inj h
        exact ⟨a, (Turn.ended.inj he).symm, hr⟩
    · rw [hstuck] at h
      cases n <;> exact absurd (Prod.mk.inj h).2 (by simp)

end Waiting

end Scheduler

end Switchboard
