import Switchboard.Proofs.Dispatch.Attendance
import Switchboard.Proofs.Hub.Turns

/-!
# Bystanders of a dispatch

While a dispatch runs, tasks have their turns whenever it waits, and its
own code can dispatch events, too. All of them are bystanders: none of them
writes to the dispatch. Supplied code has no call that does, and a dispatch
writes to itself only, once it has begun and been given its number
(`avoids_dispatch`). So a program writes to no dispatch but those it begins
itself, and it stays such a program with every step (`Program.Avoids`).

Therefore a run of the scheduler is, for its main program, a run of that
program in a hub that spares a given dispatch (`reaches_of_steps`): inner
dispatches are single exchanges of it, and what tasks do happens between
its exchanges. That is what a run of a dispatch in a hub was taken to be,
and `through_of_dispatch` says so of every dispatch that a scheduler runs.
-/

namespace Switchboard

variable {β σ α : Type} {i : Nat}

/-! ## Beginning a dispatch -/

/-- The number of the dispatch that begins with a call and its reply. -/
def HubCall.begun? : (c : HubCall β σ) → c.Reply → Option Nat
  | start _, b => some b.context.index
  | _, _ => none

namespace Hub

variable {h h' : Hub β σ}

theorem written_isSome_iff : (h.written i).isSome ↔ i < h.dispatches.length := by
  simp [written]

/-- A dispatch that is spared is still there. -/
theorem Spares.begun (hs : Spares i h h') (hi : i < h.dispatches.length) :
    i < h'.dispatches.length := by
  rw [← written_isSome_iff] at hi ⊢
  obtain ⟨w, hw⟩ := Option.isSome_iff_exists.mp hi
  rw [hs w hw]
  rfl

/-- A dispatch that begins is one more. -/
theorem length_lt_start (h : Hub β σ) (e : Event) :
    h.dispatches.length < (h.start e).2.dispatches.length := by
  have hstart : (h.start e).2.dispatches.length = h.dispatches.length + 1 := List.length_append
  exact hstart ▸ Nat.lt_succ_self _

/-- No call ends a dispatch. -/
theorem length_le_of_serve {c : HubCall β σ} {r : c.Reply} (hs : h.serve c = some (r, h')) :
    h.dispatches.length ≤ h'.dispatches.length := by
  have hlen : ∀ {c : EventContext} {f : DispatchState → DispatchState},
      h.dispatches.length ≤ (h.updateDispatch c f).dispatches.length :=
    Nat.le_of_eq (List.length_modify ..).symm
  obtain rfl := eq_afterCall hs
  cases c with
  | user c =>
    cases c with
    | request q =>
      cases q with
      | setAttributes s a =>
        cases s with
        | dispatch c => exact hlen
        | shared => exact Nat.le_refl _
      | _ => exact Nat.le_refl _
    | _ => exact Nat.le_refl _
  | start e => exact Nat.le_of_lt (length_lt_start h e)
  | record c o => exact hlen
  | markTruncated c => exact hlen
  | _ => exact Nat.le_refl _

/-- A dispatch that begins is the next one. -/
theorem begun_of_serve {c : HubCall β σ} {r : c.Reply} (hs : h.serve c = some (r, h')) {i : Nat}
    (hb : c.begun? r = some i) : h.dispatches.length = i ∧ i < h'.dispatches.length := by
  cases c with
  | start e =>
    obtain ⟨rfl, rfl⟩ : (h.start e).1 = r ∧ (h.start e).2 = h' :=
      Prod.mk.inj (Option.some.inj hs)
    obtain rfl : h.dispatches.length = i := Option.some.inj hb
    exact ⟨rfl, length_lt_start h e⟩
  | _ => exact absurd hb (by simp [HubCall.begun?])

/-- A call that is not served begins nothing. -/
theorem begun?_of_serve_eq_none {c : HubCall β σ} (hs : h.serve c = none) (r : c.Reply) :
    c.begun? r = none := by
  cases c with
  | start e => exact absurd hs (by simp [serve])
  | _ => rfl

end Hub

/-! ## Programs that avoid a dispatch -/

namespace Program

/-- **A program avoids a dispatch**: it does not write to it, unless it has
begun it itself. -/
def Avoids (i : Nat) : HubProgram β σ α → Prop
  | done _ => True
  | panic _ => True
  | call c next => ∀ r, HubCall.target? c ≠ some i ∧
      (HubCall.begun? c r ≠ some i → (next r).Avoids i)

theorem avoids_of_only {p : HubProgram β σ α} (hp : p.Only (SilentTo i)) :
    p.Avoids i := by
  induction p with
  | done a => trivial
  | panic p => trivial
  | call c next ih => exact fun r => ⟨(hp r).1, fun _ => ih r (hp r).2⟩

theorem avoids_bind {γ : Type} {p : HubProgram β σ α} {f : α → HubProgram β σ γ}
    (hp : p.Avoids i) (hf : ∀ a, (f a).Avoids i) : (p.bind f).Avoids i := by
  induction p with
  | done a => exact hf a
  | panic p => trivial
  | call c next ih => exact fun r => ⟨(hp r).1, fun hb => ih r ((hp r).2 hb)⟩

theorem avoids_recover {p : HubProgram β σ α} (hp : p.Avoids i) : p.recover.Avoids i := by
  induction p with
  | done a => trivial
  | panic p => trivial
  | call c next ih => exact fun r => ⟨(hp r).1, fun hb => ih r ((hp r).2 hb)⟩

end Program

open HubProgram

section Dispatches

variable (B : Behaviours β σ) (s : DispatchSettings)

/-- **A dispatch avoids all dispatches but itself.** -/
theorem avoids_dispatch (e : Event) (i : Nat) : (dispatch B s e).Avoids i := by
  intro b
  refine ⟨fun h => absurd h (by simp [HubCall.target?]), fun hb => Program.avoids_of_only ?_⟩
  have hb : b.context.index ≠ i := fun h => hb (congrArg some h)
  exact Program.only_bind ((only_resumeSessions B b.context).mono fun _ hx => hx.to i)
    fun _ => (only_afterOffering B s b).mono fun _ hx => hx.silentTo hb

/-- A handler that runs on its own avoids all dispatches. -/
theorem avoids_runJob (job : Job β) (i : Nat) : (runJob B s job).Avoids i :=
  Program.avoids_of_only ((only_runJob B s job).mono fun _ hx => hx.silent.to i)

end Dispatches

/-! ## Runs that avoid a dispatch -/

namespace Hub

variable {h h' h'' : Hub β σ}

/-- A program that avoids a dispatch spares it, if it has begun before. -/
theorem spares_of_avoids {p : HubProgram β σ α} {t : HubTrace β σ} {r : Except Payload α}
    (hp : p.Avoids i) (hrun : p.Runs t r) (hi : i < h.dispatches.length)
    (ht : Through i h t h') : Spares i h h' := by
  induction hrun generalizing h with
  | done a => exact ht
  | panic q => exact ht
  | @call c next a t r hrun ih =>
    obtain ⟨h₁, h₂, hs, hx, ht⟩ := ht
    obtain ⟨htarget, hnext⟩ := hp a
    have hi₁ : i < h₁.dispatches.length := hs.begun hi
    have hmakes : Spares i h₁ h₂ ∧ c.begun? a ≠ some i := by
      rcases hx with hx | ⟨hx, rfl⟩
      · refine ⟨spares_of_serve hx htarget, fun hb => ?_⟩
        exact Nat.ne_of_gt hi₁ (begun_of_serve hx hb).1
      · refine ⟨.refl i _, ?_⟩
        rw [begun?_of_serve_eq_none hx a]
        exact fun hb => absurd hb (by simp)
    have hi₂ : i < h₂.dispatches.length := hmakes.1.begun hi₁
    exact hs.trans (hmakes.1.trans (ih (hnext hmakes.2) hi₂ ht))

/-- **A program can come to this end** in a hub that spares a dispatch,
through exchanges of a sort. -/
def Reaches (P : Exchange (hubCalls β σ) → Prop) (i : Nat) (h : Hub β σ) (p : HubProgram β σ α)
    (r : Except Payload α) (h' : Hub β σ) : Prop :=
  ∃ t, p.Runs t r ∧ Through i h t h' ∧ ∀ x ∈ t, P x

/-- Waits and inner dispatches, which are not answered by the hub, are of a
sort. -/
def Outside (P : Exchange (hubCalls β σ) → Prop) : Prop :=
  (∀ w r, P ⟨.user (.wait w), r⟩) ∧ ∀ e r, P ⟨.user (.dispatch e), r⟩

variable {P : Exchange (hubCalls β σ) → Prop} {r : Except Payload α}

theorem reaches_of_spares {p : HubProgram β σ α} (hs : Spares i h h')
    (hp : Reaches P i h' p r h'') : Reaches P i h p r h'' := by
  obtain ⟨t, hrun, ht, hP⟩ := hp
  exact ⟨t, hrun, through_of_spares hs ht, hP⟩

theorem reaches_call {c : HubCall β σ} {next : c.Reply → HubProgram β σ α} {a : c.Reply}
    (hc : P ⟨c, a⟩) (hx : h.Makes ⟨c, a⟩ h') (hp : Reaches P i h' (next a) r h'') :
    Reaches P i h (.call c next) r h'' := by
  obtain ⟨t, hrun, ht, hP⟩ := hp
  refine ⟨⟨c, a⟩ :: t, .call hrun, ⟨h, h', .refl i h, hx, ht⟩, fun x hmem => ?_⟩
  rcases List.mem_cons.mp hmem with rfl | hmem
  · exact hc
  · exact hP x hmem

theorem reaches_ofExcept (r : Except Payload α) (h : Hub β σ) :
    Reaches P i h (.ofExcept r) r h := by
  cases r with
  | ok a => exact ⟨[], .done a, .refl i h, by simp⟩
  | error p => exact ⟨[], .panic p, .refl i h, by simp⟩

/-- **An inner dispatch is a single exchange.** What it does, and what
others do meanwhile, spares the dispatches that have begun before. -/
theorem reaches_inner {B : Behaviours β σ} {s : DispatchSettings} {e : Event}
    {next : Except Payload (Except DispatchError DispatchResult) → HubProgram β σ α}
    (hP : Outside P) (hi : i < h.dispatches.length)
    (hp : Reaches P i h ((dispatch B s e).recover.bind next) r h') :
    Reaches P i h (.call (.user (.dispatch e)) next) r h' := by
  obtain ⟨t, hrun, ht, hall⟩ := hp
  -- up to its end, value or panic, the run is that of the dispatch
  obtain ⟨a, u, v, rfl, hu, hv⟩ := Program.runs_recover_bind_iff.mp hrun
  obtain ⟨h₁, htu, htv⟩ := through_append_iff.mp ht
  have hs : Spares i h h₁ := spares_of_avoids (avoids_dispatch B s e i) hu hi htu
  exact reaches_call (hP.2 e a) (.inr ⟨rfl, rfl⟩)
    (reaches_of_spares hs ⟨v, hv, htv, fun x hx => hall x (List.mem_append_right u hx)⟩)

end Hub

/-! ## Steps of the scheduler -/

namespace Scheduler

variable {B : Behaviours β σ} {limit : Option Nat} {m m' : Scheduler β σ}
  {P : Exchange (hubCalls β σ) → Prop}

/-- What the main program has yet to do, whoever has its turn. -/
def Turn.rest? : Turn β σ α → Option (HubProgram β σ α)
  | main p => some p
  | task _ _ s => some (.call (.user (.wait s.wait)) s.next)
  | nobody s => some (.call (.user (.wait s.wait)) s.next)
  | ended r => some (.ofExcept r)
  | stuck => none

section Advanced

variable {p : HubProgram β σ α} {q : Progress β σ α}

theorem Advanced.length_le (h : Advanced B m p m' q) :
    m.hub.dispatches.length ≤ m'.hub.dispatches.length := by
  cases h with
  | served hserved =>
    obtain ⟨h₁, hs, halike⟩ := hserved.hub
    rw [halike.dispatches]
    exact Hub.length_le_of_serve hs
  | waited hk => exact Nat.le_of_eq (congrArg List.length hk.hub.dispatches.symm)
  | _ => exact Nat.le_refl _

/-- A step of a program that avoids a dispatch spares it. -/
theorem Advanced.spares (h : Advanced B m p m' q) (hp : p.Avoids i) :
    Hub.Spares i m.hub m'.hub := by
  cases h with
  | @served c next r m' hserved =>
    obtain ⟨h₁, hs, halike⟩ := hserved.hub
    exact (Hub.spares_of_serve hs (hp r).1).trans (Hub.spares_of_dispatches_eq halike.dispatches)
  | waited hk => exact hk.hub.spares i
  | _ => exact .refl i _

/-- A program that avoids a dispatch goes on so, unless the dispatch begins
in this step. -/
theorem Advanced.avoids {p' : HubProgram β σ α} (h : Advanced B m p m' (.running p'))
    (hi : i < m.hub.dispatches.length ∨ m'.hub.dispatches.length ≤ i) (hp : p.Avoids i) :
    p'.Avoids i := by
  cases h with
  | @served c next r m' hserved =>
    refine (hp r).2 fun hb => ?_
    obtain ⟨h₁, hs, halike⟩ := hserved.hub
    -- a dispatch that begins is given a number that was not in use before and is now
    obtain ⟨hbegun, hlt⟩ := Hub.begun_of_serve hs hb
    rw [halike.dispatches] at hi
    omega
  | @waited w next r m' hk => exact (hp r).2 fun hb => absurd hb (by simp [HubCall.begun?])
  | inner =>
    exact Program.avoids_bind (Program.avoids_recover (avoids_dispatch B _ _ i))
      fun r => (hp r).2 fun hb => absurd hb (by simp [HubCall.begun?])

/-- A step of the main program is a part of its run. -/
theorem Advanced.reaches {p' : HubProgram β σ α} (h : Advanced B m p m' (.running p'))
    (hP : Hub.Outside P) (hstep : ∀ x ∈ p.call?.bind m.hub.exchange?, P x)
    (hi : i < m.hub.dispatches.length) {r : Except Payload α} {h' : Hub β σ}
    (hr : Hub.Reaches P i m'.hub p' r h') : Hub.Reaches P i m.hub p r h' := by
  cases h with
  | served hserved =>
    obtain ⟨h₁, hs, halike⟩ := hserved.hub
    exact Hub.reaches_call (hstep _ (Hub.exchange?_of_serve hs)) (.inl hs)
      (Hub.reaches_of_spares (Hub.spares_of_dispatches_eq halike.dispatches) hr)
  | waited hk =>
    exact Hub.reaches_call (hP.1 _ _) (.inr ⟨rfl, rfl⟩)
      (Hub.reaches_of_spares (hk.hub.spares i) hr)
  | inner => exact Hub.reaches_inner hP hi hr

end Advanced

variable {t t' : Turn β σ α}

theorem Stepped.length_le (h : Stepped B m t m' t') :
    m.hub.dispatches.length ≤ m'.hub.dispatches.length := by
  obtain ⟨hub, hmoved, hk⟩ := h.moved
  rw [hk.dispatches]
  generalize t.call? = c at hmoved
  cases hmoved with
  | nobody => exact Nat.le_refl _
  | advanced ha => exact ha.length_le

/-- **Tasks go on avoiding a dispatch**, unless it begins in this step. -/
theorem Stepped.tasksAvoid (h : Stepped B m t m' t') (ht : TasksIn (Program.Avoids i) m t)
    (hi : i < m.hub.dispatches.length ∨ m'.hub.dispatches.length ≤ i) :
    TasksIn (Program.Avoids i) m' t' := by
  refine h.tasksIn ht (fun job => avoids_runJob B _ job i)
    (fun a p q main he ha => ha.avoids hi (ht.running a p main he))
    fun a w next main he r => ?_
  exact (ht.running a _ main he r).2 fun hb => absurd hb (by simp [HubCall.begun?])

/-- **A step is a part of the run of the main program**: its own step is
its next exchange, and everybody else's spares the dispatch. -/
theorem Stepped.reaches (h : Stepped B m t m' t') (ht : TasksIn (Program.Avoids i) m t)
    (hP : Hub.Outside P) (hstep : ∀ x ∈ t.call?.bind m.hub.exchange?, P x)
    (hi : i < m.hub.dispatches.length) {p' : HubProgram β σ α} (hp' : t'.rest? = some p')
    {r : Except Payload α} {h' : Hub β σ} (hr : Hub.Reaches P i m'.hub p' r h') :
    ∃ p, t.rest? = some p ∧ Hub.Reaches P i m.hub p r h' := by
  cases h with
  | main ha =>
    cases hp'
    exact ⟨_, rfl, ha.reaches hP hstep hi hr⟩
  | mainWaits ha hk =>
    cases hp'
    cases ha with
    | waits => exact ⟨_, rfl, Hub.reaches_of_spares (hk.hub.spares i) hr⟩
  | mainStuck ha hk => exact absurd hp' (by simp [Turn.rest?])
  | mainEnds ha =>
    cases hp'
    cases ha with
    | done a => exact ⟨_, rfl, hr⟩
    | panic p => exact ⟨_, rfl, hr⟩
  | task ha =>
    exact ⟨p', hp', Hub.reaches_of_spares (ha.spares (ht.running _ _ _ rfl)) hr⟩
  | taskWaits ha =>
    exact ⟨p', hp', Hub.reaches_of_spares (ha.spares (ht.running _ _ _ rfl)) hr⟩
  | taskEnds ha hk =>
    exact ⟨p', hp', Hub.reaches_of_spares
      ((ha.spares (ht.running _ _ _ rfl)).trans (hk.hub.spares i)) hr⟩
  | next hk hhands =>
    cases hhands with
    -- the main program goes on after its wait, which was an exchange
    | main a =>
      cases hp'
      exact ⟨_, rfl, Hub.reaches_of_spares (hk.hub.spares i)
        (Hub.reaches_call (hP.1 _ _) (.inr ⟨rfl, rfl⟩) hr)⟩
    | task hmem hgoes => exact ⟨p', hp', Hub.reaches_of_spares (hk.hub.spares i) hr⟩
    | nobody => exact ⟨p', hp', Hub.reaches_of_spares (hk.hub.spares i) hr⟩
    | stuck => exact absurd hp' (by simp [Turn.rest?])
  | ended => exact ⟨p', hp', hr⟩
  | stuck => exact ⟨p', hp', hr⟩

/-! ## Runs of the scheduler -/

/-- **A run of the scheduler is a run of its main program**, in a hub that
spares the dispatch which all tasks avoid. What the hub serves in it are
exchanges of the run. -/
theorem reaches_of_steps {fuel : Nat} {r : Except Payload α} (ht : TasksIn (Program.Avoids i) m t)
    (hP : Hub.Outside P) (hmade : ∀ x ∈ m.exchanges B limit fuel t, P x)
    (hi : i < m.hub.dispatches.length) (h : m.steps B limit fuel t = (m', .ended r)) :
    ∃ p, t.rest? = some p ∧ Hub.Reaches P i m.hub p r m'.hub := by
  induction fuel generalizing m t with
  | zero =>
    cases h
    exact ⟨_, rfl, Hub.reaches_ofExcept r _⟩
  | succ fuel ih =>
    rw [steps_succ] at h
    have hstep := m.stepped B limit t
    obtain ⟨p', hp', hr⟩ := ih (hstep.tasksAvoid ht (.inl hi))
      (fun x hx => hmade x (List.mem_append_right _ hx)) (Nat.lt_of_lt_of_le hi hstep.length_le) h
    exact hstep.reaches ht hP
      (fun x hx => hmade x (List.mem_append_left _ (Option.mem_toList.mpr hx))) hi hp' hr

/-- **No task writes to a dispatch that is yet to begin.** -/
def Sound (m : Scheduler β σ) : Prop :=
  ∀ i, m.hub.dispatches.length ≤ i → ∀ k ∈ m.tasks, ∀ p, k.GoesOn p → p.Avoids i

theorem sound_fresh (hub : Hub β σ) : (fresh hub).Sound :=
  fun _ _ _ hk => absurd hk List.not_mem_nil

/-- Steps leave the scheduler sound. -/
theorem sound_steps {fuel : Nat}
    (ht : ∀ i, m.hub.dispatches.length ≤ i → TasksIn (Program.Avoids i) m t) :
    (m.steps B limit fuel t).1.Sound := by
  induction fuel generalizing m t with
  | zero => exact fun i hi => (ht i hi).waiting
  | succ fuel ih =>
    rw [steps_succ]
    have hstep := m.stepped B limit t
    exact ih fun i hi => hstep.tasksAvoid (ht i (Nat.le_trans hstep.length_le hi)) (.inr hi)

/-- **A scheduler stays sound**, whatever program it runs. -/
theorem sound_run (hm : m.Sound) (patience : Option Nat) (p : HubProgram β σ α) :
    (m.run B patience p).2.Sound := by
  rw [snd_run]
  exact sound_steps fun i hi => ⟨hm i hi, fun h p main he => absurd he (by simp)⟩

theorem Kept.sound {S : Id → Prop} (hk : Kept S m m') (hm : m.Sound) : m'.Sound :=
  fun i hi k hmem => hm i (hk.hub.dispatches ▸ hi) k (hk.tasks k hmem)

theorem Advanced.sound {p : HubProgram β σ α} {q : Progress β σ α} (h : Advanced B m p m' q)
    (hm : m.Sound) : m'.Sound :=
  fun i hi => h.tasks_in (fun job => avoids_runJob B _ job i) (hm i (Nat.le_trans h.length_le hi))

/-- A program that runs alone leaves the tasks as they are, but for new ones. -/
theorem sound_runAlone (hm : m.Sound) (fuel : Nat) (p : HubProgram β σ α) :
    (m.runAlone B fuel p).2.Sound :=
  of_runAlone (P := Sound) (fun p h => (advanced B _ p).sound h)
    (fun _ h => (kept_drop _ _).sound h) fuel p hm

/-- No task of a scheduler that can be reached writes to a dispatch that is
yet to begin. -/
theorem Reached.sound {hub : Hub β σ} (h : Reached hub m) : m.Sound := by
  induction h with
  | fresh => exact sound_fresh hub
  | run B patience p _ ih => exact sound_run ih patience p
  | runAlone B fuel p _ ih => exact sound_runAlone ih fuel p
  | elapse ms _ ih => exact (kept_of_eq (S := NoSession) rfl rfl).sound ih
  | poll w _ ih => exact (kept_poll _ w).sound ih

/-- **A dispatch that a scheduler runs** is a run of the dispatch in a hub
that spares it: from its beginning on, nobody else writes to it. What the
hub serves in it are exchanges of the scheduler's run. -/
theorem made_of_dispatch {hub : Hub β σ} {patience : Option Nat} {e : Event}
    {r : Except Payload (Except DispatchError DispatchResult)} (hm : Reached hub m)
    (hP : Hub.Outside P)
    (hmade : ∀ x ∈ m.exchanges B (patience.map (m.clock + ·)) stepLimit
      (.main (Switchboard.dispatch B m.hub.settings e)), P x)
    (h : m.dispatch B patience e = (some r, m')) :
    ∃ t, (Switchboard.dispatch B m.hub.settings e).Runs (⟨.start e, (m.hub.start e).1⟩ :: t) r ∧
      Hub.Through (m.hub.start e).1.context.index (m.hub.start e).2 t m'.hub ∧ ∀ x ∈ t, P x := by
  obtain ⟨fuel, hfuel⟩ : ∃ fuel, stepLimit = fuel + 1 := ⟨99999999, rfl⟩
  unfold dispatch run at h
  split at h
  · next hsteps =>
    cases h
    rw [hfuel] at hsteps hmade
    -- the first step begins the dispatch, which no task has begun
    have hbegun : (m.hub.start e).1.context.index < (m.hub.start e).2.dispatches.length :=
      m.hub.length_lt_start e
    obtain ⟨p, hp, t, hrun, ht, hall⟩ :=
      reaches_of_steps (m := { m with hub := (m.hub.start e).2 })
        ⟨hm.sound (m.hub.start e).1.context.index (Nat.le_refl _),
          fun h p main he => absurd (show Turn.main _ = Turn.task h p main from he) (by simp)⟩ hP
        (fun x hx => hmade x (List.mem_append_right _ hx)) hbegun hsteps
    cases hp
    exact ⟨t, .call hrun, ht, hall⟩
  · exact absurd h (by simp)

/-- A dispatch that a scheduler runs is a run in a hub that spares it. -/
theorem through_of_dispatch {hub : Hub β σ} {patience : Option Nat} {e : Event}
    {r : Except Payload (Except DispatchError DispatchResult)} (hm : Reached hub m)
    (h : m.dispatch B patience e = (some r, m')) :
    ∃ t, (Switchboard.dispatch B m.hub.settings e).Runs (⟨.start e, (m.hub.start e).1⟩ :: t) r ∧
      Hub.Through (m.hub.start e).1.context.index (m.hub.start e).2 t m'.hub := by
  obtain ⟨t, hrun, ht, -⟩ := made_of_dispatch (P := fun _ => True) hm
    ⟨fun _ _ => trivial, fun _ _ => trivial⟩ (fun _ _ => trivial) h
  exact ⟨t, hrun, ht⟩

end Scheduler

end Switchboard
