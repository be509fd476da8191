import Switchboard.Proofs.Hub.Turns

/-!
# What a step does to tasks and handles

Most of what the scheduler does leaves tasks and the cells behind handles
alone, or adds some (`Grows`). What a step can do besides is to set the task
aside whose turn it is, or to end it, and then its cell is filled (`Dealt`).

A property of tasks and cells that all of this preserves is preserved by
whatever runs, in whatever turns and for how long (`Lasting`). So it holds
of everything that a scheduler can become later, if it holds now
(`Lasting.later`).
-/

namespace Switchboard

variable {β σ α : Type}

namespace Handles

/-- The results in all cells. -/
def results (t : Handles) : List (Option EventResult) := t.cells.map (·.result)

theorem result?_eq (t : Handles) (h : Handle) : t.result? h = (t.results[h.index]?).join := by
  unfold result? results
  rw [List.getElem?_map]
  cases t.cells[h.index]? <;> rfl

theorem results_add (t : Handles) (r : Option EventResult) :
    (t.add r).2.results = t.results ++ [r] :=
  List.map_append

/-- Looking at a cell leaves what it holds. -/
theorem results_observe (t : Handles) (h : Handle) : (t.observe h).results = t.results := by
  unfold results observe
  apply List.ext_getElem?
  intro i
  rw [List.getElem?_map, List.getElem?_map, List.getElem?_modify]
  cases t.cells[i]? with
  | none => split <;> rfl
  | some c => split <;> rfl

end Handles

namespace Scheduler

/-- What is behind the handles. -/
def results (m : Scheduler β σ) : List (Option EventResult) := m.hub.handles.results

/-! ## Cells and tasks are added -/

/-- **Cells and tasks are added.** Those that are there are left alone, and
the handles of new tasks are new. -/
structure Grows (m m' : Scheduler β σ) : Prop where
  settings : m'.hub.settings = m.hub.settings
  results : m.results <+: m'.results
  kept : ∀ k ∈ m.tasks, k ∈ m'.tasks
  added : ∀ k ∈ m'.tasks, k ∈ m.tasks ∨
    m.results.length ≤ k.handle.index ∧ k.handle.index < m'.results.length

variable {m m' m'' : Scheduler β σ}

theorem grows_of_eq (hs : m'.hub.settings = m.hub.settings) (hr : m'.results = m.results)
    (ht : m'.tasks = m.tasks) : Grows m m' where
  settings := hs
  results := hr ▸ List.prefix_refl _
  kept := fun _ hk => ht ▸ hk
  added := fun _ hk => .inl (ht ▸ hk)

theorem Grows.refl (m : Scheduler β σ) : Grows m m := grows_of_eq rfl rfl rfl

theorem Grows.trans (h₁ : Grows m m') (h₂ : Grows m' m'') : Grows m m'' where
  settings := h₂.settings.trans h₁.settings
  results := h₁.results.trans h₂.results
  kept := fun k hk => h₂.kept k (h₁.kept k hk)
  added := fun k hk => by
    have hlen := h₁.results.length_le
    have hlen' := h₂.results.length_le
    rcases h₂.added k hk with hk | hk
    · rcases h₁.added k hk with hk | hk
      · exact .inl hk
      · exact .inr ⟨hk.1, Nat.lt_of_lt_of_le hk.2 hlen'⟩
    · exact .inr ⟨Nat.le_trans hlen hk.1, hk.2⟩

theorem Wakes.grows (h : Wakes m m') : Grows m m' :=
  grows_of_eq (by rw [h.hub]) (by rw [Scheduler.results, h.hub]; rfl) h.tasks

/-- A result that is there stays, and so does a cell that is empty. -/
theorem Grows.result?_eq (hg : Grows m m') {h : Handle} (hlt : h.index < m.results.length) :
    m'.hub.handles.result? h = m.hub.handles.result? h := by
  obtain ⟨later, hlater⟩ := hg.results
  rw [Handles.result?_eq, Handles.result?_eq]
  show (m'.results[h.index]?).join = _
  rw [← hlater, List.getElem?_append_left hlt]
  rfl

/-! ## What the scheduler does between turns -/

theorem grows_reply? {deadline : Option Nat} {w : Wait} {r : w.Reply}
    (h : m.reply? deadline w = some (r, m')) : Grows m m' := by
  cases replies_of_reply? h with
  | result _ => exact grows_of_eq rfl (Handles.results_observe _ _) rfl
  | timedOut _ _ => exact grows_of_eq rfl rfl rfl
  | _ => exact .refl _

theorem grows_resume (m : Scheduler β σ) (s : Suspended β σ α) : Grows m (m.resume s).1 := by
  unfold resume
  split
  · exact .refl m
  · split
    · next h => exact grows_reply? h
    · exact .refl m

theorem grows_drop (m : Scheduler β σ) (w : Wait) : Grows m (m.drop w) := by
  unfold drop
  split
  · exact grows_of_eq rfl rfl rfl
  · exact .refl m

theorem grows_setMainAside (m : Scheduler β σ) (limit : Option Nat) (s : Suspended β σ α) :
    Grows m (m.setMainAside limit s).1 := by
  have hown : Grows m { m with mainWait := none } := grows_of_eq rfl rfl rfl
  unfold setMainAside
  split
  · exact hown.trans (grows_drop _ s.wait)
  · exact grows_of_eq rfl rfl rfl

/-- A program adds cells and tasks in a step, if any. -/
theorem grows_advance (B : Behaviours β σ) (m : Scheduler β σ) (p : HubProgram β σ α) :
    Grows m (m.advance B p).1 := by
  have hsettled : ∀ m₁ : Scheduler β σ, Grows m m₁ → Grows m m₁.wakeSettled := fun m₁ h =>
    h.trans ((grows_of_eq rfl rfl rfl : Grows m₁ { m₁ with
      hub := { m₁.hub with sessions := { m₁.hub.sessions with settled := [] } } }).trans
        m₁.wakes_wakeSettled.grows)
  cases p with
  | done a => exact .refl m
  | panic q => exact .refl m
  | call c next =>
    cases c with
    | user c =>
      cases c with
      | request r =>
        refine hsettled { m with hub := (m.hub.answer r).2 } ?_
        cases r with
        | setAttributes s a => cases s <;> exact grows_of_eq rfl rfl rfl
        | readyHandle r =>
          exact ⟨rfl, ⟨[some r], (Handles.results_add _ _).symm⟩, fun _ hk => hk,
            fun _ hk => .inl hk⟩
        | _ => exact grows_of_eq rfl rfl rfl
      | wait w =>
        simp only [advance]
        split
        · next h => exact grows_reply? h
        · exact .refl m
      | dispatch e => exact .refl m
    | keepSessions ws =>
      exact hsettled { m with hub := m.hub.keepSessions ws } (grows_of_eq rfl rfl rfl)
    | loseSessions ws =>
      exact hsettled { m with hub := m.hub.loseSessions ws } (grows_of_eq rfl rfl rfl)
    | deliver s e => exact hsettled { m with hub := m.hub.deliver s e } (grows_of_eq rfl rfl rfl)
    | spawn job =>
      have hresults : (m.advance B (.call (.spawn job) next)).1.results = m.results ++ [none] :=
        Handles.results_add _ _
      refine ⟨rfl, ⟨[none], hresults.symm⟩, fun _ hk => List.mem_append_left _ hk, fun k hk => ?_⟩
      rcases List.mem_append.mp hk with hk | hk
      · exact .inl hk
      · have hlen : m.results.length = m.hub.handles.cells.length := List.length_map _
        rw [List.mem_singleton.mp hk, hresults, List.length_append, hlen]
        exact .inr ⟨Nat.le_refl _, Nat.lt_succ_self _⟩
    | _ => exact grows_of_eq rfl rfl rfl

/-! ## What a step does to tasks -/

/-- The task whose turn it is, with what it has yet to do. -/
def Turn.task? : Turn β σ α → Option (Handle × HubProgram β σ EventResult)
  | task h p _ => some (h, p)
  | _ => none

/-- Finding the next turn: if it is a task's, it is one that is there, and
it goes on from where it was. -/
def Picks (m : Scheduler β σ) (found : Scheduler β σ × Turn β σ α) : Prop :=
  Grows m found.1 ∧
    ∀ h p, found.2.task? = some (h, p) → ∃ k ∈ m.tasks, k.handle = h ∧ k.GoesOn p

theorem picks_of_task?_eq_none {found : Scheduler β σ × Turn β σ α} (hg : Grows m found.1)
    (ht : found.2.task? = none) : Picks m found :=
  ⟨hg, fun h p he => absurd (ht.symm.trans he) (by simp)⟩

theorem Picks.of_wakes {found : Scheduler β σ × Turn β σ α} (hw : Wakes m m')
    (h : Picks m' found) : Picks m found :=
  ⟨hw.grows.trans h.1, hw.tasks ▸ h.2⟩

theorem task?_setMainAside (m : Scheduler β σ) (limit : Option Nat) (s : Suspended β σ α) :
    (m.setMainAside limit s).2.task? = none := by
  rcases (m.setMainAside_eq limit s).2 with ht | ht
  · rw [ht]
    rfl
  · rw [ht]
    rfl

theorem picks_mainTurn (m : Scheduler β σ) (limit : Option Nat) (main : Suspended β σ α) :
    Picks m (m.mainTurn limit main) := by
  have hg := m.grows_resume main
  unfold mainTurn
  split
  · next h =>
    rw [h] at hg
    exact picks_of_task?_eq_none (hg.trans (grows_of_eq rfl rfl rfl)) rfl
  · next h =>
    rw [h] at hg
    exact picks_of_task?_eq_none (hg.trans (grows_setMainAside _ limit main))
      (task?_setMainAside _ limit main)

theorem handle_of_find? {ks : List (Task β σ)} {h : Handle} {k : Task β σ}
    (hfind : ks.find? (·.handle == h) = some k) : k.handle = h := by
  simpa using List.find?_some hfind

theorem picks_takeTurn (m : Scheduler β σ) (h : Handle) (rest : List Handle)
    (main : Suspended β σ α) : Picks m (m.takeTurn h rest main) := by
  have hready : Grows m { m with ready := rest } := grows_of_eq rfl rfl rfl
  unfold takeTurn
  simp only
  split
  · exact picks_of_task?_eq_none hready rfl
  · next hfind =>
    refine ⟨hready, fun a q he => ?_⟩
    obtain ⟨rfl, rfl⟩ := Prod.mk.inj (Option.some.inj he)
    exact ⟨_, List.mem_of_find?_eq_some hfind, handle_of_find? hfind, .begins rfl⟩
  · next s hfind =>
    have hg := hready.trans (grows_resume { m with ready := rest } s)
    obtain ⟨-, hr⟩ := resumed { m with ready := rest } s
    split
    · next hres =>
      rw [hres] at hg hr
      refine ⟨hg, fun a q he => ?_⟩
      obtain ⟨rfl, rfl⟩ := Prod.mk.inj (Option.some.inj he)
      cases hr with
      | running r =>
        exact ⟨_, List.mem_of_find?_eq_some hfind, handle_of_find? hfind, .resumes r rfl⟩
    · next hres =>
      rw [hres] at hg
      exact picks_of_task?_eq_none hg rfl

/-- **The next turn is found**, and tasks are left alone. -/
theorem picks_nextTurn (m : Scheduler β σ) (limit : Option Nat) (main : Suspended β σ α) :
    Picks m (m.nextTurn limit main) := by
  have hnobody : ∀ {m' : Scheduler β σ}, Wakes m m' → Picks m (m', Turn.nobody main) :=
    fun hw => picks_of_task?_eq_none hw.grows rfl
  unfold nextTurn
  split
  · exact m.picks_takeTurn _ _ main
  · extract_lets yielded
    split
    · split
      · exact (picks_mainTurn _ limit main).of_wakes (m.wakes_endRound main)
      · exact hnobody (m.wakes_endRound main)
    · split
      · exact m.picks_mainTurn limit main
      · split
        · have hown : Grows m { m with mainWait := none } := grows_of_eq rfl rfl rfl
          exact picks_of_task?_eq_none (hown.trans (grows_drop _ main.wait)) rfl
        · next t _ =>
          have hclock : Wakes m { m with clock := max m.clock t } := ⟨rfl, rfl⟩
          have hw := hclock.trans (wakes_endRound _ main)
          simp only
          split
          · exact (picks_mainTurn _ limit main).of_wakes hw
          · exact hnobody hw

/-- **What a step does to tasks.** The one whose turn it is can be set aside
or end. Otherwise tasks and cells are only added, and the turn can go to a
task that is there. -/
inductive Dealt (B : Behaviours β σ) (m : Scheduler β σ) :
    Option (Handle × HubProgram β σ EventResult) → Scheduler β σ →
      Option (Handle × HubProgram β σ EventResult) → Prop
  | picks {k : Task β σ} {p : HubProgram β σ EventResult} {m' : Scheduler β σ} : Grows m m' →
      k ∈ m.tasks → k.GoesOn p → Dealt B m none m' (some (k.handle, p))
  | goes {h : Handle} {p q : HubProgram β σ EventResult} {m' : Scheduler β σ} : Grows m m' →
      Advanced B m p m' (.running q) → Dealt B m (some (h, p)) m' (some (h, q))
  | setsAside {h : Handle} {p : HubProgram β σ EventResult} {s : Suspended β σ EventResult} :
      Advanced B m p m (.waiting s) → Dealt B m (some (h, p)) (m.setAside h s) none
  | ends {h : Handle} {p : HubProgram β σ EventResult} {r : Except Payload EventResult}
      {m' : Scheduler β σ} : Advanced B m p m (.ended r) →
      Wakes (m.withResult h (asFailure r)) m' → Dealt B m (some (h, p)) m' none
  | rests {m' : Scheduler β σ} : Grows m m' → Dealt B m none m' none

/-- A program that is found to wait, or to have ended, has done nothing. -/
theorem Advanced.eq_of_not_running {B : Behaviours β σ} {p : HubProgram β σ α}
    {q : Progress β σ α} (h : Advanced B m p m' q) (hq : ∀ p', q ≠ .running p') : m' = m := by
  cases h with
  | served _ => exact absurd rfl (hq _)
  | waited _ => exact absurd rfl (hq _)
  | inner => exact absurd rfl (hq _)
  | _ => rfl

/-- **A step is dealt with.** -/
theorem dealt (B : Behaviours β σ) (limit : Option Nat) (m : Scheduler β σ) (t : Turn β σ α) :
    Dealt B m t.task? (m.step B limit t).1 (m.step B limit t).2.task? := by
  cases t with
  | main p =>
    have hg := grows_advance B m p
    simp only [step]
    split
    · next hp =>
      rw [hp] at hg
      exact .rests hg
    · next m₁ s hp =>
      rw [hp] at hg
      rw [task?_setMainAside]
      exact .rests (hg.trans (m₁.grows_setMainAside limit s))
    · next hp =>
      rw [hp] at hg
      exact .rests hg
  | task a p main =>
    have h := m.advanced B p
    have hg := grows_advance B m p
    simp only [step]
    split
    · next hp =>
      rw [hp] at h hg
      exact .goes hg h
    · next hp =>
      rw [hp] at h
      obtain rfl := h.eq_of_not_running fun _ => by simp
      exact .setsAside h
    · next hp =>
      rw [hp] at h
      obtain rfl := h.eq_of_not_running fun _ => by simp
      exact .ends h (wakes_complete _ a _)
  | nobody main =>
    obtain ⟨hg, hpick⟩ := m.picks_nextTurn limit main
    show Dealt B m none (m.nextTurn limit main).1 (m.nextTurn limit main).2.task?
    cases ht : (m.nextTurn limit main).2.task? with
    | none => exact .rests hg
    | some x =>
      obtain ⟨a, q⟩ := x
      obtain ⟨k, hk, rfl, hgoes⟩ := hpick a q ht
      exact .picks hg hk hgoes
  | ended r => exact .rests (.refl m)
  | stuck => exact .rests (.refl m)

/-! ## What lasts -/

/-- **A property that lasts**, of the tasks and handles of a scheduler and
the task whose turn it is: it is preserved by steps, and when a turn ends,
and when cells and tasks are added. -/
structure Lasting
    (J : Scheduler β σ → Option (Handle × HubProgram β σ EventResult) → Prop) : Prop where
  step : ∀ {B m x m' x'}, Dealt B m x m' x' → J m x → J m' x'
  rest : ∀ {m x}, J m x → J m none
  grows : ∀ {m m'}, Grows m m' → J m none → J m' none

section Lasting

variable {J : Scheduler β σ → Option (Handle × HubProgram β σ EventResult) → Prop}
  (hJ : Lasting J) (B : Behaviours β σ)

include hJ

theorem Lasting.steps (limit : Option Nat) (n : Nat) {t : Turn β σ α} (h : J m t.task?) :
    J (m.steps B limit n t).1 (m.steps B limit n t).2.task? := by
  induction n generalizing m t with
  | zero => exact h
  | succ n ih =>
    rw [steps_succ]
    exact ih (hJ.step (dealt B limit m t) h)

theorem Lasting.run (patience : Option Nat) (p : HubProgram β σ α) (h : J m none) :
    J (m.run B patience p).2 none := by
  rw [snd_run]
  exact hJ.rest (hJ.steps B _ stepLimit (t := .main p) h)

theorem Lasting.runAlone (fuel : Nat) (p : HubProgram β σ α) (h : J m none) :
    J (m.runAlone B fuel p).2 none :=
  of_runAlone (P := fun m => J m none) (fun p h => hJ.grows (grows_advance B _ p) h)
    (fun w h => hJ.grows (grows_drop _ w) h) fuel p h

end Lasting

/-- **What a scheduler can become later**: it runs programs, in turns with
tasks or on threads of their own, lets time pass and is looked at, in
whatever order. -/
inductive Later (m : Scheduler β σ) : Scheduler β σ → Prop
  | now : Later m m
  | run {α : Type} {m' : Scheduler β σ} (B : Behaviours β σ) (patience : Option Nat)
      (p : HubProgram β σ α) : Later m m' → Later m (m'.run B patience p).2
  | runAlone {α : Type} {m' : Scheduler β σ} (B : Behaviours β σ) (fuel : Nat)
      (p : HubProgram β σ α) : Later m m' → Later m (m'.runAlone B fuel p).2
  | elapse {m' : Scheduler β σ} (milliseconds : Nat) :
      Later m m' → Later m (m'.elapse milliseconds)
  | poll {m' : Scheduler β σ} (w : Wait) : Later m m' → Later m (m'.poll w).2

/-- A scheduler that can be reached is one that a fresh one becomes. -/
theorem Reached.later {hub : Hub β σ} (h : Reached hub m) : Later (.fresh hub) m := by
  induction h with
  | fresh => exact .now
  | run B patience p _ ih => exact .run B patience p ih
  | runAlone B fuel p _ ih => exact .runAlone B fuel p ih
  | elapse ms _ ih => exact .elapse ms ih
  | poll w _ ih => exact .poll w ih

theorem grows_poll (m : Scheduler β σ) (w : Wait) : Grows m (m.poll w).2 := by
  unfold poll
  split
  · next h => exact grows_reply? h
  · exact .refl m

theorem grows_elapse (m : Scheduler β σ) (milliseconds : Nat) :
    Grows m (m.elapse milliseconds) :=
  grows_of_eq rfl rfl rfl

/-- What lasts holds later. -/
theorem Lasting.later {J : Scheduler β σ → Option (Handle × HubProgram β σ EventResult) → Prop}
    (hJ : Lasting J) (h : J m none) (hl : Later m m') : J m' none := by
  induction hl with
  | now => exact h
  | run B patience p _ ih => exact hJ.run B patience p ih
  | runAlone B fuel p _ ih => exact hJ.runAlone B fuel p ih
  | elapse ms _ ih => exact hJ.grows (grows_elapse _ ms) ih
  | poll w _ ih => exact hJ.grows (grows_poll _ w) ih

end Scheduler

end Switchboard
