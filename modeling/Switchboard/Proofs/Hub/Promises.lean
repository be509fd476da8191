import Switchboard.Proofs.Hub.Growth
import Switchboard.Proofs.Program.Ends

/-!
# What becomes of a handler that is started

A handler that is started is a task with a handle of its own, and the cell
behind the handle is empty as long as the task is there. A task is set aside
while it waits, and goes on from where it was, and when it ends, the cell is
filled with the result. Nothing else fills it, and it is never filled again.

So what is known of all ends of the program of a task is known of the result
behind its handle, whenever that is there (`Promised`). A call that starts a
handler makes such a promise (`Spawned.promised`), and whatever runs from
then on keeps it (`Later.promised`).
-/

namespace Switchboard

variable {β σ α : Type}

namespace Handles

theorem length_results_complete (t : Handles) (h : Handle) (r : EventResult) :
    (t.complete h r).results.length = t.results.length := by
  unfold results complete
  rw [List.length_map, List.length_modify, List.length_map]

/-- Filling a cell does nothing to another one. -/
theorem result?_complete_of_ne (t : Handles) {h h' : Handle} (hne : h ≠ h') (r : EventResult) :
    (t.complete h r).result? h' = t.result? h' := by
  have hindex : h.index ≠ h'.index := fun hi => hne (congrArg Handle.mk hi)
  unfold result? complete
  simp only [List.getElem?_modify, if_neg hindex]
  cases t.cells[h'.index]? <;> rfl

/-- A cell holds what it is filled with, unless it was filled before. -/
theorem result?_complete_self {t : Handles} {h : Handle} (hlt : h.index < t.results.length)
    (r : EventResult) : (t.complete h r).result? h = (t.result? h).or (some r) := by
  unfold results at hlt
  rw [List.length_map] at hlt
  unfold result? complete
  simp only [List.getElem?_modify_eq, List.getElem?_eq_getElem hlt]
  rfl

end Handles

/-- **What a handler that is started can give**: what its task ends in. -/
def Job.CanGive (B : Behaviours β σ) (s : DispatchSettings) (job : Job β) (w : EventResult) :
    Prop :=
  ∃ t e, (runJob B s job).Runs t e ∧ w = asFailure e

/-- What is known of a program after a step of which it is known how it ends. -/
def Progress.Ends (P : Except Payload α → Prop) : Progress β σ α → Prop
  | running p => p.Ends P
  | waiting s => ∀ r, (s.next r).Ends P
  | ended e => P e

namespace Scheduler

variable {m m' : Scheduler β σ}

/-! ## Tasks have handles -/

/-- **The handles of tasks have been given out.** -/
structure Tidy (m : Scheduler β σ) (x : Option (Handle × HubProgram β σ EventResult)) : Prop where
  tasks : ∀ k ∈ m.tasks, k.handle.index < m.results.length
  running : ∀ h p, x = some (h, p) → h.index < m.results.length

theorem Tidy.grow {x : Option (Handle × HubProgram β σ EventResult)} (h : Tidy m x)
    (hg : Grows m m') : Tidy m' x where
  tasks := fun k hk => by
    rcases hg.added k hk with hk | hk
    · exact Nat.lt_of_lt_of_le (h.tasks k hk) hg.results.length_le
    · exact hk.2
  running := fun a p hx => Nat.lt_of_lt_of_le (h.running a p hx) hg.results.length_le

theorem lasting_tidy : Lasting (Tidy (β := β) (σ := σ)) where
  step := by
    intro B m x m' x' hd h
    cases hd with
    | picks hg hk hgoes =>
      refine ⟨(h.grow hg).tasks, fun a p he => ?_⟩
      obtain ⟨rfl, -⟩ := Prod.mk.inj (Option.some.inj he)
      exact Nat.lt_of_lt_of_le (h.tasks _ hk) hg.results.length_le
    | @goes a p q _ hg ha =>
      refine ⟨(h.grow hg).tasks, fun b q he => ?_⟩
      obtain ⟨rfl, -⟩ := Prod.mk.inj (Option.some.inj he)
      exact (h.grow hg).running a p rfl
    | @setsAside a p s ha =>
      refine ⟨fun k hk => ?_, fun _ _ he => absurd he (by simp)⟩
      rcases List.mem_append.mp hk with hk | hk
      · exact h.tasks k (List.mem_filter.mp hk).1
      · rw [List.mem_singleton.mp hk]
        exact h.running a p rfl
    | @ends a p r _ ha hw =>
      have hlen : m'.results.length = m.results.length := by
        unfold Scheduler.results
        rw [hw.hub]
        exact Handles.length_results_complete _ a _
      refine ⟨fun k hk => ?_, fun _ _ he => absurd he (by simp)⟩
      rw [hw.tasks] at hk
      rw [hlen]
      exact h.tasks k (List.mem_filter.mp hk).1
    | rests hg => exact h.grow hg
  rest := fun h => ⟨h.tasks, fun _ _ he => absurd he (by simp)⟩
  grows := fun hg h => h.grow hg

theorem tidy_fresh (hub : Hub β σ) : Tidy (fresh hub) none :=
  ⟨fun _ hk => absurd hk List.not_mem_nil, fun _ _ he => absurd he (by simp)⟩

theorem Reached.tidy {hub : Hub β σ} (h : Reached hub m) : Tidy m none :=
  lasting_tidy.later (tidy_fresh hub) h.later

/-! ## Promises -/

/-- A program that takes a step ends as it would have ended. -/
theorem Advanced.ends {B : Behaviours β σ} {P : Except Payload α → Prop} {p : HubProgram β σ α}
    {q : Progress β σ α} (h : Advanced B m p m' q) (hp : p.Ends P) : q.Ends P := by
  cases h with
  | done a => exact Program.ends_done_iff.mp hp
  | panic p => exact Program.ends_panic_iff.mp hp
  | served _ => exact Program.ends_call_iff.mp hp _
  | waited _ => exact Program.ends_call_iff.mp hp _
  | waits => exact Program.ends_call_iff.mp hp
  | inner =>
    exact Program.Ends.recover_bind (P := fun _ => True) (fun _ _ _ => trivial)
      fun r _ => Program.ends_call_iff.mp hp r

/-- **The result behind a handle is promised to be of a sort.** If it is
there, it is; and if it is not, there is a task that will give it. -/
structure Promised (Q : EventResult → Prop) (h : Handle) (m : Scheduler β σ)
    (x : Option (Handle × HubProgram β σ EventResult)) : Prop where
  issued : h.index < m.results.length
  kept : ∀ w, m.hub.handles.result? h = some w → Q w
  owed : m.hub.handles.result? h = none → ∃ k ∈ m.tasks, k.handle = h
  tasks : ∀ k ∈ m.tasks, k.handle = h → ∀ p, k.GoesOn p → p.Ends fun e => Q (asFailure e)
  running : ∀ p, x = some (h, p) → p.Ends fun e => Q (asFailure e)

section Promised

variable {Q : EventResult → Prop} {h : Handle} {x : Option (Handle × HubProgram β σ EventResult)}

theorem Promised.grow (hp : Promised Q h m x) (hg : Grows m m') : Promised Q h m' x where
  issued := Nat.lt_of_lt_of_le hp.issued hg.results.length_le
  kept := by
    rw [hg.result?_eq hp.issued]
    exact hp.kept
  owed := by
    rw [hg.result?_eq hp.issued]
    intro hnone
    obtain ⟨k, hk, hh⟩ := hp.owed hnone
    exact ⟨k, hg.kept k hk, hh⟩
  tasks := fun k hk hh => by
    rcases hg.added k hk with hk | hk
    · exact hp.tasks k hk hh
    -- a new task has a new handle
    · exact absurd (hh ▸ hk.1) (Nat.not_le_of_lt hp.issued)
  running := hp.running

/-- A task that is set aside will go on from where it was. -/
theorem Promised.setAside (hp : Promised Q h m x) {a : Handle}
    {s : Suspended β σ EventResult}
    (hs : a = h → ∀ r, (s.next r).Ends fun e => Q (asFailure e)) :
    Promised Q h (m.setAside a s) none where
  issued := hp.issued
  kept := hp.kept
  owed := fun hnone => by
    obtain ⟨k, hk, hh⟩ := hp.owed hnone
    by_cases ha : a = h
    · exact ⟨⟨a, .suspended s⟩, List.mem_append_right _ (List.mem_singleton.mpr rfl), ha⟩
    · have hne : k.handle ≠ a := fun he => ha (he.symm.trans hh)
      exact ⟨k, List.mem_append_left _ (List.mem_filter.mpr ⟨hk, bne_iff_ne.mpr hne⟩), hh⟩
  tasks := fun k hk hh p hgoes => by
    rcases List.mem_append.mp hk with hk | hk
    · exact hp.tasks k (List.mem_filter.mp hk).1 hh p hgoes
    · rw [List.mem_singleton.mp hk] at hh hgoes
      cases hgoes with
      | begins hfresh => exact absurd hfresh (by simp)
      | resumes r hsuspended =>
        obtain rfl := TaskState.suspended.inj hsuspended
        exact hs hh r
  running := fun p he => absurd he (by simp)

/-- A task that ends gives its result. -/
theorem Promised.withResult (hp : Promised Q h m x) {a : Handle} {r : EventResult}
    (hr : a = h → Q r) : Promised Q h (m.withResult a r) none := by
  have hresult : (m.withResult a r).hub.handles.result? h
      = if a = h then (m.hub.handles.result? h).or (some r) else m.hub.handles.result? h := by
    split
    · next he =>
      subst he
      exact Handles.result?_complete_self hp.issued r
    · next hne => exact Handles.result?_complete_of_ne _ hne r
  refine ⟨?_, fun w hw => ?_, fun hnone => ?_, fun k hk => ?_, fun p he => absurd he (by simp)⟩
  · exact Nat.lt_of_lt_of_eq hp.issued (Handles.length_results_complete _ a r).symm
  · rw [hresult] at hw
    by_cases ha : a = h
    · rw [if_pos ha] at hw
      rcases Option.or_eq_some_iff.mp hw with hw | ⟨-, hw⟩
      · exact hp.kept w hw
      · exact Option.some.inj hw ▸ hr ha
    · rw [if_neg ha] at hw
      exact hp.kept w hw
  · rw [hresult] at hnone
    by_cases ha : a = h
    · rw [if_pos ha] at hnone
      exact absurd hnone (by simp)
    · rw [if_neg ha] at hnone
      obtain ⟨k, hk, hh⟩ := hp.owed hnone
      have hne : k.handle ≠ a := fun he => ha (he.symm.trans hh)
      exact ⟨k, List.mem_filter.mpr ⟨hk, bne_iff_ne.mpr hne⟩, hh⟩
  · exact hp.tasks k (List.mem_filter.mp hk).1

/-- **Promises are kept.** -/
theorem lasting_promised (Q : EventResult → Prop) (h : Handle) :
    Lasting (Promised (β := β) (σ := σ) Q h) where
  step := by
    intro B m x m' x' hd hp
    cases hd with
    | picks hg hk hgoes =>
      refine { hp.grow hg with running := fun p he => ?_ }
      obtain ⟨hh, rfl⟩ := Prod.mk.inj (Option.some.inj he)
      exact hp.tasks _ hk hh _ hgoes
    | goes hg ha =>
      refine { hp.grow hg with running := fun p he => ?_ }
      obtain ⟨rfl, rfl⟩ := Prod.mk.inj (Option.some.inj he)
      exact ha.ends (hp.running _ rfl)
    | setsAside ha => exact hp.setAside fun hh => ha.ends (hp.running _ (hh ▸ rfl))
    | ends ha hw =>
      exact (hp.withResult fun hh => ha.ends (hp.running _ (hh ▸ rfl))).grow hw.grows
    | rests hg => exact hp.grow hg
  rest := fun hp => { hp with running := fun _ he => absurd he (by simp) }
  grows := fun hg hp => hp.grow hg

/-- A promise is kept later. -/
theorem Later.promised (hl : Later m m') (hp : Promised Q h m none) : Promised Q h m' none :=
  (lasting_promised Q h).later hp hl

/-- **A handler has been started**: there is a new handle with no result behind
it, and a new task. Whoever has the turn is somebody else. -/
structure Spawned (B : Behaviours β σ) (job : Job β) (h : Handle) (m m' : Scheduler β σ)
    (x : Option (Handle × HubProgram β σ EventResult)) : Prop where
  index : h.index = m.results.length
  results : m'.results = m.results ++ [none]
  tasks : m'.tasks = m.tasks ++ [⟨h, .fresh (runJob B m.hub.settings job)⟩]
  given : Tidy m x

namespace Spawned

variable {B : Behaviours β σ} {job : Job β}

theorem issued (hs : Spawned B job h m m' x) : h.index < m'.results.length := by
  rw [hs.index, hs.results, List.length_append]
  exact Nat.lt_succ_self _

/-- There is one task with the new handle. -/
theorem of_mem (hs : Spawned B job h m m' x) {k : Task β σ} (hk : k ∈ m'.tasks)
    (hh : k.handle = h) : k.state = .fresh (runJob B m.hub.settings job) := by
  rw [hs.tasks] at hk
  rcases List.mem_append.mp hk with hk | hk
  · exact absurd (hs.given.tasks k hk) (Nat.not_lt_of_le (Nat.le_of_eq (hh ▸ hs.index.symm)))
  · rw [List.mem_singleton.mp hk]

theorem not_running (hs : Spawned B job h m m' x) (p : HubProgram β σ EventResult) :
    x ≠ some (h, p) :=
  fun he => Nat.lt_irrefl _ (hs.index ▸ hs.given.running h p he)

/-- **The result of a handler that is started is promised.** -/
theorem promised (hs : Spawned B job h m m' x)
    (hjob : (runJob B m.hub.settings job).Ends fun e => Q (asFailure e)) : Promised Q h m' x := by
  have hnone : m'.hub.handles.result? h = none := by
    rw [Handles.result?_eq, show m'.hub.handles.results = _ from hs.results, hs.index,
      List.getElem?_concat_length]
    rfl
  refine ⟨hs.issued, fun w hw => ?_, fun _ => ?_, fun k hk hh p hgoes => ?_, fun p he => ?_⟩
  · exact absurd (hnone.symm.trans hw) (by simp)
  · exact ⟨_, hs.tasks ▸ List.mem_append_right _ (List.mem_singleton.mpr rfl), rfl⟩
  · have hfresh := hs.of_mem hk hh
    cases hgoes with
    | begins hstate => exact TaskState.fresh.inj (hstate.symm.trans hfresh) ▸ hjob
    | resumes r hstate => exact absurd (hstate.symm.trans hfresh) (by simp)
  · exact absurd he (hs.not_running p)

end Spawned

/-- A call starts a handler. -/
theorem spawned_of_advance {B : Behaviours β σ} {job : Job β} (ht : Tidy m x)
    (next : Handle → HubProgram β σ α) :
    Spawned B job (m.hub.handles.add none).1 m (m.advance B (.call (.spawn job) next)).1 x where
  index := (List.length_map _).symm
  results := Handles.results_add ..
  tasks := rfl
  given := ht

/-- The handle of a result that is there has been given out. -/
theorem lt_of_result? {h : Handle} {w : EventResult} (hw : m.hub.handles.result? h = some w) :
    h.index < m.results.length := by
  refine Nat.lt_of_not_le fun hle => ?_
  have hnone : m.hub.handles.results[h.index]? = none := List.getElem?_eq_none hle
  rw [Handles.result?_eq, hnone] at hw
  exact absurd hw (by simp)

/-- **A result that is there stays.** -/
theorem lasting_result (h : Handle) (w : EventResult) :
    Lasting fun (m : Scheduler β σ) _ => m.hub.handles.result? h = some w where
  step := by
    intro B m x m' x' hd hw
    cases hd with
    | picks hg _ _ => exact (hg.result?_eq (lt_of_result? hw)).trans hw
    | goes hg _ => exact (hg.result?_eq (lt_of_result? hw)).trans hw
    | setsAside _ => exact hw
    | @ends a _ r _ _ hwakes =>
      have hfilled : (m.withResult a (asFailure r)).hub.handles.result? h = some w :=
        Handles.result?_complete_of_some hw a (asFailure r)
      exact (hwakes.grows.result?_eq (lt_of_result? hfilled)).trans hfilled
    | rests hg => exact (hg.result?_eq (lt_of_result? hw)).trans hw
  rest := fun hw => hw
  grows := fun hg hw => (hg.result?_eq (lt_of_result? hw)).trans hw

theorem lasting_settings (s : DispatchSettings) :
    Lasting fun (m : Scheduler β σ) _ => m.hub.settings = s where
  step := by
    intro B m x m' x' hd h
    cases hd with
    | picks hg _ _ => exact hg.settings.trans h
    | goes hg _ => exact hg.settings.trans h
    | setsAside _ => exact h
    | ends _ hw => exact hw.grows.settings.trans h
    | rests hg => exact hg.settings.trans h
  rest := fun h => h
  grows := fun hg h => hg.settings.trans h

/-- The exchange that starts a handler gives a new handle. -/
theorem exchange?_eq_spawn {hub : Hub β σ} {c : HubCall β σ} {job : Job β} {a : Handle}
    (h : hub.exchange? c = some ⟨.spawn job, a⟩) :
    c = .spawn job ∧ a = (hub.handles.add none).1 := by
  unfold Hub.exchange? at h
  obtain ⟨⟨r, hub'⟩, hs, hx⟩ := Option.map_eq_some_iff.mp h
  cases hx
  exact ⟨rfl, (Prod.mk.inj (Option.some.inj hs)).1.symm⟩

/-- A step starts a handler. -/
theorem spawned_of_step {B : Behaviours β σ} {limit : Option Nat} {t : Turn β σ α} {job : Job β}
    (ht : Tidy m t.task?) (hx : t.call?.bind m.hub.exchange? = some ⟨.spawn job, h⟩) :
    Spawned B job h m (m.step B limit t).1 (m.step B limit t).2.task? := by
  obtain ⟨c, hc, hx⟩ := Option.bind_eq_some_iff.mp hx
  obtain ⟨rfl, rfl⟩ := exchange?_eq_spawn hx
  cases t with
  | main p =>
    cases p with
    | call c next =>
      obtain rfl : c = .spawn job := Option.some.inj hc
      exact spawned_of_advance ht next
    | _ => exact absurd hc (by simp [Turn.call?, Program.call?])
  | task a p main =>
    cases p with
    | call c next =>
      obtain rfl : c = .spawn job := Option.some.inj hc
      refine spawned_of_advance ⟨ht.tasks, fun b p he => ?_⟩ next
      obtain ⟨rfl, -⟩ := Prod.mk.inj (Option.some.inj he)
      exact ht.running a _ rfl
    | _ => exact absurd hc (by simp [Turn.call?, Program.call?])
  | _ => exact absurd hc (by simp [Turn.call?])

/-- What lasts, and holds when a handler is started, holds of the handlers that
are started in a run. -/
theorem Lasting.of_mem_exchanges {J : Scheduler β σ → Option (Handle × HubProgram β σ EventResult) →
      Prop} (hJ : Lasting J) {B : Behaviours β σ} {limit : Option Nat} {n : Nat} {t : Turn β σ α}
    {job : Job β} (ht : Tidy m t.task?)
    (hspawned : ∀ {m₁ m' x}, m₁.hub.settings = m.hub.settings → Spawned B job h m₁ m' x → J m' x)
    (hx : ⟨.spawn job, h⟩ ∈ m.exchanges B limit n t) :
    J (m.steps B limit n t).1 (m.steps B limit n t).2.task? := by
  induction n generalizing m t with
  | zero => exact absurd hx List.not_mem_nil
  | succ n ih =>
    rw [steps_succ]
    have hd := dealt B limit m t
    rcases List.mem_append.mp hx with hx | hx
    · exact hJ.steps B limit n (hspawned rfl (spawned_of_step ht (Option.mem_toList.mp hx)))
    · have hsettings : (m.step B limit t).1.hub.settings = m.hub.settings :=
        (lasting_settings _).step hd rfl
      exact ih (lasting_tidy.step hd ht) (fun hs => hspawned (hs.trans hsettings)) hx

/-- **The handlers that are started in a run** give what they promised. -/
theorem promised_of_mem_exchanges {B : Behaviours β σ} {limit : Option Nat} {n : Nat}
    {t : Turn β σ α} {job : Job β}
    (hjob : (runJob B m.hub.settings job).Ends fun e => Q (asFailure e)) (ht : Tidy m t.task?)
    (hx : ⟨.spawn job, h⟩ ∈ m.exchanges B limit n t) :
    Promised Q h (m.steps B limit n t).1 (m.steps B limit n t).2.task? :=
  (lasting_promised Q h).of_mem_exchanges ht (fun hs hspawned => hspawned.promised (hs ▸ hjob)) hx

/-- The handlers that are started while a program runs give what they
promised. -/
theorem promised_of_run {B : Behaviours β σ} {patience : Option Nat} {p : HubProgram β σ α}
    {job : Job β} (hjob : (runJob B m.hub.settings job).Ends fun e => Q (asFailure e))
    (ht : Tidy m none)
    (hx : ⟨.spawn job, h⟩ ∈ m.exchanges B (patience.map (m.clock + ·)) stepLimit (.main p)) :
    Promised Q h (m.run B patience p).2 none := by
  rw [snd_run]
  exact (lasting_promised Q h).rest (promised_of_mem_exchanges (t := .main p) hjob ht hx)

/-- **A handle resolves** to a result of a sort: if there is one behind it,
it is of the sort, and if there is none, the task that will give it has not
ended. -/
structure Resolves (m : Scheduler β σ) (h : Handle) (Q : EventResult → Prop) : Prop where
  kept : ∀ w, m.hub.handles.result? h = some w → Q w
  owed : m.hub.handles.result? h = none → ∃ k ∈ m.tasks, k.handle = h

/-- **The handle of a started handler resolves** to what the handler gives,
whatever program has started it and whatever happens later. -/
theorem resolves_of_run {hub : Hub β σ} {B : Behaviours β σ} {patience : Option Nat}
    {p : HubProgram β σ α} {job : Job β} (hm : Reached hub m)
    (hjob : (runJob B m.hub.settings job).Ends fun e => ∃ w, e = .ok w ∧ Q w)
    (hx : ⟨.spawn job, h⟩ ∈ m.exchanges B (patience.map (m.clock + ·)) stepLimit (.main p))
    (hl : Later (m.run B patience p).2 m') : m'.Resolves h Q := by
  have hends : (runJob B m.hub.settings job).Ends fun e => Q (asFailure e) := by
    refine hjob.mono ?_
    rintro e ⟨w, rfl, hw⟩
    exact hw
  have hpromised := hl.promised (promised_of_run hends hm.tidy hx)
  exact ⟨hpromised.kept, hpromised.owed⟩

/-- A handle whose result is promised resolves to it. -/
theorem Promised.resolves (hp : Promised Q h m x) : m.Resolves h Q := ⟨hp.kept, hp.owed⟩

theorem Resolves.mono {Q' : EventResult → Prop} (hr : m.Resolves h Q) (hQ : ∀ w, Q w → Q' w) :
    m.Resolves h Q' :=
  ⟨fun w hw => hQ w (hr.kept w hw), hr.owed⟩

/-- **A handler that is started promises what it can give**, whatever
program has started it and whatever happens later. -/
theorem promised_of_spawned {hub : Hub β σ} {B : Behaviours β σ} {patience : Option Nat}
    {p : HubProgram β σ α} {job : Job β} (hm : Reached hub m)
    (hx : ⟨.spawn job, h⟩ ∈ m.exchanges B (patience.map (m.clock + ·)) stepLimit (.main p))
    (hl : Later (m.run B patience p).2 m') : Promised (job.CanGive B m.hub.settings) h m' none := by
  have hends : (runJob B m.hub.settings job).Ends fun e =>
      job.CanGive B m.hub.settings (asFailure e) := fun t e hrun => ⟨t, e, hrun, rfl⟩
  exact hl.promised (promised_of_run hends hm.tidy hx)

end Promised

end Scheduler

end Switchboard
