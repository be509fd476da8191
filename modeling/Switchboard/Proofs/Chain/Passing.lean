import Switchboard.Dispatch.Chain
import Switchboard.Proofs.Program.Ends

/-!
# Interceptors that pass on

An interceptor **passes on** if it proceeds and returns unchanged what that
gave it (`Program.PassesOn`). It may do other things before and after, and
look at its chain; it does not put in a result before it proceeds, and it
does not panic.

A chain of such interceptors adds nothing to its terminal but exchanges of
its own. Its runs are those of the terminal, in the frame of a chain where
nothing was put in, with exchanges of interceptors before and after, and
end as these did, be it with a result or in a panic (`runs_runStages_passing`).

An interceptor that does not pass on but ends in a certain way whatever it
is told makes its chain end that way, unless the rest of the chain has
panicked (`ends_drive`). So does a chain that has such an interceptor in it,
and others around and inside it that pass on (`ends_runStages_within`).
-/

namespace Switchboard

variable {β σ ρ α : Type}

namespace Program

/-- From here on an interceptor does not panic, and it returns this result. -/
def Returns (x : Except DispatchError ρ) :
    Program (chainCalls β σ ρ) (Except DispatchError ρ) → Prop
  | done a => a = x
  | panic _ => False
  | call _ next => ∀ r, (next r).Returns x

/-- **An interceptor passes on** what it is given when it proceeds. -/
def PassesOn : Program (chainCalls β σ ρ) (Except DispatchError ρ) → Prop
  | done _ => False
  | panic _ => False
  | call (.user _) next => ∀ r, (next r).PassesOn
  | call .proceed next => ∀ x, (next x).Returns x
  | call (.shortCircuit _) _ => False
  | call .state next => ∀ seen, (next seen).PassesOn

end Program

variable {S : Signature} {lift : (c : UserCall β σ) → Program S c.Reply}
  {P : Exchange S → Prop}

/-- How a part of a chain ended, whatever the frame. -/
def resultOf (e : Except Payload (Frame ρ × Except DispatchError ρ)) :
    Except Payload (Except DispatchError ρ) :=
  e.map (·.2)

/-- **A run with exchanges of a sort around it.** -/
def Around (P : Exchange S → Prop) (m : Program S α) (t : List (Exchange S))
    (e : Except Payload α) : Prop :=
  ∃ u v w, t = u ++ v ++ w ∧ m.Runs v e ∧ (∀ x ∈ u, P x) ∧ ∀ x ∈ w, P x

theorem around_of_runs {m : Program S α} {t : List (Exchange S)} {e : Except Payload α}
    (h : m.Runs t e) : Around P m t e :=
  ⟨[], t, [], by simp, h, by simp, by simp⟩

theorem Around.extend {m : Program S α} {t u w : List (Exchange S)} {e : Except Payload α}
    (h : Around P m t e) (hu : ∀ x ∈ u, P x) (hw : ∀ x ∈ w, P x) :
    Around P m (u ++ t ++ w) e := by
  obtain ⟨u', v, w', rfl, hv, hu', hw'⟩ := h
  refine ⟨u ++ u', v, w' ++ w, by simp, hv, ?_, ?_⟩
  · simpa using fun x hx => hx.elim (hu x) (hu' x)
  · simpa using fun x hx => hx.elim (hw' x) (hw x)

section Passing

variable (hlift : ∀ c, (lift c).Only P) (hcalm : ∀ c, (lift c).Ends fun e => ∃ r, e = .ok r)

include hlift hcalm

/-- An interceptor that has proceeded and returns what it was given does so. -/
theorem runs_drive_returning {owner : Id}
    {rest : Frame ρ → Program S (Frame ρ × Except DispatchError ρ)} {x : Except DispatchError ρ}
    {p : Program (chainCalls β σ ρ) (Except DispatchError ρ)} (hp : p.Returns x) {f : Frame ρ}
    {t : List (Exchange S)} {e : Except Payload (Frame ρ × Bool × Except DispatchError ρ)}
    (hrun : (p.drive lift owner rest f true).Runs t e) :
    (∀ y ∈ t, P y) ∧ ∃ f', e = .ok (f', true, x) := by
  induction p generalizing f t with
  | done a =>
    obtain ⟨rfl, rfl⟩ := Program.runs_done_iff.mp hrun
    obtain rfl : a = x := hp
    exact ⟨by simp, f, rfl⟩
  | panic q => exact absurd hp id
  | call c next ih =>
    cases c with
    | user c =>
      rcases Program.runs_bind_iff.mp hrun with ⟨q, rfl, hq⟩ | ⟨r, u, v, rfl, hu, hv⟩
      · obtain ⟨r, hr⟩ := hcalm c t _ hq
        exact absurd hr (by simp)
      · obtain ⟨hown, hend⟩ := ih r (hp r) hv
        refine ⟨?_, hend⟩
        simpa using fun y hy => hy.elim ((hlift c).of_runs hu y) (hown y)
    | proceed => exact ih _ (hp _) hrun
    | shortCircuit r => exact ih () (hp ()) hrun
    | state => exact ih _ (hp _) hrun

/-- **An interceptor that passes on** runs around the rest of its chain. -/
theorem runs_drive_passing {owner : Id}
    {rest : Frame ρ → Program S (Frame ρ × Except DispatchError ρ)}
    {p : Program (chainCalls β σ ρ) (Except DispatchError ρ)} (hp : p.PassesOn) {f : Frame ρ}
    (hf : f.substitute = none) {t : List (Exchange S)}
    {e : Except Payload (Frame ρ × Bool × Except DispatchError ρ)}
    (hrun : (p.drive lift owner rest f false).Runs t e) :
    ∃ e', Around P (rest f) t e' ∧ e.map (·.2.2) = resultOf e' := by
  induction p generalizing t with
  | done a => exact absurd hp id
  | panic q => exact absurd hp id
  | call c next ih =>
    cases c with
    | user c =>
      rcases Program.runs_bind_iff.mp hrun with ⟨q, rfl, hq⟩ | ⟨r, u, v, rfl, hu, hv⟩
      · obtain ⟨r, hr⟩ := hcalm c t _ hq
        exact absurd hr (by simp)
      · obtain ⟨e', haround, hend⟩ := ih r (hp r) hv
        have h := haround.extend ((hlift c).of_runs hu) (w := []) (by simp)
        rw [List.append_nil] at h
        exact ⟨e', h, hend⟩
    | proceed =>
      unfold Program.drive at hrun
      rw [hf] at hrun
      rcases Program.runs_bind_iff.mp hrun with ⟨q, rfl, hq⟩ | ⟨⟨f', x⟩, u, v, rfl, hu, hv⟩
      · exact ⟨.error q, around_of_runs hq, rfl⟩
      · obtain ⟨hown, f'', rfl⟩ := runs_drive_returning hlift hcalm (hp x) hv
        have h := (around_of_runs hu).extend (u := []) (by simp) hown
        rw [List.nil_append] at h
        exact ⟨_, h, rfl⟩
    | shortCircuit r => exact absurd hp id
    | state => exact ih _ (hp _) hrun

/-- **A chain of interceptors that pass on** runs around its terminal. -/
theorem runs_runStages_passing
    {terminal : Frame ρ → Program S (Frame ρ × Except DispatchError ρ)}
    {stages : List (Stage β σ ρ)} (hstages : ∀ s ∈ stages, s.run.PassesOn) {f : Frame ρ}
    (hf : f.substitute = none) {t : List (Exchange S)}
    {e : Except Payload (Frame ρ × Except DispatchError ρ)}
    (hrun : (runStages lift terminal stages f).Runs t e) :
    ∃ e', Around P (terminal f) t e' ∧ resultOf e = resultOf e' := by
  induction stages generalizing t e with
  | nil => exact ⟨e, around_of_runs hrun, rfl⟩
  | cons s stages ih =>
    have hrest : ∀ s' ∈ stages, s'.run.PassesOn :=
      fun s' hs => hstages s' (List.mem_cons_of_mem s hs)
    have hown : s.run.PassesOn := hstages s List.mem_cons_self
    obtain ⟨e₁, hdrive, rfl⟩ := Program.runs_bind_done_iff.mp hrun
    obtain ⟨e₂, haround, he⟩ := runs_drive_passing hlift hcalm hown hf hdrive
    -- what runs inside is a run of the rest, which is one around the terminal
    obtain ⟨u, v, w, rfl, hv, hu, hw⟩ := haround
    obtain ⟨e', hinner, hresult⟩ := ih hrest hv
    refine ⟨e', hinner.extend hu hw, Eq.trans ?_ (he.trans hresult)⟩
    cases e₁ <;> rfl

/-- A chain of interceptors that pass on ends as its terminal. -/
theorem ends_runStages_passing
    {terminal : Frame ρ → Program S (Frame ρ × Except DispatchError ρ)}
    {stages : List (Stage β σ ρ)} (hstages : ∀ s ∈ stages, s.run.PassesOn) {f : Frame ρ}
    (hf : f.substitute = none) {R : Except Payload (Except DispatchError ρ) → Prop}
    (hterminal : (terminal f).Ends fun e => R (resultOf e)) :
    (runStages lift terminal stages f).Ends fun e => R (resultOf e) := by
  intro t e hrun
  obtain ⟨e', ⟨u, v, w, -, hv, -, -⟩, hend⟩ :=
    runs_runStages_passing hlift hcalm hstages hf hrun
  rw [hend]
  exact hterminal v e' hv

end Passing

/-- **An interceptor that ends in a certain way** whatever it is told ends
so, unless the rest of its chain has panicked. -/
theorem ends_drive {owner : Id} {rest : Frame ρ → Program S (Frame ρ × Except DispatchError ρ)}
    {Q R : Except Payload (Except DispatchError ρ) → Prop}
    (hcalm : ∀ c, (lift c).Ends fun e => ∃ r, e = .ok r)
    (hrest : ∀ f, f.substitute = none → (rest f).Ends fun e => R (resultOf e))
    (hpanic : ∀ q, R (.error q) → Q (.error q))
    {p : Program (chainCalls β σ ρ) (Except DispatchError ρ)} (hp : p.Ends Q) (f : Frame ρ)
    (proceeded : Bool) :
    (p.drive lift owner rest f proceeded).Ends fun e => Q (e.map (·.2.2)) := by
  induction p generalizing f proceeded with
  | done a => exact Program.ends_done_iff.mpr (Program.ends_done_iff.mp hp)
  | panic q => exact Program.ends_panic_iff.mpr (Program.ends_panic_iff.mp hp)
  | call c next ih =>
    have hnext := Program.ends_call_iff.mp hp
    cases c with
    | user c =>
      refine (hcalm c).bind (fun q hq => ?_) fun r _ => ih r (hnext r) f proceeded
      obtain ⟨r, hr⟩ := hq
      exact absurd hr (by simp)
    | proceed =>
      cases proceeded with
      | true => exact ih _ (hnext _) f true
      | false =>
        unfold Program.drive
        cases hf : f.substitute with
        | some r => exact ih _ (hnext _) f true
        | none => exact (hrest f hf).bind hpanic fun x _ => ih _ (hnext _) x.1 true
    | shortCircuit r => exact ih () (hnext ()) (f.shortCircuit r) proceeded
    | state => exact ih _ (hnext _) f proceeded

/-- **A chain in which one interceptor ends in a certain way** whatever it is
told ends so, if the others pass on and its terminal does not panic. -/
theorem ends_runStages_within (hlift : ∀ c, (lift c).Only P)
    (hcalm : ∀ c, (lift c).Ends fun e => ∃ r, e = .ok r)
    {terminal : Frame ρ → Program S (Frame ρ × Except DispatchError ρ)}
    (hterminal : ∀ f, f.substitute = none → (terminal f).Ends fun e => ∃ x, resultOf e = .ok x)
    {outer inner : List (Stage β σ ρ)} {s : Stage β σ ρ}
    (houter : ∀ s ∈ outer, s.run.PassesOn) (hinner : ∀ s ∈ inner, s.run.PassesOn)
    {Q : Except Payload (Except DispatchError ρ) → Prop} (hown : s.run.Ends Q) {f : Frame ρ}
    (hf : f.substitute = none) :
    (runStages lift terminal (outer ++ s :: inner) f).Ends fun e => Q (resultOf e) := by
  rw [runStages_append]
  refine ends_runStages_passing hlift hcalm houter hf ?_
  have hrest : ∀ f, f.substitute = none →
      (runStages lift terminal inner f).Ends fun e => ∃ x, resultOf e = .ok x :=
    fun f hf => ends_runStages_passing (R := fun e => ∃ x, e = .ok x) hlift hcalm hinner hf
      (hterminal f hf)
  refine (ends_drive (R := fun e => ∃ x, e = .ok x) hcalm hrest (fun q hq => absurd hq (by simp))
    hown f false).bind (fun p hp => hp) fun x hx => ?_
  exact Program.ends_done_iff.mpr hx

end Switchboard
