import Switchboard.Proofs.Program.Runs

/-!
# How programs end

What a program does depends on what it is told, and often the end it comes
to does not: a handler that always returns the same value, a filter that
always panics, a part of a dispatch that never panics whatever happens in
it. `Program.Ends` says that all runs of a program end in a certain way.

Like `Program.Only` it is closed under everything programs are made of, so
it is shown of a program by going through its parts.
-/

namespace Switchboard

namespace Program

variable {S T : Signature} {α β : Type} {P : Except Payload α → Prop}
  {Q : Except Payload β → Prop}

/-- **Whatever a program is told, it ends in a certain way.** -/
def Ends (P : Except Payload α → Prop) (m : Program S α) : Prop := ∀ t e, m.Runs t e → P e

theorem Ends.mono {P' : Except Payload α → Prop} {m : Program S α} (h : m.Ends P)
    (hP : ∀ e, P e → P' e) : m.Ends P' :=
  fun t e hrun => hP e (h t e hrun)

theorem ends_done_iff {a : α} : (done a : Program S α).Ends P ↔ P (.ok a) := by
  constructor
  · exact fun h => h [] (.ok a) (.done a)
  · intro h t e hrun
    rw [(runs_done_iff.mp hrun).2]
    exact h

theorem ends_panic_iff {p : Payload} : (panic p : Program S α).Ends P ↔ P (.error p) := by
  constructor
  · exact fun h => h [] (.error p) (.panic p)
  · intro h t e hrun
    rw [(runs_panic_iff.mp hrun).2]
    exact h

theorem ends_call_iff {c : S.Call} {next : S.Reply c → Program S α} :
    (call c next).Ends P ↔ ∀ r, (next r).Ends P := by
  constructor
  · exact fun h r t e hrun => h (⟨c, r⟩ :: t) e (.call hrun)
  · intro h t e hrun
    obtain ⟨r, u, -, hu⟩ := runs_call_iff.mp hrun
    exact h r u e hu

/-- **A sequence ends as its first part in a panic, or as its rest.** -/
theorem Ends.bind {m : Program S α} {f : α → Program S β} (hm : m.Ends P)
    (hpanic : ∀ p, P (.error p) → Q (.error p)) (hf : ∀ a, P (.ok a) → (f a).Ends Q) :
    (m.bind f).Ends Q := by
  intro t e hrun
  rcases runs_bind_iff.mp hrun with ⟨p, rfl, hp⟩ | ⟨a, u, v, -, hu, hv⟩
  · exact hpanic p (hm t _ hp)
  · exact hf a (hm u _ hu) v e hv

/-- After a program that does not panic, a sequence ends as its rest. -/
theorem Ends.bind_ok {R : α → Prop} {m : Program S α} {f : α → Program S β}
    (hm : m.Ends fun e => ∃ a, e = .ok a ∧ R a) (hf : ∀ a, R a → (f a).Ends Q) :
    (m.bind f).Ends Q := by
  refine hm.bind (fun p hp => ?_) fun a ha => ?_
  · obtain ⟨a, ha, -⟩ := hp
    exact absurd ha (by simp)
  · obtain ⟨b, hb, hR⟩ := ha
    obtain rfl := Except.ok.inj hb
    exact hf a hR

/-- A recovered program does not panic. -/
theorem Ends.recover {m : Program S α} (hm : m.Ends P) :
    m.recover.Ends fun e => ∃ e', e = .ok e' ∧ P e' := by
  intro t e hrun
  obtain ⟨e', rfl, hown⟩ := runs_recover_iff.mp hrun
  exact ⟨e', rfl, hm t e' hown⟩

/-- What follows a recovered program is told how the program ended. -/
theorem Ends.recover_bind {m : Program S α} {f : Except Payload α → Program S β} (hm : m.Ends P)
    (hf : ∀ e, P e → (f e).Ends Q) : (m.recover.bind f).Ends Q :=
  hm.recover.bind_ok hf

/-- Asking for everything in other words does not change how a program can
end. -/
theorem Ends.interpret {f : S.Call → T.Call} {g : ∀ c, T.Reply (f c) → S.Reply c}
    {m : Program S α} (hm : m.Ends P) :
    (m.interpret fun c => .call (f c) fun r => .done (g c r)).Ends P := by
  induction m with
  | done a => exact ends_done_iff.mpr (ends_done_iff.mp hm)
  | panic p => exact ends_panic_iff.mpr (ends_panic_iff.mp hm)
  | call c next ih => exact ends_call_iff.mpr fun r => ih _ (ends_call_iff.mp hm (g c r))

end Program

end Switchboard
