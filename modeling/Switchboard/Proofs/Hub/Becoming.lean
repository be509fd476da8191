import Switchboard.Proofs.Hub.Promises
import Switchboard.Proofs.Session.Membership

/-!
# What a scheduler becomes

Programs run one after the other, in turns with tasks or on threads of their
own, time passes, and a wait is looked at. What a scheduler becomes in this
way, and which exchanges its hub makes meanwhile, is told by
`Scheduler.Becomes`. A run can be left after any number of steps. So
everything that can be seen of a scheduler is something that it becomes, in
the middle of a run as well as between two runs.
-/

namespace Switchboard

variable {β σ α : Type}

namespace Hub

variable {h h' : Hub β σ}

/-- No event that a session has received is taken away by a call. -/
theorem received_of_serve {c : HubCall β σ} {r : c.Reply} (hs : h.serve c = some (r, h')) :
    h.sessions.received <+: h'.sessions.received := by
  rw [(sessions_of_serve hs).received]
  exact h.sessions.received_applyAll _

theorem Kept.keeps_received {S : Id → Prop} (hk : h.Kept S h') :
    h.sessions.received <+: h'.sessions.received := by
  obtain ⟨gone, -, hs⟩ := hk.sessions
  rw [hs.received]
  exact h.sessions.received_applyAll _

end Hub

namespace Scheduler

/-- **The exchanges that the hub makes** with a program that runs alone. -/
def exchangesAlone (B : Behaviours β σ) :
    Nat → Scheduler β σ → HubProgram β σ α → HubTrace β σ
  | 0, _, _ => []
  | fuel + 1, m, p =>
    (p.call?.bind m.hub.exchange?).toList ++
      match m.advance B p with
      | (m, .running p) => exchangesAlone B fuel m p
      | (m, .waiting ⟨.yield, _, next⟩) => exchangesAlone B fuel m (next ())
      | _ => []

/-- **What a scheduler becomes**, and the exchanges made on the way. -/
inductive Becomes (B : Behaviours β σ) (m : Scheduler β σ) :
    HubTrace β σ → Scheduler β σ → Prop
  | now : Becomes B m [] m
  /-- A program runs in turns with tasks, for some steps. -/
  | steps {α : Type} {x : HubTrace β σ} {m' : Scheduler β σ} {p : HubProgram β σ α}
      (limit : Option Nat) (n : Nat) : Becomes B m x m' →
      Becomes B m (x ++ m'.exchanges B limit n (.main p)) (m'.steps B limit n (.main p)).1
  | alone {α : Type} {x : HubTrace β σ} {m' : Scheduler β σ} {p : HubProgram β σ α}
      (fuel : Nat) : Becomes B m x m' →
      Becomes B m (x ++ m'.exchangesAlone B fuel p) (m'.runAlone B fuel p).2
  | elapse {x : HubTrace β σ} {m' : Scheduler β σ} (milliseconds : Nat) :
      Becomes B m x m' → Becomes B m x (m'.elapse milliseconds)
  | poll {x : HubTrace β σ} {m' : Scheduler β σ} (w : Wait) :
      Becomes B m x m' → Becomes B m x (m'.poll w).2

variable {B : Behaviours β σ} {limit : Option Nat} {m m' : Scheduler β σ} {x : HubTrace β σ}

/-- A program begins to run. -/
theorem becomes_steps (m : Scheduler β σ) (p : HubProgram β σ α) (limit : Option Nat) (n : Nat) :
    Becomes B m (m.exchanges B limit n (.main p)) (m.steps B limit n (.main p)).1 :=
  Becomes.now.steps limit n

/-- A scheduler becomes what it is after a run. -/
theorem becomes_run (m : Scheduler β σ) (p : HubProgram β σ α) (patience : Option Nat) :
    Becomes B m (m.exchanges B (patience.map (m.clock + ·)) stepLimit (.main p))
      (m.run B patience p).2 := by
  rw [snd_run]
  exact m.becomes_steps p _ stepLimit

/-! ## Sessions -/

/-- Identifiers are drawn, if any. -/
theorem Becomes.drawn_le (hb : Becomes B m x m') : m.hub.drawn ≤ m'.hub.drawn := by
  induction hb with
  | now => exact Nat.le_refl _
  | steps limit n _ ih => exact Nat.le_trans ih (drawn_le_steps B limit n _ _)
  | alone fuel _ ih => exact Nat.le_trans ih (drawn_le_runAlone B _ fuel _)
  | elapse ms _ ih => exact ih
  | poll w _ ih => exact Nat.le_trans ih (Nat.le_of_eq (kept_poll _ w).hub.drawn.symm)

/-- **The sessions of what a scheduler becomes** are among some identifiers,
if its own are, and if those are that are drawn. -/
theorem Becomes.within {K : Id → Prop} (hb : Becomes B m x m') (h : m.hub.sessions.Within K)
    (hnew : Draws K m m') : m'.hub.sessions.Within K := by
  induction hb with
  | now => exact h
  | @steps α x m' p limit n hb ih =>
    have hle := drawn_le_steps B limit n m' (.main p)
    exact within_steps (ih (hnew.first hle)) n _ (hnew.later hb.drawn_le)
  | @alone α x m' p fuel hb ih =>
    have hle := drawn_le_runAlone B m' fuel p
    exact within_runAlone (ih (hnew.first hle)) fuel p (hnew.later hb.drawn_le)
  | elapse ms _ ih => exact ih hnew
  | @poll x m' w _ ih =>
    have hk := kept_poll m' w
    exact hk.hub.within (ih (hnew.first (Nat.le_of_eq hk.hub.drawn.symm)))

/-- **All sessions have identifiers that were drawn.** -/
theorem within_drawn {registry : Registry β} {settings : DispatchSettings} {memory : σ}
    (hb : Becomes B (.fresh (.fresh registry settings memory)) x m) :
    m.hub.sessions.Within m.Drawn :=
  hb.within ⟨fun _ hw => absurd hw List.not_mem_nil, fun _ hx => absurd hx List.not_mem_nil⟩
    fun k _ hlt => ⟨k, hlt, rfl⟩

/-- **A session that is gone is gone for good**, as long as there are enough
identifiers for the sessions that are opened later. -/
theorem Becomes.gone {s : Id} (h : m.hub.sessions.Within (· ≠ s)) (hs : m.Drawn s)
    (hb : Becomes B m x m') (hroom : m'.hub.drawn ≤ Number.twoTo 122) :
    m'.hub.sessions.Within (· ≠ s) :=
  hb.within h (hs.draws hroom)

/-! ## Events that were received -/

/-- A program that takes a step takes no event away either. -/
theorem Advanced.keeps_received {p : HubProgram β σ α} {q : Progress β σ α}
    (h : Advanced B m p m' q) : m.hub.sessions.received <+: m'.hub.sessions.received := by
  cases h with
  | served hserved =>
    obtain ⟨h₁, hserve, halike⟩ := hserved.hub
    rw [halike.sessions.received]
    exact Hub.received_of_serve hserve
  | waited hk => exact hk.hub.keeps_received
  | _ => exact List.prefix_refl _

theorem received_steps (B : Behaviours β σ) (limit : Option Nat) (n : Nat) (m : Scheduler β σ)
    (t : Turn β σ α) :
    m.hub.sessions.received <+: (m.steps B limit n t).1.hub.sessions.received := by
  induction n generalizing m t with
  | zero => exact List.prefix_refl _
  | succ n ih =>
    rw [steps_succ]
    obtain ⟨hub, hmoved, hk⟩ := (m.stepped B limit t).moved
    refine List.IsPrefix.trans (List.IsPrefix.trans ?_ hk.keeps_received) (ih _ _)
    generalize t.call? = c at hmoved
    cases hmoved with
    | nobody => exact List.prefix_refl _
    | advanced ha => exact ha.keeps_received

/-- **What a session has received**, it has received for good. -/
theorem Becomes.keeps_received (hb : Becomes B m x m') :
    m.hub.sessions.received <+: m'.hub.sessions.received := by
  induction hb with
  | now => exact List.prefix_refl _
  | steps limit n _ ih => exact ih.trans (received_steps B limit n _ _)
  | @alone α x m' p fuel _ ih =>
    exact of_runAlone (P := fun m'' => m.hub.sessions.received <+: m''.hub.sessions.received)
      (fun p h => h.trans (advanced B _ p).keeps_received)
      (fun w h => h.trans (kept_drop _ w).hub.keeps_received) fuel p ih
  | elapse ms _ ih => exact ih
  | poll w _ ih => exact ih.trans (kept_poll _ w).hub.keeps_received

end Scheduler

end Switchboard
