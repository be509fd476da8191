import Switchboard.Proofs.Hub.Turns
import Switchboard.Proofs.Session.Fates

/-!
# Which sessions there are

What an exchange does to the sessions of a hub can be told from the exchange
(`Exchange.deed?`), and the hub does no more to them (`Hub.sessions_of_serve`).
A session that is opened has an identifier that is drawn then, and no call
brings a session back that has left the list of those that wait.

So the sessions of a hub are among some identifiers if they were, and if those
are that are drawn, whatever programs run (`within_steps`). Where all
identifiers are meant that were drawn so far, this says that only sessions that
were opened can wait. Where all but one are meant, it says that a session which
does not wait, and has received nothing, is gone for good.
-/

namespace Switchboard

variable {β σ α γ : Type}

/-! ## What an exchange does -/

/-- **What an exchange does to the sessions.** Whoever is told that the time
of a session is up has given it up. -/
def Exchange.deed? : Exchange (hubCalls β σ) → Option (SessionDeed β)
  | ⟨.user (.request (.openSession forMessages matcher)), s⟩ => some (.opened s forMessages matcher)
  | ⟨.user (.request (.cancelSession s)), _⟩ => some (.cancelled s)
  | ⟨.user (.request (.abandonSession s)), _⟩ => some (.abandoned s)
  | ⟨.user (.request .clearSessions), _⟩ => some .cleared
  | ⟨.user (.wait (.session s _)), .error (.timedOut _ _)⟩ => some (.abandoned s)
  | ⟨.deliver s e, _⟩ => some (.delivered s e)
  | ⟨.keepSessions ws, _⟩ => some (.kept ws)
  | ⟨.loseSessions _, _⟩ => some .cleared
  | _ => none

namespace Hub

variable {h h' : Hub β σ} {c : HubCall β σ} {r : c.Reply}

/-- **A call that is served does to the sessions what its exchange tells**,
and otherwise nothing. -/
theorem sessions_of_serve (hs : h.serve c = some (r, h')) :
    (h.sessions.applyAll (Exchange.deed? ⟨c, r⟩).toList).Agree h'.sessions := by
  obtain rfl := eq_afterCall hs
  cases c with
  | user c =>
    cases c with
    | request q =>
      cases q with
      | setAttributes s a => cases s <;> exact .refl _
      | openSession forMessages matcher =>
        obtain rfl : Id.ofEntropy h.drawn = r := congrArg Prod.fst (Option.some.inj hs)
        exact .refl _
      | _ => exact .refl _
    | _ => exact absurd hs (by simp [serve])
  | _ => exact ⟨rfl, rfl⟩

/-- Identifiers are drawn, if any. -/
theorem drawn_le_of_serve (hs : h.serve c = some (r, h')) : h.drawn ≤ h'.drawn := by
  obtain rfl := eq_afterCall hs
  cases c with
  | user c =>
    cases c with
    | request q =>
      cases q with
      | setAttributes s a => cases s <;> exact Nat.le_refl _
      | openSession forMessages matcher => exact Nat.le_succ _
      | drawId => exact Nat.le_succ _
      | _ => exact Nat.le_refl _
    | _ => exact Nat.le_refl _
  | _ => exact Nat.le_refl _

/-- **A session that is opened has the identifier that is drawn then.** -/
theorem opening_of_serve (hs : h.serve c = some (r, h')) {w : Waiter β}
    (hw : (Exchange.deed? ⟨c, r⟩).bind (·.opening?) = some w) :
    w.id = Id.ofEntropy h.drawn ∧ h.drawn < h'.drawn := by
  obtain rfl := eq_afterCall hs
  cases c with
  | user c =>
    cases c with
    | request q =>
      cases q with
      | openSession forMessages matcher =>
        obtain rfl : Id.ofEntropy h.drawn = r := congrArg Prod.fst (Option.some.inj hs)
        obtain rfl := Option.some.inj hw
        exact ⟨rfl, Nat.lt_succ_self _⟩
      | _ => exact absurd hw (by simp [Exchange.deed?, SessionDeed.opening?])
    | _ => exact absurd hs (by simp [serve])
  | _ => exact absurd hw (by simp [Exchange.deed?, SessionDeed.opening?])

end Hub

/-! ## Sessions among some identifiers -/

/-- **All sessions of a hub are among some identifiers**, those that wait and
those that have received an event. -/
structure Sessions.Within (K : Id → Prop) (s : Sessions β) : Prop where
  waiters : ∀ w ∈ s.waiters, K w.id
  received : ∀ x ∈ s.received, K x.1

namespace Sessions

variable {K : Id → Prop} {s s' : Sessions β}

theorem Within.congr (h : s.Within K) (hs : s.Agree s') : s'.Within K :=
  ⟨hs.waiters ▸ h.waiters, hs.received ▸ h.received⟩

/-- Sessions stay among some identifiers as others are opened that are among
them, and whatever else is done. -/
theorem Within.apply (h : s.Within K) {d : SessionDeed β}
    (hopen : ∀ w, d.opening? = some w → K w.id) : (s.apply d).Within K := by
  cases d with
  | opened id forMessages matcher =>
    refine ⟨fun w hw => ?_, h.received⟩
    rcases List.mem_append.mp hw with hw | hw
    · exact h.waiters w hw
    · exact List.mem_singleton.mp hw ▸ hopen _ rfl
  | cancelled id =>
    refine ⟨fun w hw => ?_, ?_⟩
    · rw [show (s.apply (.cancelled id)).waiters = _ from waiters_cancel s id] at hw
      exact h.waiters w (List.mem_filter.mp hw).1
    · show ∀ x ∈ (s.cancel id).2.received, K x.1
      unfold cancel
      split <;> exact h.received
  | cleared => exact ⟨fun w hw => absurd hw List.not_mem_nil, h.received⟩
  | abandoned id =>
    have hid : ∀ v : Waiter β, (if v.id = id then { v with abandoned := true } else v).id = v.id :=
      fun v => by split <;> rfl
    refine ⟨fun w hw => ?_, h.received⟩
    obtain ⟨v, hv, rfl⟩ := List.mem_map.mp hw
    rw [hid]
    exact h.waiters v hv
  | delivered id e =>
    show (s.deliver id e).Within K
    by_cases hs : s.Wants id
    · obtain ⟨hw, hr⟩ := deliver_of_wants hs e
      refine ⟨fun w hmem => ?_, fun x hmem => ?_⟩
      · rw [hw] at hmem
        exact h.waiters w (List.mem_filter.mp hmem).1
      · rw [hr] at hmem
        rcases List.mem_append.mp hmem with hmem | hmem
        · exact h.received x hmem
        -- whoever receives an event has waited
        · obtain ⟨w, hw, hid, -⟩ := hs
          rw [List.mem_singleton.mp hmem]
          exact hid ▸ h.waiters w hw
    · rw [deliver_of_not_wants hs]
      exact h
  | kept ws =>
    refine ⟨fun w hw => ?_, h.received⟩
    rw [show (s.apply (.kept ws)).waiters = _ from waiters_keep s ws] at hw
    exact h.waiters w (List.mem_filter.mp hw).1

theorem Within.applyAll (h : s.Within K) {deeds : List (SessionDeed β)}
    (hopen : ∀ w ∈ openings deeds, K w.id) : (s.applyAll deeds).Within K := by
  induction deeds generalizing s with
  | nil => exact h
  | cons d deeds ih =>
    refine ih (h.apply fun w hw => hopen w ?_) fun w hw => hopen w ?_
    · exact List.mem_filterMap.mpr ⟨d, List.mem_cons_self, hw⟩
    · obtain ⟨d', hd', hw⟩ := List.mem_filterMap.mp hw
      exact List.mem_filterMap.mpr ⟨d', List.mem_cons_of_mem _ hd', hw⟩

end Sessions

namespace Hub

variable {K : Id → Prop} {h h' : Hub β σ}

theorem Kept.within {S : Id → Prop} (hk : h.Kept S h') (hs : h.sessions.Within K) :
    h'.sessions.Within K := by
  obtain ⟨gone, -, hgone⟩ := hk.sessions
  refine (hs.applyAll fun w hw => ?_).congr hgone
  obtain ⟨d, hd, hw⟩ := List.mem_filterMap.mp hw
  obtain ⟨s, -, rfl⟩ := List.mem_map.mp hd
  exact absurd hw (by simp [SessionDeed.opening?])

/-- **A call leaves the sessions among some identifiers**, if the identifier
is among them that is drawn by it. -/
theorem within_of_serve {c : HubCall β σ} {r : c.Reply} (hserve : h.serve c = some (r, h'))
    (hs : h.sessions.Within K)
    (hnew : ∀ k, h.drawn ≤ k → k < h'.drawn → K (Id.ofEntropy k)) : h'.sessions.Within K := by
  refine (hs.applyAll fun w hw => ?_).congr (sessions_of_serve hserve)
  obtain ⟨d, hd, hw⟩ := List.mem_filterMap.mp hw
  obtain ⟨hid, hlt⟩ := opening_of_serve hserve
    (Option.bind_eq_some_iff.mpr ⟨d, Option.mem_toList.mp hd, hw⟩)
  exact hid ▸ hnew h.drawn (Nat.le_refl _) hlt

end Hub

namespace Scheduler

variable {B : Behaviours β σ} {limit : Option Nat} {m m' : Scheduler β σ} {K : Id → Prop}

/-- The identifiers that are drawn on the way are among some. -/
def Draws (K : Id → Prop) (m m' : Scheduler β σ) : Prop :=
  ∀ k, m.hub.drawn ≤ k → k < m'.hub.drawn → K (Id.ofEntropy k)

theorem Draws.first {m₁ : Scheduler β σ} (h : Draws K m m') (hle : m₁.hub.drawn ≤ m'.hub.drawn) :
    Draws K m m₁ :=
  fun k hk hlt => h k hk (Nat.lt_of_lt_of_le hlt hle)

theorem Draws.later {m₁ : Scheduler β σ} (h : Draws K m m') (hle : m.hub.drawn ≤ m₁.hub.drawn) :
    Draws K m₁ m' :=
  fun k hk hlt => h k (Nat.le_trans hle hk) hlt

/-- The identifiers that were drawn so far. -/
def Drawn (m : Scheduler β σ) (s : Id) : Prop := ∃ k < m.hub.drawn, s = Id.ofEntropy k

/-- **An identifier that was drawn is not drawn again**, as long as there are
enough of them. -/
theorem Drawn.draws {s : Id} (hs : m.Drawn s) (hroom : m'.hub.drawn ≤ Number.twoTo 122) :
    Draws (· ≠ s) m m' := by
  obtain ⟨a, ha, rfl⟩ := hs
  intro k hk hlt he
  have hroom' : a < Number.twoTo 122 := by omega
  have := Id.ofEntropy_inj (Nat.lt_of_lt_of_le hlt hroom) hroom' he
  omega

/-- A session that waits has an identifier that was drawn, if all have. -/
theorem drawn_of_waiting (h : m.hub.sessions.Within m.Drawn) {s : Id}
    (hs : m.hub.sessions.status s = .waiting) : m.Drawn s := by
  obtain ⟨w, hw, rfl⟩ := (Sessions.status_eq_waiting_iff.mp hs).2
  exact h.waiters w hw

/-- Whoever waits for a session that is gone is told that it was closed. -/
theorem reply?_of_gone {s : Id} (h : m.hub.sessions.Within (· ≠ s)) (deadline : Option Nat)
    (timeout : Option Timeout) :
    m.reply? deadline (.session s timeout) = some (.error (.closed s), m) := by
  rw [reply?, Sessions.status_eq_closed_iff.mpr ⟨h.received, h.waiters⟩]

section Advanced

variable {p : HubProgram β σ α} {q : Progress β σ α}

theorem Advanced.drawn_le (h : Advanced B m p m' q) : m.hub.drawn ≤ m'.hub.drawn := by
  cases h with
  | served hserved =>
    obtain ⟨h₁, hs, halike⟩ := hserved.hub
    rw [halike.drawn]
    exact Hub.drawn_le_of_serve hs
  | waited hk => exact Nat.le_of_eq hk.hub.drawn.symm
  | _ => exact Nat.le_refl _

/-- A program that takes a step leaves the sessions among some identifiers, if
those are that are drawn. -/
theorem Advanced.within (h : Advanced B m p m' q) (hs : m.hub.sessions.Within K)
    (hnew : Draws K m m') : m'.hub.sessions.Within K := by
  cases h with
  | served hserved =>
    obtain ⟨h₁, hserve, halike⟩ := hserved.hub
    refine (Hub.within_of_serve hserve hs fun k hk hlt => hnew k hk ?_).congr halike.sessions
    rwa [halike.drawn]
  | waited hk => exact hk.hub.within hs
  | _ => exact hs

end Advanced

variable {t t' : Turn β σ α}

theorem Stepped.drawn_le (h : Stepped B m t m' t') : m.hub.drawn ≤ m'.hub.drawn := by
  obtain ⟨hub, hmoved, hk⟩ := h.moved
  rw [hk.drawn]
  generalize t.call? = c at hmoved
  cases hmoved with
  | nobody => exact Nat.le_refl _
  | advanced ha => exact ha.drawn_le

/-- In so many steps, identifiers are drawn, if any. -/
theorem drawn_le_steps (B : Behaviours β σ) (limit : Option Nat) (n : Nat) (m : Scheduler β σ)
    (t : Turn β σ α) : m.hub.drawn ≤ (m.steps B limit n t).1.hub.drawn := by
  induction n generalizing m t with
  | zero => exact Nat.le_refl _
  | succ n ih =>
    rw [steps_succ]
    exact Nat.le_trans (m.stepped B limit t).drawn_le (ih _ _)

/-- After a step, the sessions are among the identifiers. -/
theorem within_step (hs : m.hub.sessions.Within K) (t : Turn β σ α)
    (hnew : Draws K m (m.step B limit t).1) : (m.step B limit t).1.hub.sessions.Within K := by
  obtain ⟨hub, hmoved, hk⟩ := (m.stepped B limit t).moved
  refine hk.within ?_
  have hdrawn : (m.step B limit t).1.hub.drawn = hub.drawn := hk.drawn
  generalize t.call? = c at hmoved
  cases hmoved with
  | nobody => exact hs
  | advanced ha => exact ha.within hs fun k hk hlt => hnew k hk (hdrawn ▸ hlt)

/-- **So they are after any number of steps.** -/
theorem within_steps (hs : m.hub.sessions.Within K) (n : Nat) (t : Turn β σ α)
    (hnew : Draws K m (m.steps B limit n t).1) :
    (m.steps B limit n t).1.hub.sessions.Within K := by
  induction n generalizing m t with
  | zero => exact hs
  | succ n ih =>
    have hfirst := drawn_le_steps B limit 1 m t
    have hlater := drawn_le_steps B limit n (m.step B limit t).1 (m.step B limit t).2
    rw [steps_succ] at hnew hfirst ⊢
    exact ih (within_step hs t (hnew.first hlater)) _ (hnew.later hfirst)

/-- A program that runs alone draws identifiers, if any. -/
theorem drawn_le_runAlone (B : Behaviours β σ) (m : Scheduler β σ) (fuel : Nat)
    (p : HubProgram β σ α) : m.hub.drawn ≤ (m.runAlone B fuel p).2.hub.drawn :=
  of_runAlone (P := fun m' => m.hub.drawn ≤ m'.hub.drawn)
    (fun p h => Nat.le_trans h (advanced B _ p).drawn_le)
    (fun w h => Nat.le_trans h (Nat.le_of_eq (kept_drop _ w).hub.drawn.symm)) fuel p
    (Nat.le_refl _)

/-- A program that runs alone leaves the sessions among them too. -/
theorem within_runAlone (hs : m.hub.sessions.Within K) (fuel : Nat) (p : HubProgram β σ α)
    (hnew : Draws K m (m.runAlone B fuel p).2) :
    (m.runAlone B fuel p).2.hub.sessions.Within K := by
  induction fuel generalizing m p with
  | zero => exact hs
  | succ fuel ih =>
    have ha := m.advanced B p
    unfold Scheduler.runAlone at hnew ⊢
    split at hnew
    · next m₁ q heq =>
      rw [heq] at ha
      have hle := drawn_le_runAlone B m₁ fuel q
      exact ih (ha.within hs (hnew.first hle)) q (hnew.later ha.drawn_le)
    · next heq =>
      rw [heq] at ha
      exact ha.within hs hnew
    · next m₁ _ next heq =>
      rw [heq] at ha
      have hle := drawn_le_runAlone B m₁ fuel (next ())
      exact ih (ha.within hs (hnew.first hle)) _ (hnew.later ha.drawn_le)
    · next m₁ s _ heq =>
      rw [heq] at ha
      have hdrop := kept_drop m₁ s.wait
      have hle : m₁.hub.drawn ≤ (m₁.drop s.wait).hub.drawn := Nat.le_of_eq hdrop.hub.drawn.symm
      exact hdrop.hub.within (ha.within hs (hnew.first hle))

end Scheduler

end Switchboard
