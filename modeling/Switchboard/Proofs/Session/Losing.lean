import Mathlib.Data.List.Basic
import Switchboard.Proofs.Dispatch.Outcomes
import Switchboard.Proofs.Hub.Becoming
import Switchboard.Proofs.Session.Offering

/-!
# A matcher that panics

A dispatch takes hold of all sessions before it asks them, and lets go of
those that wait on when everybody was asked. A matcher that panics in between
breaks the offering off (`Hub.BreaksOff`), and then nobody waits on: neither
the sessions that have refused the event, nor those that were not asked, nor
the one whose matcher it is. The sessions are as if the event had been offered
up to there and then all of them had been closed (`leads_breaksOff`).

So a session that was pending has received the event if it accepted it before
the panic, and has it for good (`Becomes.keeps_received`). Otherwise it is
closed, although it was neither cancelled nor the hub shut down, and no later
dispatch offers it anything (`matcher_panic_closes`).
-/

namespace Switchboard

variable {β σ α : Type}

open HubProgram

/-- **The offering of an event breaks off**: of the sessions that wait and
were not given up some are asked, one after the other, and answer. Then one
is asked whose matcher panics, and the later ones are not asked. -/
structure Hub.BreaksOff (B : Behaviours β σ) (h : Hub β σ) (e : Event)
    (asked : List (Waiter β × Bool)) (w : Waiter β) (later : List (Waiter β)) (p : Payload)
    (h' : Hub β σ) : Prop where
  waiting : h.sessions.waiters.filter (!·.abandoned) = asked.map (·.1) ++ w :: later
  panics : ∃ h₁, (h.start e).2.Asks B (h.start e).1.context asked h₁ ∧
    h₁.evaluate (question B (h.start e).1.context w) = (.error p, h')

/-- A session accepts an event, as far as the answers go. -/
def AcceptedIn (asked : List (Waiter β × Bool)) (s : Id) : Prop := ∃ w, (w, true) ∈ asked ∧ w.id = s

namespace Sessions

variable {s s' : Sessions β} {e : Event} {asked : List (Waiter β × Bool)} {id : Id}

theorem delivered_cons_accepted (w : Waiter β) :
    s.delivered e ((w, true) :: asked) = (s.deliver w.id e).delivered e asked := rfl

/-- No event that was received is taken away while sessions answer. -/
theorem received_delivered (s : Sessions β) (e : Event) (asked : List (Waiter β × Bool)) :
    s.received <+: (s.delivered e asked).received := by
  induction asked generalizing s with
  | nil => exact List.prefix_refl _
  | cons a asked ih =>
    obtain ⟨w, accepted⟩ := a
    cases accepted with
    | false => exact ih s
    | true => exact (s.received_deliver w.id e).trans (ih _)

/-- Whoever has received an event was a receiver before, or has accepted it. -/
theorem of_mem_received_delivered {x : Id × Event} (hx : x ∈ (s.delivered e asked).received) :
    x ∈ s.received ∨ AcceptedIn asked x.1 ∧ x.2 = e := by
  induction asked generalizing s with
  | nil => exact .inl hx
  | cons a asked ih =>
    obtain ⟨w, accepted⟩ := a
    have hlater : AcceptedIn asked x.1 → AcceptedIn ((w, accepted) :: asked) x.1 :=
      fun ⟨v, hv, hid⟩ => ⟨v, List.mem_cons_of_mem _ hv, hid⟩
    cases accepted with
    | false => exact (ih hx).imp_right (And.imp_left hlater)
    | true =>
      rw [delivered_cons_accepted] at hx
      rcases ih hx with hx | hx
      · by_cases hw : s.Wants w.id
        · rw [(deliver_of_wants hw e).2] at hx
          rcases List.mem_append.mp hx with hx | hx
          · exact .inl hx
          · rw [List.mem_singleton.mp hx]
            exact .inr ⟨⟨w, List.mem_cons_self, rfl⟩, rfl⟩
        · rw [deliver_of_not_wants hw] at hx
          exact .inl hx
      · exact .inr (hx.imp_left hlater)

/-- **Whoever waits and accepts an event receives it.** -/
theorem mem_received_delivered {w : Waiter β} (hw : w ∈ s.waiters ∧ w.abandoned = false)
    (haccepted : (w, true) ∈ asked) : (w.id, e) ∈ (s.delivered e asked).received := by
  induction asked generalizing s with
  | nil => exact absurd haccepted List.not_mem_nil
  | cons a asked ih =>
    obtain ⟨v, accepted⟩ := a
    cases accepted with
    | false => exact ih hw ((List.mem_cons.mp haccepted).resolve_left (by simp))
    | true =>
      rw [delivered_cons_accepted]
      by_cases hid : v.id = w.id
      · have hwants : s.Wants v.id := ⟨w, hw.1, hid.symm, hw.2⟩
        refine (received_delivered (s.deliver v.id e) e asked).subset ?_
        rw [(deliver_of_wants hwants e).2, hid]
        exact List.mem_append_right _ (List.mem_singleton.mpr rfl)
      -- an event for somebody else leaves the session waiting
      · have hrest : (w, true) ∈ asked := (List.mem_cons.mp haccepted).resolve_left fun he =>
          hid (congrArg (fun a : Waiter β × Bool => a.1.id) he).symm
        refine ih (s := s.deliver v.id e) ⟨?_, hw.2⟩ hrest
        by_cases hwants : s.Wants v.id
        · rw [(deliver_of_wants hwants e).1]
          exact List.mem_filter.mpr ⟨hw.1, bne_iff_ne.mpr (Ne.symm hid)⟩
        · rw [deliver_of_not_wants hwants]
          exact hw.1

end Sessions

namespace Scheduler

variable {B : Behaviours β σ} {m : Scheduler β σ} {h h₁ : Hub β σ} {c : EventContext}

/-! ## The offering -/

/-- **A session whose matcher panics** leads to what follows an offering that
has panicked. Nobody waits on. -/
theorem leads_panic (f : Except Payload Unit → HubProgram β σ α) (kept : List (Waiter β))
    {w : Waiter β} (ws : List (Waiter β)) (hm : m.hub = h.withSessions m.hub.sessions)
    (hw : w.SparesSessions B) (hgone : w.abandoned = false) {p : Payload}
    (hp : h.evaluate (question B c w) = (.error p, h₁)) :
    ∃ k m', Leads B k m ((offer B c kept (w :: ws)).recover.bind f) h₁ m.hub.sessions.clear
      (f (.error p)) m' := by
  obtain ⟨k, m₁, hl⟩ := leads_next (c := c) f kept ws hm hw hgone
  rw [hp] at hl
  let lost := { m₁ with hub := m₁.hub.loseSessions (w :: ws ++ kept) }
  have halike := lost.alike_wakeSettled
  have hstep : m₁.advance B ((afterQuestion B c kept w ws (.error p)).recover.bind f)
      = (lost.wakeSettled, .running (f (.error p))) := rfl
  have hhub : lost.wakeSettled.hub = h₁.withSessions lost.wakeSettled.hub.sessions :=
    hub_eq_of_withSessions hl.hub lost.wakes_wakeSettled.hub
  exact ⟨k + 1, lost.wakeSettled, hl.trans <| .step hstep lost.wakes_wakeSettled.tasks <|
    Leads.congr (.here hhub)
      ⟨halike.sessions.waiters, halike.sessions.received.trans hl.sessions.received⟩⟩

/-- **An offering that breaks off** leads to what follows a panic. Nobody
waits then, and whoever has accepted the event has received it. -/
theorem leads_breaksOff {e : Event} {next : Beginning β → HubProgram β σ α}
    {f : Beginning β → Except Payload Unit → HubProgram β σ α}
    {asked : List (Waiter β × Bool)} {w : Waiter β} {later : List (Waiter β)} {p : Payload}
    (hnext : ∀ b, next b = (resumeSessions B b.context).recover.bind (f b))
    (hbreaks : m.hub.BreaksOff B e asked w later p h)
    (hasked : ∀ a ∈ asked, a.1.SparesSessions B) (hw : w.SparesSessions B) :
    ∃ k m', Leads B k m (.call (.start e) next) h (m.hub.sessions.delivered e asked).clear
      (f (m.hub.start e).1 (.error p)) m' := by
  obtain ⟨h₁, hasks, hp⟩ := hbreaks.panics
  obtain ⟨m₁, hbegun⟩ := leads_held (e := e) (m := m) hnext
  obtain ⟨ws, k, m₂, hws, hanswered⟩ :=
    leads_asked hasks (f (m.hub.start e).1) [] hbreaks.waiting hasked hbegun.hub
  obtain ⟨gone, more, rfl, hgone, hpresent, -⟩ := List.filter_eq_cons_iff.mp hws
  rw [offer_append (by simpa using hgone)] at hanswered
  obtain ⟨k', m', hpanicked⟩ := leads_panic (f (m.hub.start e).1) _ more hanswered.hub hw
    (by simpa using hpresent) hp
  have hdelivered := (hbegun.sessions.delivered e asked).trans hanswered.sessions
  exact ⟨_, m', hbegun.trans (hanswered.trans (hpanicked.congr (hdelivered.apply .cleared)))⟩

/-- A dispatch that is recovered from goes on to its listeners after an
offering, and ends with a panic of it. -/
theorem dispatch_recover_bind (s : DispatchSettings) (e : Event)
    (f : Except Payload (Except DispatchError DispatchResult) → HubProgram β σ α) :
    (Switchboard.dispatch B s e).recover.bind f
      = .call (.start e) fun b => (resumeSessions B b.context).recover.bind fun
          | .ok _ => (afterOffering B s b).recover.bind f
          | .error p => f (.error p) := by
  refine congrArg (Program.call (S := hubCalls β σ) (.start e)) (funext fun b => ?_)
  show ((resumeSessions B b.context).bind fun _ => afterOffering B s b).recover.bind f = _
  rw [Program.recover_bind, Program.bind_assoc]
  refine congrArg _ (funext fun r => ?_)
  cases r <;> rfl

/-! ## What has become of the sessions -/

/-- A program that walks draws identifiers, if any. -/
theorem Walks.drawn_le {k : Nat} {m' : Scheduler β σ} {p p' : HubProgram β σ α}
    (hw : Walks B k m p m' p') : m.hub.drawn ≤ m'.hub.drawn := by
  have hdrawn := drawn_le_steps B none k m (.main p)
  rwa [hw.steps_main none] at hdrawn

section Broken

variable {m' : Scheduler β σ} {e : Event} {asked : List (Waiter β × Bool)} {s : Id}

/-- Whoever is asked before the offering breaks off waits for its event. -/
theorem waiting_of_asked {w : Waiter β} {later : List (Waiter β)} {p : Payload}
    (hbreaks : m.hub.BreaksOff B e asked w later p h) {a : Waiter β × Bool} (ha : a ∈ asked) :
    a.1 ∈ m.hub.sessions.waiters ∧ a.1.abandoned = false := by
  have hmem : a.1 ∈ m.hub.sessions.waiters.filter (!·.abandoned) := by
    rw [hbreaks.waiting]
    exact List.mem_append_left _ (List.mem_map_of_mem ha)
  obtain ⟨hmem, hgone⟩ := List.mem_filter.mp hmem
  exact ⟨hmem, by simpa using hgone⟩

/-- A session that has accepted the event before the panic has received it. -/
theorem status_of_accepted {w : Waiter β} {later : List (Waiter β)} {p : Payload}
    (hbreaks : m.hub.BreaksOff B e asked w later p h)
    (hs : m.hub.sessions.status s = .waiting)
    (hreceived : (m.hub.sessions.delivered e asked).clear.Agree m'.hub.sessions)
    (haccepted : AcceptedIn asked s) : m'.hub.sessions.status s = .received e := by
  have hmem : m'.hub.sessions.received = (m.hub.sessions.delivered e asked).received :=
    hreceived.received
  obtain ⟨v, hv, rfl⟩ := haccepted
  refine Sessions.status_eq_received (hmem ▸ Sessions.mem_received_delivered
    (waiting_of_asked hbreaks hv) hv) fun x hx hid => ?_
  rcases Sessions.of_mem_received_delivered (hmem ▸ hx) with hold | hnew
  · exact absurd hid ((Sessions.status_eq_waiting_iff.mp hs).1 x hold)
  · exact hnew.2

/-- **Any other session is gone.** -/
theorem within_lost (hs : m.hub.sessions.status s = .waiting)
    (hreceived : (m.hub.sessions.delivered e asked).clear.Agree m'.hub.sessions)
    (hrefused : ¬AcceptedIn asked s) : m'.hub.sessions.Within (· ≠ s) := by
  refine Sessions.Within.congr ⟨fun _ hw => absurd hw List.not_mem_nil, fun x hx => ?_⟩ hreceived
  rcases Sessions.of_mem_received_delivered (show x ∈ (m.hub.sessions.delivered e asked).received
    from hx) with hold | ⟨haccepted, -⟩
  · exact (Sessions.status_eq_waiting_iff.mp hs).1 x hold
  · exact fun hid => hrefused (hid ▸ haccepted)

end Broken

/-- **A matcher that panics closes the sessions** that have not accepted the
event by then. Take a scheduler that a fresh one has become in whatever way,
and an event whose offering to the sessions breaks off. The sessions that are
asked, and the one whose matcher panics, are such that their matchers do not
open or cancel sessions themselves.

A dispatch of the event panics with the payload of the matcher before anybody
else has a turn, whoever recovers from that. It attends to no listener: of the
hub nothing changes but what the matchers have done, and the sessions. No
session waits any more, of those before and of those behind the one whose
matcher has panicked. From then on, whatever happens, a session that was
pending has received the event if it has accepted it. Otherwise it is closed
for whoever waits for it, be its time up or not, and no dispatch asks it
again. The room is for the identifiers of sessions, which would be given out a
second time beyond it. -/
theorem matcher_panic_closes {registry : Registry β} {settings s : DispatchSettings} {memory : σ}
    {x : HubTrace β σ} {e : Event} {asked : List (Waiter β × Bool)} {w : Waiter β}
    {later : List (Waiter β)} {p : Payload}
    (hm : Becomes B (.fresh (.fresh registry settings memory)) x m)
    (hbreaks : m.hub.BreaksOff B e asked w later p h)
    (hasked : ∀ a ∈ asked, a.1.SparesSessions B) (hw : w.SparesSessions B)
    (f : Except Payload (Except DispatchError DispatchResult) → HubProgram β σ α) :
    ∃ k m', Walks B k m ((Switchboard.dispatch B s e).recover.bind f) m' (f (.error p)) ∧
      m'.hub = h.withSessions m'.hub.sessions ∧ m'.tasks = m.tasks ∧
      m'.hub.sessions.waiters = [] ∧
      ∀ y m'', Becomes B m' y m'' → ∀ id, m.hub.sessions.status id = .waiting →
        ∀ deadline timeout,
        (AcceptedIn asked id →
          m''.reply? deadline (.session id timeout) = some (.ok e, m'')) ∧
        (¬AcceptedIn asked id → m''.hub.drawn ≤ Number.twoTo 122 →
          m''.reply? deadline (.session id timeout) = some (.error (.closed id), m'') ∧
          ∀ v ∈ m''.hub.sessions.waiters, v.id ≠ id) := by
  rw [dispatch_recover_bind]
  obtain ⟨k, m', hl⟩ := leads_breaksOff (f := fun b r => match r with
    | .ok _ => (afterOffering B s b).recover.bind f
    | .error p => f (.error p)) (fun _ => rfl) hbreaks hasked hw
  refine ⟨k, m', hl.walks, hl.hub, hl.tasks, hl.sessions.waiters, ?_⟩
  intro y m'' hb id hid deadline timeout
  refine ⟨fun haccepted => ?_, fun hrefused hroom => ?_⟩
  · have hstatus := Sessions.status_of_kept
      (status_of_accepted hbreaks hid hl.sessions haccepted) hb.keeps_received
    rw [reply?, hstatus]
  · obtain ⟨a, ha, hdrawn⟩ := drawn_of_waiting (within_drawn hm) hid
    have hgone := hb.gone (within_lost hid hl.sessions hrefused)
      ⟨a, Nat.lt_of_lt_of_le ha hl.walks.drawn_le, hdrawn⟩ hroom
    exact ⟨reply?_of_gone hgone deadline timeout, hgone.waiters⟩

end Scheduler

open Scheduler

/-- Code whose sessions accept an event at once, or from the second dispatch
on, or panic, as they are named. -/
def Behaviours.startled : Behaviours (Option Bool) Unit where
  filter _ _ := .done true
  matcher
    | some atOnce, c => .done (atOnce || 0 < c.index)
    | none, _ => .panic (.text "eh")
  handler _ _ := .done .nothing
  listenerInterceptor _ _ := .call .proceed .done
  processingInterceptor _ _ := .call .proceed .done
  onFailure := none

/-- Opens sessions with these matchers. -/
def Program.openingAll {β σ : Type} : List β → Program (userCalls β σ) Unit
  | [] => .done ()
  | k :: ks => .call (.request (.openSession false k)) fun _ => openingAll ks

/-- A scheduler after sessions with these matchers were opened. -/
def Scheduler.startled (matchers : List (Option Bool)) : Scheduler (Option Bool) Unit :=
  ((fresh (.fresh .empty .default ())).run .startled none
    (HubProgram.ofUser (Program.openingAll matchers))).2

/-- Of four sessions the first accepts the event of a dispatch, the second
refuses it, and the matcher of the third panics. Then the first has received
the event, and all others are closed. -/
theorem matcher_panic_closes_startled :
    let m := Scheduler.startled [some true, some false, none, some true]
    ∃ k m', m.steps .startled none k (.main (dispatch .startled .default .bare))
        = (m', .ended (.error (.text "eh"))) ∧
      m'.hub.sessions.waiters = [] ∧
      ∀ deadline timeout,
        m'.reply? deadline (.session (.ofEntropy 0) timeout) = some (.ok .bare, m') ∧
        ∀ k ∈ [1, 2, 3], m'.reply? deadline (.session (.ofEntropy k) timeout)
          = some (.error (.closed (.ofEntropy k)), m') := by
  intro m
  let v (k : Nat) (matcher : Option Bool) : Waiter (Option Bool) :=
    ⟨.ofEntropy k, false, matcher, false⟩
  let asked := [(v 0 (some true), true), (v 1 (some false), false)]
  have hm : Becomes .startled (.fresh (.fresh .empty .default ())) _ m :=
    becomes_run _ _ none
  have hbreaks : m.hub.BreaksOff .startled .bare asked (v 2 none) [v 3 (some true)] (.text "eh")
      (m.hub.start .bare).2 := ⟨rfl, _, .next rfl (.next rfl .nobody), rfl⟩
  have hspares : ∀ k matcher, (v k matcher).SparesSessions Behaviours.startled := by
    intro k matcher c h
    cases matcher <;> trivial
  obtain ⟨k, m', hwalks, hhub, -, hwaiters, hreplies⟩ := matcher_panic_closes (s := .default) hm
    hbreaks (fun a ha => by
      rcases List.mem_pair.mp ha with rfl | rfl <;> exact hspares _ _) (hspares _ _)
    Program.ofExcept
  have hpending : ∀ k ∈ [0, 1, 2, 3], m.hub.sessions.status (.ofEntropy k) = .waiting := by
    intro k hk
    have hwaits : (Id.ofEntropy k) ∈ m.hub.sessions.waiters.map (·.id) := List.mem_map_of_mem hk
    exact Sessions.status_eq_waiting_iff.mpr
      ⟨fun x hx => absurd hx List.not_mem_nil, List.mem_map.mp hwaits⟩
  have hrefused : ∀ k ∈ [1, 2, 3], ¬AcceptedIn asked (.ofEntropy k) := by
    rintro k hk ⟨w, hw, hid⟩
    obtain rfl : w = v 0 (some true) := by simpa [asked] using hw
    have hroom : k < Number.twoTo 122 :=
      Nat.lt_of_le_of_lt (show k ≤ 3 by revert k; decide) (by decide)
    have := Id.ofEntropy_inj (by decide) hroom hid
    exact absurd (this ▸ hk) (by decide)
  have hroom : m'.hub.drawn ≤ Number.twoTo 122 := by
    rw [hhub]
    show 4 ≤ Number.twoTo 122
    decide
  refine ⟨k + 1, m', ?_, hwaiters, fun deadline timeout => ⟨?_, fun k hk => ?_⟩⟩
  · have hpanics := hwalks.steps_main none
    rw [Program.recover_bind_ofExcept] at hpanics
    rw [steps_add, hpanics]
    rfl
  · exact (hreplies _ _ .now _ (hpending 0 (by decide)) deadline timeout).1
      ⟨v 0 (some true), List.mem_cons_self, rfl⟩
  · exact ((hreplies _ _ .now _ (hpending k (List.mem_cons_of_mem _ hk)) deadline timeout).2
      (hrefused k hk) hroom).1

/-- **A matcher that panics loses the sessions of others.** Two sessions that
accept events from the second dispatch on are pending before and behind one
whose matcher panics in the first. This unwinds, and then no session waits,
and the second dispatch is received by nobody. -/
theorem matcher_panic_loses :
    let m := Scheduler.startled [some false, none, some false]
    m.hub.sessions.waiters.map (·.id) = [.ofEntropy 0, .ofEntropy 1, .ofEntropy 2] ∧
      ∃ m₁ m₂ r, m.dispatch .startled none .bare = (some (.error (.text "eh")), m₁) ∧
        m₁.hub.sessions.size = 0 ∧
        m₁.dispatch .startled none .bare = (some (.ok (.ok r)), m₂) ∧
        m₂.hub.sessions.received = [] ∧
        ∀ s, m₁.hub.sessions.status s = .closed ∧ m₂.hub.sessions.status s = .closed :=
  ⟨rfl, _, _, _, rfl, rfl, rfl, rfl, fun _ => ⟨rfl, rfl⟩⟩

end Switchboard
