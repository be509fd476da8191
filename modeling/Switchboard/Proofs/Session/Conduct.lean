import Switchboard.Proofs.Dispatch.Attendance
import Switchboard.Proofs.Session.Offering

/-!
# What programs do with sessions

To take hold of the list of sessions, to deliver events to them and to let go
of the list are calls that supplied code does not have. Only a dispatch makes
them, all together, when it has begun. So a program that the scheduler runs – a
handler, an interceptor, whatever a caller wants done – leaves the sessions
alone but for requests, and offers its event to them whenever it begins a
dispatch (`Program.Calm`). Supplied code is calm, whatever it does, and a
program put together from calm ones is calm.
-/

namespace Switchboard

variable {β σ α γ : Type} {B : Behaviours β σ}

open HubProgram

namespace HubCall

/-- Whether a call is no part of the beginning of a dispatch. -/
def isPlain : HubCall β σ → Bool
  | start _ => false
  | holdSessions => false
  | keepSessions _ => false
  | loseSessions _ => false
  | deliver _ _ => false
  | _ => true

/-- The event of a dispatch that a call begins. -/
def begins? : HubCall β σ → Option Event
  | start e => some e
  | _ => none

end HubCall

/-- An exchange that is no part of the beginning of a dispatch. -/
def Plain (x : Exchange (hubCalls β σ)) : Prop := x.call.isPlain = true

/-- A dispatch that has begun does not begin again. -/
theorem OfDispatch.plain {i : Nat} {x : Exchange (hubCalls β σ)} (h : OfDispatch i x) :
    Plain x := by
  obtain ⟨c, r⟩ := x
  rcases h with (h | ⟨job, rfl⟩) | h
  · cases c with
    | user c => rfl
    | _ => exact absurd h Bool.false_ne_true
  · rfl
  · cases c with
    | record c o => rfl
    | markTruncated c => rfl
    | _ => exact absurd h (by simp [HubCall.target?])

theorem ByUser.plain {x : Exchange (hubCalls β σ)} (h : ByUser x) : Plain x :=
  OfDispatch.plain (i := 0) (.inl h.ofListener)

namespace Program

/-- **A program is calm**: it makes plain calls, and whenever it begins a
dispatch it first offers the event to the sessions. -/
inductive Calm (B : Behaviours β σ) : HubProgram β σ α → Prop
  | done (a : α) : Calm B (.done a)
  | panic (p : Payload) : Calm B (.panic p)
  | plain {c : HubCall β σ} {next : c.Reply → HubProgram β σ α} : c.isPlain = true →
      (∀ r, (next r).Calm B) → Calm B (.call c next)
  | begins {e : Event} {next : Beginning β → HubProgram β σ α}
      {f : Beginning β → Except Payload Unit → HubProgram β σ α} :
      (∀ b, next b = (resumeSessions B b.context).recover.bind (f b)) →
      (∀ b r, (f b r).Calm B) → Calm B (.call (.start e) next)

variable {p : HubProgram β σ α}

theorem calm_of_only (hp : p.Only Plain) : p.Calm B := by
  induction p with
  | done a => exact .done a
  | panic p => exact .panic p
  | call c next ih =>
    by_cases hc : HubCall.isPlain c = true
    · exact .plain hc fun r => ih r (hp r).2
    · cases c with
      | holdSessions => exact absurd (hp []).1 hc
      | start e => exact absurd (hp ⟨[], [], ⟨0, e⟩⟩).1 hc
      | keepSessions ws => exact absurd (hp ()).1 hc
      | loseSessions ws => exact absurd (hp ()).1 hc
      | deliver s e => exact absurd (hp ()).1 hc
      | _ => exact absurd rfl hc

theorem calm_bind {f : α → HubProgram β σ γ} (hp : p.Calm B) (hf : ∀ a, (f a).Calm B) :
    (p.bind f).Calm B := by
  induction hp with
  | done a => exact hf a
  | panic p => exact .panic p
  | plain hc _ ih => exact .plain hc ih
  | @begins e next g hnext _ ih =>
    refine .begins (f := fun b r => (g b r).bind f) (fun b => ?_) ih
    rw [hnext, bind_assoc]

theorem calm_recover (hp : p.Calm B) : p.recover.Calm B := by
  induction hp with
  | done a => exact .done _
  | panic p => exact .done _
  | plain hc _ ih => exact .plain hc ih
  | @begins e next g hnext _ ih =>
    refine .begins (f := fun b r => (g b r).recover) (fun b => ?_) ih
    rw [hnext, recover_recover_bind]

/-- Supplied code is calm. -/
theorem calm_ofUser (p : Program (userCalls β σ) α) : (HubProgram.ofUser p).Calm B :=
  calm_of_only ((only_ofUser p).mono fun _ => ByUser.plain)

/-- So is a handler that runs on its own. -/
theorem calm_runJob (s : DispatchSettings) (job : Job β) : (runJob B s job).Calm B :=
  calm_of_only ((only_runJob B s job).mono fun _ => ByUser.plain)

/-- **A dispatch is calm**, whatever its listeners and interceptors do. -/
theorem calm_dispatch (s : DispatchSettings) (e : Event) :
    (Switchboard.dispatch B s e).Calm B := by
  have hrest : ∀ b : Beginning β, (afterOffering B s b).Calm B := fun b =>
    calm_of_only ((only_afterOffering B s b).mono fun _ => OfDispatch.plain)
  refine .begins (fun b => bind_eq_recover_bind _ _) fun b r => ?_
  cases r with
  | ok u => exact hrest b
  | error p => exact .panic p

/-- A calm program makes a plain call next, unless it begins a dispatch. -/
theorem Calm.isPlain (hp : p.Calm B) {c : HubCall β σ} (hc : p.call? = some c)
    (hb : c.begins? = none) : c.isPlain = true := by
  cases hp with
  | done a => exact absurd hc (by simp [call?])
  | panic p => exact absurd hc (by simp [call?])
  | plain hplain _ =>
    cases hc
    exact hplain
  | begins _ _ =>
    cases hc
    exact absurd hb (by simp [HubCall.begins?])

/-- A calm program that begins a dispatch offers the event first. -/
theorem Calm.of_begins (hp : p.Calm B) {e : Event} (hb : p.call?.bind HubCall.begins? = some e) :
    ∃ (next : Beginning β → HubProgram β σ α)
      (f : Beginning β → Except Payload Unit → HubProgram β σ α), p = .call (.start e) next ∧
      (∀ b, next b = (resumeSessions B b.context).recover.bind (f b)) ∧
      ∀ b r, (f b r).Calm B := by
  cases hp with
  | done a => exact absurd hb (by simp [call?])
  | panic p => exact absurd hb (by simp [call?])
  | @plain c next hplain _ =>
    cases c with
    | start e => exact absurd hplain Bool.false_ne_true
    | _ => exact absurd hb (by simp [call?, HubCall.begins?])
  | @begins e' next f hnext hf =>
    obtain rfl : e' = e := Option.some.inj hb
    exact ⟨next, f, rfl, hnext, hf⟩

end Program

namespace Scheduler

variable {m m' : Scheduler β σ} {p q : HubProgram β σ α}

/-- **A calm program stays calm** in a step by which it does not begin a
dispatch. -/
theorem Advanced.calm (h : Advanced B m p m' (.running q)) (hp : p.Calm B)
    (hb : p.call?.bind HubCall.begins? = none) : q.Calm B := by
  cases h with
  | served hserved =>
    cases hp with
    | plain _ hnext => exact hnext _
    | begins _ _ => exact absurd hb (by simp [Program.call?, HubCall.begins?])
  | waited hk =>
    cases hp with
    | plain _ hnext => exact hnext _
  | inner =>
    cases hp with
    | plain _ hnext =>
      exact Program.calm_bind (Program.calm_recover (Program.calm_dispatch _ _)) fun r => hnext r

/-- A calm program that waits is calm when it goes on. -/
theorem calm_of_wait {w : Wait} {next : w.Reply → HubProgram β σ α}
    (hp : Program.Calm B (.call (.user (.wait w)) next)) (r : w.Reply) : (next r).Calm B := by
  cases hp with
  | plain _ hnext => exact hnext r

end Scheduler

end Switchboard
