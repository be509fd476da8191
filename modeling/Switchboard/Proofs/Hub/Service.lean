import Switchboard.Hub.Basic
import Switchboard.Proofs.Program.Runs

/-!
# Programs in a hub

A run of a program takes its replies from anywhere. In a hub, the calls
that are not waits and inner dispatches are answered by the state of the
hub (`Hub.serve`), and change it. Between two calls of a program, and
while it waits, everybody else can have a turn.

What everybody else can do to a dispatch is little. The outcomes a
dispatch has recorded, and the mark that a listener has ended it, are
written by two calls, and `HubCall.target?` says for which dispatch. Every
other call keeps them (`spares_of_serve`). Code of the user never makes these
calls, and a dispatch makes them for itself alone. So a run of a dispatch
in a hub where others go about their business is a run in which the hub
**spares** the dispatch between its calls: whatever else has changed, what
the dispatch has written is as it was (`Hub.Through`).
-/

namespace Switchboard

variable {β σ α : Type}

/-- The exchanges of a program of the hub, in order. -/
abbrev HubTrace (β σ : Type) := List (Exchange (hubCalls β σ))

/-- The number of the dispatch that a call writes to. -/
def HubCall.target? : HubCall β σ → Option Nat
  | record c _ => some c.index
  | markTruncated c => some c.index
  | _ => none

/-- Whether a call is one of supplied code. -/
def HubCall.isUser : HubCall β σ → Bool
  | user _ => true
  | _ => false

namespace Hub

/-- **What the hub makes of a call**: the reply and the state after it. A
wait and an inner dispatch are answered by what others do. -/
def serve (h : Hub β σ) : (c : HubCall β σ) → Option (c.Reply × Hub β σ)
  | .user (.request r) => some (h.answer r)
  | .user (.wait _) => none
  | .user (.dispatch _) => none
  | .start e => some (h.start e)
  | .holdSessions => some (h.sessions.waiters, h)
  | .keepSessions ws => some ((), h.keepSessions ws)
  | .loseSessions ws => some ((), h.loseSessions ws)
  | .deliver s e => some ((), h.deliver s e)
  | .record c o => some ((), h.record c o)
  | .markTruncated c => some ((), h.markTruncated c)
  | .spawn _ =>
    let (handle, handles) := h.handles.add none
    some (handle, { h with handles })

/-- The hub after a call, as it was if the call is not served. -/
def afterCall (h : Hub β σ) (c : HubCall β σ) : Hub β σ := ((h.serve c).map (·.2)).getD h

theorem eq_afterCall {h h' : Hub β σ} {c : HubCall β σ} {r : c.Reply}
    (hs : h.serve c = some (r, h')) : h' = h.afterCall c := by
  rw [afterCall, hs]
  rfl

/-- What a dispatch has written: its outcomes, and whether a listener has
ended it for later ones. -/
def written (h : Hub β σ) (i : Nat) : Option (List Outcome × Bool) :=
  (h.dispatches[i]?).map fun d => (d.outcomes, d.truncated)

/-- **What a dispatch has written is kept**, whatever else has changed. -/
def Spares (i : Nat) (h h' : Hub β σ) : Prop :=
  ∀ w, h.written i = some w → h'.written i = some w

theorem Spares.refl (i : Nat) (h : Hub β σ) : Spares i h h := fun _ hw => hw

theorem Spares.trans {i : Nat} {h h' h'' : Hub β σ} (h₁ : Spares i h h') (h₂ : Spares i h' h'') :
    Spares i h h'' :=
  fun w hw => h₂ w (h₁ w hw)

theorem spares_of_dispatches_eq {i : Nat} {h h' : Hub β σ} (he : h'.dispatches = h.dispatches) :
    Spares i h h' := by
  intro w hw
  unfold written at *
  rw [he]
  exact hw

/-- A change that leaves outcomes and mark of every dispatch alone spares
all of them. -/
theorem spares_updateDispatch {i : Nat} {h : Hub β σ} {c : EventContext}
    {f : DispatchState → DispatchState}
    (hf : c.index = i → ∀ d, (f d).outcomes = d.outcomes ∧ (f d).truncated = d.truncated) :
    Spares i h (h.updateDispatch c f) := by
  intro w hw
  unfold written updateDispatch at *
  rw [List.getElem?_modify]
  cases hd : h.dispatches[i]? with
  | none => simp [hd] at hw
  | some d =>
    rw [hd] at hw
    by_cases hi : c.index = i
    · obtain ⟨ho, ht⟩ := hf hi d
      simpa [hi, ho, ht] using hw
    · simpa [hi] using hw

/-- A request spares every dispatch. -/
theorem spares_answer (i : Nat) (h : Hub β σ) (r : Request β σ) : Spares i h (h.answer r).2 := by
  cases r with
  | setAttributes s a =>
    cases s with
    | dispatch c => exact spares_updateDispatch fun _ _ => ⟨rfl, rfl⟩
    | shared => exact spares_of_dispatches_eq rfl
  | _ => exact spares_of_dispatches_eq rfl

/-- A dispatch that begins spares those that have begun. -/
theorem spares_start (i : Nat) (h : Hub β σ) (e : Event) : Spares i h (h.start e).2 := by
  intro w hw
  unfold written at *
  cases hd : h.dispatches[i]? with
  | none => simp [hd] at hw
  | some d =>
    have hlt : i < h.dispatches.length := (List.getElem?_eq_some_iff.mp hd).1
    show ((h.dispatches ++ [DispatchState.start])[i]?).map _ = _
    rw [List.getElem?_append_left hlt]
    exact hw

/-- **A call that does not write to a dispatch spares it.** -/
theorem spares_of_serve {i : Nat} {h h' : Hub β σ} {c : HubCall β σ} {r : c.Reply}
    (hs : h.serve c = some (r, h')) (hw : c.target? ≠ some i) : Spares i h h' := by
  obtain rfl := eq_afterCall hs
  cases c with
  | user c =>
    cases c with
    | request q => exact spares_answer i h q
    | _ => exact .refl i h
  | start e => exact spares_start i h e
  | record c o => exact spares_updateDispatch fun hi => absurd (congrArg some hi) hw
  | markTruncated c => exact spares_updateDispatch fun hi => absurd (congrArg some hi) hw
  | _ => exact spares_of_dispatches_eq rfl

/-! ## Runs in a hub -/

/-- The hub makes an exchange. While a program waits, or an inner dispatch
runs, it is others who change the hub. -/
def Makes (h : Hub β σ) (x : Exchange (hubCalls β σ)) (h' : Hub β σ) : Prop :=
  h.serve x.call = some (x.reply, h') ∨ h.serve x.call = none ∧ h' = h

/-- **The hub goes through exchanges**, and spares a dispatch before,
between and after them. -/
def Through (i : Nat) : Hub β σ → HubTrace β σ → Hub β σ → Prop
  | h, [], h' => Spares i h h'
  | h, x :: t, h' => ∃ h₁ h₂, Spares i h h₁ ∧ h₁.Makes x h₂ ∧ Through i h₂ t h'

variable {i : Nat} {h h' h'' : Hub β σ} {t u v : HubTrace β σ}

theorem through_of_spares (hs : Spares i h h') (ht : Through i h' t h'') : Through i h t h'' := by
  cases t with
  | nil => exact hs.trans ht
  | cons x t =>
    obtain ⟨h₁, h₂, h₁s, hx, ht⟩ := ht
    exact ⟨h₁, h₂, hs.trans h₁s, hx, ht⟩

/-- Going through exchanges is going through the first and then through
the rest. -/
theorem through_append_iff :
    Through i h (u ++ v) h'' ↔ ∃ h', Through i h u h' ∧ Through i h' v h'' := by
  induction u generalizing h with
  | nil =>
    constructor
    · intro hv
      exact ⟨h, Spares.refl i h, hv⟩
    · rintro ⟨h', hs, hv⟩
      exact through_of_spares hs hv
  | cons x u ih =>
    constructor
    · rintro ⟨h₁, h₂, hs, hx, huv⟩
      obtain ⟨h', hu, hv⟩ := ih.mp huv
      exact ⟨h', ⟨h₁, h₂, hs, hx, hu⟩, hv⟩
    · rintro ⟨h', ⟨h₁, h₂, hs, hx, hu⟩, hv⟩
      exact ⟨h₁, h₂, hs, hx, ih.mpr ⟨h', hu, hv⟩⟩

/-- Exchanges that do not write to a dispatch spare it. -/
theorem spares_of_through (hw : ∀ x ∈ t, x.call.target? ≠ some i) (ht : Through i h t h') :
    Spares i h h' := by
  induction t generalizing h with
  | nil => exact ht
  | cons x t ih =>
    obtain ⟨h₁, h₂, hs, hx, ht⟩ := ht
    refine hs.trans (Spares.trans ?_ (ih (fun y hy => hw y (List.mem_cons_of_mem x hy)) ht))
    rcases hx with hx | ⟨-, rfl⟩
    · exact spares_of_serve hx (hw x List.mem_cons_self)
    · exact Spares.refl i _

/-- A call that changes what a dispatch has written, and nobody else does. -/
theorem written_of_through_update {c : EventContext} {x : Exchange (hubCalls β σ)}
    {f : DispatchState → DispatchState} {g : List Outcome × Bool → List Outcome × Bool}
    (hserve : ∀ h : Hub β σ, h.serve x.call = some (x.reply, h.updateDispatch c f))
    (hg : ∀ d, ((f d).outcomes, (f d).truncated) = g (d.outcomes, d.truncated))
    (ht : Through c.index h [x] h') {w : List Outcome × Bool}
    (hw : h.written c.index = some w) : h'.written c.index = some (g w) := by
  obtain ⟨h₁, h₂, hs, hx, hs'⟩ := ht
  unfold Makes at hx
  rw [hserve h₁] at hx
  rcases hx with hx | ⟨hx, -⟩
  · obtain rfl : h₁.updateDispatch c f = h₂ := congrArg Prod.snd (Option.some.inj hx)
    refine hs' _ ?_
    obtain ⟨d, hd, rfl⟩ := Option.map_eq_some_iff.mp (hs _ hw)
    unfold written updateDispatch
    rw [List.getElem?_modify_eq, hd, ← hg]
    rfl
  · exact absurd hx (by simp)

/-- **An outcome that is recorded comes after those recorded before.** -/
theorem written_of_through_record {c : EventContext} {o : Outcome} {os : List Outcome} {b : Bool}
    (ht : Through c.index h [⟨.record c o, ()⟩] h') (hw : h.written c.index = some (os, b)) :
    h'.written c.index = some (os ++ [o], b) :=
  written_of_through_update (g := fun w => (w.1 ++ [o], w.2)) (fun _ => rfl) (fun _ => rfl) ht hw

/-- A dispatch that is ended for later listeners is marked. -/
theorem written_of_through_markTruncated {c : EventContext} {os : List Outcome} {b : Bool}
    (ht : Through c.index h [⟨.markTruncated c, ()⟩] h')
    (hw : h.written c.index = some (os, b)) : h'.written c.index = some (os, true) :=
  written_of_through_update (g := fun w => (w.1, true)) (fun _ => rfl) (fun _ => rfl) ht hw

/-- What a dispatch is told it has recorded is what it has recorded. -/
theorem reply_of_through_outcomes {c : EventContext} {os os' : List Outcome} {b : Bool}
    (ht : Through c.index h [⟨.user (.request (.outcomes c)), os'⟩] h')
    (hw : h.written c.index = some (os, b)) : os' = os := by
  obtain ⟨h₁, h₂, hs, hx, -⟩ := ht
  rcases hx with hx | ⟨hx, -⟩
  · have hos : (h₁.dispatchState c).outcomes = os' := congrArg Prod.fst (Option.some.inj hx)
    have hw₁ := hs _ hw
    unfold written at hw₁
    obtain ⟨d, hd, hdw⟩ := Option.map_eq_some_iff.mp hw₁
    cases hdw
    rw [← hos, dispatchState, hd]
    rfl
  · exact absurd hx (by simp [serve])

/-- A dispatch that begins has written nothing. -/
theorem written_start (h : Hub β σ) (e : Event) :
    (h.start e).2.written (h.start e).1.context.index = some ([], false) := by
  show ((h.dispatches ++ [DispatchState.start])[h.dispatches.length]?).map _ = _
  rw [List.getElem?_concat_length]
  rfl

/-- What requests tell about a dispatch is what it has written. -/
theorem dispatchState_of_written {c : EventContext} {os : List Outcome} {b : Bool}
    (hw : h.written c.index = some (os, b)) :
    (h.dispatchState c).outcomes = os ∧ (h.dispatchState c).truncated = b := by
  unfold written at hw
  obtain ⟨d, hd, hdw⟩ := Option.map_eq_some_iff.mp hw
  cases hdw
  rw [dispatchState, hd]
  exact ⟨rfl, rfl⟩

end Hub

end Switchboard
