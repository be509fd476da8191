import Switchboard.Context
import Switchboard.Session

/-!
# What happens to sessions

What happens to the sessions of a hub can be told as a list of **deeds**:
sessions are opened and cancelled, all of them are closed, and their owners
give up. A dispatch that offers its event does a deed whenever a session
receives it, and another one when it lets go of those that wait on.

`Sessions.apply` is what a deed makes of the sessions. Who is to be woken
afterwards is a matter of the scheduler, so sessions are compared by who
waits and who has received what (`Sessions.Agree`).
-/

namespace Switchboard

variable {β : Type}

/-- Something that happens to the sessions of a hub. -/
inductive SessionDeed (β : Type) where
  | opened (s : Id) (forMessages : Bool) (matcher : β)
  | cancelled (s : Id)
  | cleared
  /-- The owner of a session has given up. -/
  | abandoned (s : Id)
  /-- A session is to receive an event. -/
  | delivered (s : Id) (e : Event)
  /-- A dispatch has offered its event, and these sessions wait on. -/
  | kept (ws : List (Waiter β))

namespace Sessions

/-- **What a deed makes of the sessions.** -/
def apply (s : Sessions β) : SessionDeed β → Sessions β
  | .opened id forMessages matcher => s.openNew id forMessages matcher
  | .cancelled id => (s.cancel id).2
  | .cleared => s.clear
  | .abandoned id => s.abandon id
  | .delivered id e => s.deliver id e
  | .kept ws => s.keep ws

/-- What deeds make of the sessions, one after the other. -/
def applyAll (s : Sessions β) (deeds : List (SessionDeed β)) : Sessions β := deeds.foldl apply s

/-- Somebody waits for a session, who has not given up. -/
def Wants (s : Sessions β) (id : Id) : Prop := ∃ w ∈ s.waiters, w.id = id ∧ w.abandoned = false

theorem wants_iff {s : Sessions β} {id : Id} :
    (s.waiters.any fun w => w.id == id && !w.abandoned) = true ↔ s.Wants id := by
  simp [Wants]

/-- A session that is wanted receives the event, and leaves the list. -/
theorem deliver_of_wants {s : Sessions β} {id : Id} (hs : s.Wants id) (e : Event) :
    (s.deliver id e).waiters = s.waiters.filter (·.id != id) ∧
      (s.deliver id e).received = s.received ++ [(id, e)] := by
  unfold deliver
  rw [if_pos (wants_iff.mpr hs)]
  exact ⟨rfl, rfl⟩

/-- To any other one nothing is delivered. -/
theorem deliver_of_not_wants {s : Sessions β} {id : Id} (hs : ¬s.Wants id) (e : Event) :
    s.deliver id e = s :=
  if_neg fun h => hs (wants_iff.mp h)

/-- No event that was received is taken away. -/
theorem received_deliver (s : Sessions β) (id : Id) (e : Event) :
    s.received <+: (s.deliver id e).received := by
  unfold deliver
  split
  · exact List.prefix_append _ _
  · exact List.prefix_refl _

/-- Letting go of sessions drops some of them. -/
theorem waiters_keep (s : Sessions β) (ws : List (Waiter β)) :
    (s.keep ws).waiters = s.waiters.filter fun w => !w.abandoned && ws.any (·.id == w.id) := by
  unfold keep
  rw [List.partition_eq_filter_filter]

/-- Cancelling leaves out who has the identifier, if anybody has. -/
theorem waiters_cancel (s : Sessions β) (id : Id) :
    (s.cancel id).2.waiters = s.waiters.filter (·.id != id) := by
  unfold cancel
  split
  · rfl
  · next hnone =>
    refine (List.filter_eq_self.mpr fun w hw => bne_iff_ne.mpr fun hid => hnone ?_).symm
    exact List.any_eq_true.mpr ⟨w, hw, beq_iff_eq.mpr hid⟩

/-- What was received is received, whatever is done. -/
theorem received_apply (s : Sessions β) (d : SessionDeed β) :
    s.received <+: (s.apply d).received := by
  cases d with
  | cancelled id =>
    show s.received <+: (s.cancel id).2.received
    unfold cancel
    split <;> exact List.prefix_refl _
  | delivered id e => exact s.received_deliver id e
  | _ => exact List.prefix_refl _

/-- A session that has received an event had received it before, or the event is
delivered to it. -/
theorem of_mem_received_apply {s : Sessions β} {d : SessionDeed β} {x : Id × Event}
    (hx : x ∈ (s.apply d).received) : x ∈ s.received ∨ d = .delivered x.1 x.2 := by
  cases d with
  | cancelled id =>
    refine .inl ?_
    change x ∈ (s.cancel id).2.received at hx
    unfold cancel at hx
    split at hx <;> exact hx
  | delivered id e =>
    change x ∈ (s.deliver id e).received at hx
    by_cases hs : s.Wants id
    · rw [(deliver_of_wants hs e).2] at hx
      rcases List.mem_append.mp hx with hx | hx
      · exact .inl hx
      · exact .inr (List.mem_singleton.mp hx ▸ rfl)
    · rw [deliver_of_not_wants hs] at hx
      exact .inl hx
  | _ => exact .inl hx

theorem received_applyAll (s : Sessions β) (deeds : List (SessionDeed β)) :
    s.received <+: (s.applyAll deeds).received := by
  induction deeds generalizing s with
  | nil => exact List.prefix_refl _
  | cons d deeds ih => exact (s.received_apply d).trans (ih _)

theorem applyAll_append (s : Sessions β) (deeds deeds' : List (SessionDeed β)) :
    s.applyAll (deeds ++ deeds') = (s.applyAll deeds).applyAll deeds' :=
  List.foldl_append

/-- The same sessions wait, and the same have received the same. -/
structure Agree (s s' : Sessions β) : Prop where
  waiters : s'.waiters = s.waiters
  received : s'.received = s.received

variable {s s' s'' : Sessions β}

theorem Agree.refl (s : Sessions β) : Agree s s := ⟨rfl, rfl⟩

theorem Agree.trans (h₁ : Agree s s') (h₂ : Agree s' s'') : Agree s s'' :=
  ⟨h₂.waiters.trans h₁.waiters, h₂.received.trans h₁.received⟩

theorem Agree.deliver (h : Agree s s') (id : Id) (e : Event) :
    (s.deliver id e).Agree (s'.deliver id e) := by
  obtain ⟨hw, hr⟩ := h
  unfold Sessions.deliver
  rw [hw]
  split
  · exact ⟨rfl, congrArg (· ++ [(id, e)]) hr⟩
  · exact ⟨hw, hr⟩

/-- A deed does the same to sessions that agree. -/
theorem Agree.apply (h : Agree s s') (d : SessionDeed β) : Agree (s.apply d) (s'.apply d) := by
  obtain ⟨hw, hr⟩ := h
  cases d with
  | opened id forMessages matcher =>
    exact ⟨congrArg (· ++ [_]) hw, hr⟩
  | cancelled id =>
    show Agree (s.cancel id).2 (s'.cancel id).2
    unfold cancel
    rw [hw]
    split
    · exact ⟨rfl, hr⟩
    · exact ⟨hw, hr⟩
  | cleared => exact ⟨rfl, hr⟩
  | abandoned id => exact ⟨congrArg (List.map _) hw, hr⟩
  | delivered id e => exact Agree.deliver ⟨hw, hr⟩ id e
  | kept ws =>
    refine ⟨?_, hr⟩
    show (s'.keep ws).waiters = (s.keep ws).waiters
    rw [waiters_keep, waiters_keep, hw]

theorem Agree.applyAll (h : Agree s s') (deeds : List (SessionDeed β)) :
    Agree (s.applyAll deeds) (s'.applyAll deeds) := by
  induction deeds generalizing s s' with
  | nil => exact h
  | cons d deeds ih => exact ih (h.apply d)

/-! ## What the owner of a session sees -/

section Status

variable {id : Id} {e : Event}

/-- **A session has received an event, or waits, or is closed**, according to
where it is listed. -/
theorem status_cases (s : Sessions β) (id : Id) :
    (∃ e, (id, e) ∈ s.received ∧ s.status id = .received e) ∨
      (∀ x ∈ s.received, x.1 ≠ id) ∧
        ((∃ w ∈ s.waiters, w.id = id) ∧ s.status id = .waiting ∨
          (∀ w ∈ s.waiters, w.id ≠ id) ∧ s.status id = .closed) := by
  unfold status
  cases hfind : s.received.find? (·.1 == id) with
  | some x =>
    have hid : x.1 = id := by simpa using List.find?_some hfind
    exact .inl ⟨x.2, hid ▸ List.mem_of_find?_eq_some hfind, rfl⟩
  | none =>
    refine .inr ⟨by simpa using hfind, ?_⟩
    by_cases hw : ∃ w ∈ s.waiters, w.id = id
    · exact .inl ⟨hw, if_pos (by simpa using hw)⟩
    · exact .inr ⟨by simpa using hw, if_neg (by simpa using hw)⟩

theorem status_eq_waiting_iff :
    s.status id = .waiting ↔ (∀ x ∈ s.received, x.1 ≠ id) ∧ ∃ w ∈ s.waiters, w.id = id := by
  rcases s.status_cases id with ⟨e, hmem, hs⟩ | ⟨hno, ⟨hw, hs⟩ | ⟨hw, hs⟩⟩
  · rw [hs]
    exact iff_of_false (by simp) fun h => h.1 _ hmem rfl
  · exact iff_of_true hs ⟨hno, hw⟩
  · rw [hs]
    exact iff_of_false (by simp) fun ⟨_, w, hmem, hid⟩ => hw w hmem hid

theorem status_eq_closed_iff :
    s.status id = .closed ↔ (∀ x ∈ s.received, x.1 ≠ id) ∧ ∀ w ∈ s.waiters, w.id ≠ id := by
  rcases s.status_cases id with ⟨e, hmem, hs⟩ | ⟨hno, ⟨⟨w, hmem, hid⟩, hs⟩ | ⟨hw, hs⟩⟩
  · rw [hs]
    exact iff_of_false (by simp) fun h => h.1 _ hmem rfl
  · rw [hs]
    exact iff_of_false (by simp) fun h => h.2 w hmem hid
  · exact iff_of_true hs ⟨hno, hw⟩

/-- A session has received an event if it is listed with no other one. -/
theorem status_eq_received (hmem : (id, e) ∈ s.received)
    (honly : ∀ x ∈ s.received, x.1 = id → x.2 = e) : s.status id = .received e := by
  rcases s.status_cases id with ⟨e', hmem', hs⟩ | ⟨hno, -⟩
  · rw [hs, show e' = e from honly _ hmem' rfl]
  · exact absurd rfl (hno _ hmem)

/-- Events that are received later do not change what its owner sees. -/
theorem status_of_kept (h : s.status id = .received e) (hkept : s.received <+: s'.received) :
    s'.status id = .received e := by
  obtain ⟨later, hlater⟩ := hkept
  unfold status at h ⊢
  rw [← hlater, List.find?_append]
  cases hfind : s.received.find? (·.1 == id) with
  | some x => rwa [hfind] at h
  | none =>
    rw [hfind] at h
    have hwait : (if s.waiters.any (·.id == id) then SessionStatus.waiting else .closed)
        = .received e := h
    split at hwait <;> exact absurd hwait (by simp)

end Status

end Sessions

end Switchboard
