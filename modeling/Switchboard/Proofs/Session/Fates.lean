import Mathlib.Data.List.Induction
import Switchboard.Proofs.Session.Deeds

/-!
# How sessions end

A session is pending from when it is opened until the first deed that ends
it: it receives an event, it is cancelled, all sessions are closed, or its
owner gives up. Whatever is done later does not concern it
(`SessionFate.next`). So the deeds alone say what has become of a session,
and it has become one thing of it (`fate`).

The sessions of a hub say the same, although they say it in three places:
who is listed as waiting, who is marked as abandoned among those, and who
has received an event (`Sessions.Tells`). It takes no more than that every
session that is opened is a new one (`Orderly`).
-/

namespace Switchboard

variable {β : Type}

/-- How a session has ended. -/
inductive SessionEnding where
  | received (e : Event)
  | closed
  /-- Its owner has given up. -/
  | abandoned

/-- What has become of a session. -/
inductive SessionFate where
  | unopened
  | pending
  | ended (how : SessionEnding)

namespace SessionDeed

variable {s : Id}

/-- The session a deed opens. -/
def opening? : SessionDeed β → Option (Waiter β)
  | opened s forMessages matcher => some ⟨s, forMessages, matcher, false⟩
  | _ => none

/-- How a deed ends a session that is pending. -/
def ending? (s : Id) : SessionDeed β → Option SessionEnding
  | opened .. => none
  | cancelled s' => if s' = s then some .closed else none
  | cleared => some .closed
  | abandoned s' => if s' = s then some .abandoned else none
  | delivered s' e => if s' = s then some (.received e) else none
  | kept ws => if ws.any (·.id == s) then none else some .closed

end SessionDeed

namespace SessionFate

/-- **What a deed makes of a fate.** -/
def next (s : Id) : SessionFate → SessionDeed β → SessionFate
  | unopened, d => if d.opening?.any (·.id == s) then pending else unopened
  | pending, d => (d.ending? s).elim pending ended
  | ended how, _ => ended how

/-- Whether a session is pending. -/
def isPending : SessionFate → Bool
  | pending => true
  | _ => false

theorem isPending_iff {f : SessionFate} : f.isPending = true ↔ f = .pending := by
  cases f <;> simp [isPending]

end SessionFate

/-- **What has become of a session** after some deeds. -/
def fate (deeds : List (SessionDeed β)) (s : Id) : SessionFate :=
  deeds.foldl (SessionFate.next s) .unopened

/-- The sessions that some deeds open, in order. -/
def openings (deeds : List (SessionDeed β)) : List (Waiter β) := deeds.filterMap (·.opening?)

/-- **The sessions that are pending** after some deeds, in the order in
which they were opened. -/
def pending (deeds : List (SessionDeed β)) : List (Waiter β) :=
  (openings deeds).filter fun w => (fate deeds w.id).isPending

section Fates

variable {deeds deeds' : List (SessionDeed β)} {d : SessionDeed β} {s : Id} {w : Waiter β}

theorem fate_append_singleton : fate (deeds ++ [d]) s = (fate deeds s).next s d := by
  unfold fate
  rw [List.foldl_append]
  rfl

theorem openings_append_singleton :
    openings (deeds ++ [d]) = openings deeds ++ d.opening?.toList := by
  unfold openings
  rw [List.filterMap_append]
  cases h : d.opening? with
  | none => rw [List.filterMap_cons_none h, List.filterMap_nil, Option.toList_none]
  | some w => rw [List.filterMap_cons_some h, List.filterMap_nil, Option.toList_some]

/-- **A session that has ended has ended for good.** -/
theorem fate_append_of_ended {how : SessionEnding} (h : fate deeds s = .ended how) :
    fate (deeds ++ deeds') s = .ended how := by
  unfold fate at *
  rw [List.foldl_append, h]
  induction deeds' with
  | nil => rfl
  | cons d deeds' ih => exact ih

/-- A session has ended so if it had before, or if the deed ends it so. -/
theorem fate_append_eq_ended_iff {how : SessionEnding} :
    fate (deeds ++ [d]) s = .ended how ↔
      fate deeds s = .ended how ∨ fate deeds s = .pending ∧ d.ending? s = some how := by
  rw [fate_append_singleton]
  cases fate deeds s with
  | unopened =>
    show (if d.opening?.any (·.id == s) then SessionFate.pending else .unopened) = _ ↔ _
    split <;> simp
  | pending => cases h : d.ending? s <;> simp [SessionFate.next, h]
  | ended how => simp [SessionFate.next]

/-- A session is unopened if no deed opens it. -/
theorem fate_eq_unopened_iff : fate deeds s = .unopened ↔ s ∉ (openings deeds).map (·.id) := by
  have key : ∀ (deeds : List (SessionDeed β)) f, deeds.foldl (SessionFate.next s) f = .unopened ↔
      f = .unopened ∧ s ∉ (openings deeds).map (·.id) := by
    intro deeds
    induction deeds with
    | nil => simp [openings]
    | cons d deeds ih =>
      intro f
      have hopen : (openings (d :: deeds)).map (·.id)
          = d.opening?.toList.map (·.id) ++ (openings deeds).map (·.id) := by
        unfold openings
        cases h : d.opening? with
        | none => rw [List.filterMap_cons_none h]; rfl
        | some w => rw [List.filterMap_cons_some h]; rfl
      rw [List.foldl_cons, ih, hopen, List.mem_append, not_or, ← and_assoc]
      refine and_congr_left' ?_
      cases f with
      | unopened =>
        cases h : d.opening? with
        | none => simp [SessionFate.next, h]
        | some w =>
          by_cases hw : w.id = s
          · simp [SessionFate.next, h, hw]
          · simp [SessionFate.next, h, hw, Ne.symm hw]
      | pending => cases h : d.ending? s <;> simp [SessionFate.next, h]
      | ended how => simp [SessionFate.next]
  exact (key deeds .unopened).trans (and_iff_right rfl)

theorem mem_pending_iff : w ∈ pending deeds ↔ w ∈ openings deeds ∧ fate deeds w.id = .pending := by
  unfold pending
  rw [List.mem_filter, SessionFate.isPending_iff]

end Fates

/-- Deeds end a session as the first of them does that finds it pending. -/
theorem fate_eq_ended_iff {deeds : List (SessionDeed β)} {s : Id} {how : SessionEnding} :
    fate deeds s = .ended how ↔
      ∃ before d later, deeds = before ++ d :: later ∧ fate before s = .pending ∧
        d.ending? s = some how := by
  constructor
  · intro hf
    induction deeds using List.reverseRecOn with
    | nil => exact absurd hf (by simp [fate])
    | append_singleton deeds d ih =>
      rcases fate_append_eq_ended_iff.mp hf with hf | ⟨hpending, hending⟩
      · obtain ⟨before, d', later, rfl, hrest⟩ := ih hf
        exact ⟨before, d', later ++ [d], by simp, hrest⟩
      · exact ⟨deeds, d, [], rfl, hpending, hending⟩
  · rintro ⟨before, d, later, rfl, hpending, hending⟩
    rw [List.append_cons]
    exact fate_append_of_ended (fate_append_eq_ended_iff.mpr (.inr ⟨hpending, hending⟩))

/-- While an event is offered and owners give up, a session that is pending
receives the event, or is given up, or stays pending. -/
theorem fate_append_of_offering {deeds deeds' : List (SessionDeed β)} {s : Id} {e : Event}
    (hd : ∀ d ∈ deeds', (∃ s, d = .abandoned s) ∨ ∃ s, d = .delivered s e)
    (hf : fate deeds s = .pending) :
    fate (deeds ++ deeds') s = .pending ∧ .delivered s e ∉ deeds' ∨
      fate (deeds ++ deeds') s = .ended .abandoned ∨
      fate (deeds ++ deeds') s = .ended (.received e) ∧ .delivered s e ∈ deeds' := by
  induction deeds' generalizing deeds with
  | nil => exact .inl ⟨(List.append_nil deeds).symm ▸ hf, List.not_mem_nil⟩
  | cons d deeds' ih =>
    obtain ⟨hfirst, hd⟩ := List.forall_mem_cons.mp hd
    rw [List.append_cons]
    -- another session is concerned, so this one is still pending
    have hgoes : fate (deeds ++ [d]) s = .pending → .delivered s e ≠ d →
        fate (deeds ++ [d] ++ deeds') s = .pending ∧ .delivered s e ∉ d :: deeds' ∨
          fate (deeds ++ [d] ++ deeds') s = .ended .abandoned ∨
          fate (deeds ++ [d] ++ deeds') s = .ended (.received e) ∧
            .delivered s e ∈ d :: deeds' := by
      intro hf hne
      rcases ih hd hf with ⟨hf, hno⟩ | hf | ⟨hf, hmem⟩
      · exact .inl ⟨hf, fun h => (List.mem_cons.mp h).elim hne hno⟩
      · exact .inr (.inl hf)
      · exact .inr (.inr ⟨hf, List.mem_cons_of_mem _ hmem⟩)
    have hnext : fate (deeds ++ [d]) s = (d.ending? s).elim .pending .ended := by
      rw [fate_append_singleton, hf]
      rfl
    rcases hfirst with ⟨s', rfl⟩ | ⟨s', rfl⟩
    · by_cases hs : s' = s
      · subst hs
        refine .inr (.inl (fate_append_of_ended ?_))
        rw [hnext]
        simp [SessionDeed.ending?]
      · refine hgoes ?_ (by simp)
        rw [hnext]
        simp [SessionDeed.ending?, hs]
    · by_cases hs : s' = s
      · subst hs
        refine .inr (.inr ⟨fate_append_of_ended ?_, List.mem_cons_self⟩)
        rw [hnext]
        simp [SessionDeed.ending?]
      · refine hgoes ?_ fun he => hs (SessionDeed.delivered.inj he).1.symm
        rw [hnext]
        simp [SessionDeed.ending?, hs]

/-- Where no session is opened, those that are pending were pending before. -/
theorem pending_append_of_openings {deeds deeds' : List (SessionDeed β)}
    (h : openings deeds' = []) :
    pending (deeds ++ deeds')
      = (pending deeds).filter fun w => (fate (deeds ++ deeds') w.id).isPending := by
  have hopen : openings (deeds ++ deeds') = openings deeds := by
    unfold openings at *
    rw [List.filterMap_append, h, List.append_nil]
  unfold pending
  rw [hopen, List.filter_filter]
  refine List.filter_congr fun w hw => ?_
  cases hf : fate deeds w.id with
  | unopened => exact absurd (List.mem_map_of_mem hw) (fate_eq_unopened_iff.mp hf)
  | pending => exact (Bool.and_true _).symm
  | ended how =>
    rw [fate_append_of_ended hf]
    rfl

/-! ## Orderly deeds -/

/-- **The sessions that some deeds open are different ones.** -/
def Orderly (deeds : List (SessionDeed β)) : Prop := ((openings deeds).map (·.id)).Nodup

section Orderly

variable {deeds deeds' : List (SessionDeed β)} {d : SessionDeed β}

theorem Orderly.of_append (h : Orderly (deeds ++ deeds')) : Orderly deeds := by
  unfold Orderly openings at *
  rw [List.filterMap_append, List.map_append] at h
  exact (List.nodup_append.mp h).1

/-- Sessions that are pending are different ones. -/
theorem Orderly.nodup_pending (h : Orderly deeds) : ((pending deeds).map (·.id)).Nodup :=
  h.sublist (List.filter_sublist.map _)

/-- Deeds stay orderly as long as every session that is opened is a new
one. -/
theorem orderly_append_singleton_iff :
    Orderly (deeds ++ [d]) ↔
      Orderly deeds ∧ ∀ w, d.opening? = some w → w.id ∉ (openings deeds).map (·.id) := by
  unfold Orderly
  rw [openings_append_singleton, List.map_append, List.nodup_append]
  cases d.opening? with
  | none => simp
  | some w =>
    refine and_congr_right fun _ => ⟨fun h v hv hmem => ?_,
      fun h => ⟨List.nodup_cons.mpr ⟨List.not_mem_nil, List.nodup_nil⟩, fun a ha b hb hab => ?_⟩⟩
    · obtain rfl := Option.some.inj hv
      exact h.2 _ hmem _ (List.mem_singleton.mpr rfl) rfl
    · obtain rfl : b = w.id := List.mem_singleton.mp hb
      exact h w rfl (hab ▸ ha)

/-- **What is pending after one more deed**: what was pending and is not
ended by the deed, and then the session it opens. -/
theorem pending_append_singleton (h : Orderly (deeds ++ [d])) :
    pending (deeds ++ [d])
      = ((pending deeds).filter fun w => (d.ending? w.id).isNone) ++ d.opening?.toList := by
  unfold pending
  rw [openings_append_singleton, List.filter_append, List.filter_filter]
  congr 1
  · refine List.filter_congr fun w hw => ?_
    rw [fate_append_singleton]
    cases hf : fate deeds w.id with
    | unopened => exact absurd (List.mem_map_of_mem hw) (fate_eq_unopened_iff.mp hf)
    | pending => cases h : d.ending? w.id <;> simp [SessionFate.next, SessionFate.isPending, h]
    | ended how => simp [SessionFate.next, SessionFate.isPending]
  · refine List.filter_eq_self.mpr fun w hw => ?_
    have hopen := Option.mem_toList.mp hw
    have hnew := (orderly_append_singleton_iff.mp h).2 w hopen
    rw [fate_append_singleton, fate_eq_unopened_iff.mpr hnew]
    simp [SessionFate.next, SessionFate.isPending, Option.mem_def.mp hopen]

end Orderly

/-! ## What the sessions of a hub tell -/

/-- **The sessions of a hub tell what has become of each of them**: who
waits and is not abandoned is pending, who waits and is abandoned has ended
so, and who has received an event has ended so. -/
structure Sessions.Tells (s : Sessions β) (deeds : List (SessionDeed β)) : Prop where
  waiting : s.waiters.filter (!·.abandoned) = pending deeds
  given_up : ∀ w ∈ s.waiters, w.abandoned = true → fate deeds w.id = .ended .abandoned
  received : ∀ id e, (id, e) ∈ s.received ↔ fate deeds id = .ended (.received e)

namespace Sessions

variable {s : Sessions β} {deeds : List (SessionDeed β)} {d : SessionDeed β}

theorem tells_empty : (empty : Sessions β).Tells [] where
  waiting := rfl
  given_up := fun w hw => absurd hw List.not_mem_nil
  received := fun id e => ⟨fun h => absurd h List.not_mem_nil, fun h => absurd h (by simp [fate])⟩

/-- A deed by which no event is delivered. -/
theorem Tells.received_of_silent (h : s.Tells deeds) {s' : Sessions β}
    (hs : s'.received = s.received) (hd : ∀ id e, d.ending? id ≠ some (.received e)) :
    ∀ id e, (id, e) ∈ s'.received ↔ fate (deeds ++ [d]) id = .ended (.received e) := by
  intro id e
  rw [hs, h.received, fate_append_eq_ended_iff]
  exact ⟨.inl, fun h => h.resolve_right fun h => hd id e h.2⟩

/-- Who was given up stays so. -/
theorem Tells.given_up_append (h : s.Tells deeds) {w : Waiter β} (hw : w ∈ s.waiters)
    (ha : w.abandoned = true) : fate (deeds ++ [d]) w.id = .ended .abandoned :=
  fate_append_of_ended (h.given_up w hw ha)

/-- Who is pending after a deed can be told from who waited before it. -/
theorem Tells.pending_append_singleton (h : s.Tells deeds) (hd : Orderly (deeds ++ [d])) :
    pending (deeds ++ [d])
      = (s.waiters.filter fun w => (d.ending? w.id).isNone && !w.abandoned)
        ++ d.opening?.toList := by
  rw [Switchboard.pending_append_singleton hd, ← h.waiting, List.filter_filter]

theorem Tells.opened (h : s.Tells deeds) {id : Id} {forMessages : Bool} {matcher : β}
    (hd : Orderly (deeds ++ [.opened id forMessages matcher])) :
    (s.openNew id forMessages matcher).Tells (deeds ++ [.opened id forMessages matcher]) where
  waiting := by
    rw [h.pending_append_singleton hd]
    exact List.filter_append s.waiters [_]
  given_up := by
    intro w hw ha
    rcases List.mem_append.mp hw with hw | hw
    · exact h.given_up_append hw ha
    · rw [List.mem_singleton.mp hw] at ha
      exact absurd ha Bool.false_ne_true
  received := h.received_of_silent rfl fun id e => by simp [SessionDeed.ending?]

theorem Tells.cancelled (h : s.Tells deeds) {id : Id} (hd : Orderly (deeds ++ [.cancelled id])) :
    (s.cancel id).2.Tells (deeds ++ [.cancelled id]) where
  waiting := by
    rw [h.pending_append_singleton hd, waiters_cancel, List.filter_filter]
    refine (List.filter_congr fun w _ => ?_).trans (List.append_nil _).symm
    by_cases hid : id = w.id
    · simp [SessionDeed.ending?, hid]
    · simp [SessionDeed.ending?, hid, Ne.symm hid]
  given_up := by
    intro w hw ha
    rw [waiters_cancel] at hw
    exact h.given_up_append (List.mem_filter.mp hw).1 ha
  received := by
    refine h.received_of_silent ?_ fun id' e => by simp [SessionDeed.ending?]
    unfold cancel
    split <;> rfl

theorem Tells.cleared (h : s.Tells deeds) (hd : Orderly (deeds ++ [.cleared])) :
    s.clear.Tells (deeds ++ [.cleared]) where
  waiting := by
    rw [h.pending_append_singleton hd]
    exact (List.append_eq_nil_iff.mpr
      ⟨List.filter_eq_nil_iff.mpr fun w _ => Bool.false_ne_true, rfl⟩).symm
  given_up := fun w hw => absurd hw List.not_mem_nil
  received := h.received_of_silent rfl fun id e => by simp [SessionDeed.ending?]

/-- A session that waits and is not marked as abandoned is pending. -/
theorem Tells.fate_of_mem (h : s.Tells deeds) {w : Waiter β} (hw : w ∈ s.waiters)
    (ha : w.abandoned = false) : fate deeds w.id = .pending := by
  have hmem : w ∈ s.waiters.filter (!·.abandoned) := List.mem_filter.mpr ⟨hw, by simp [ha]⟩
  rw [h.waiting] at hmem
  exact (mem_pending_iff.mp hmem).2

theorem Tells.abandoned (h : s.Tells deeds) {id : Id} (hd : Orderly (deeds ++ [.abandoned id])) :
    (s.abandon id).Tells (deeds ++ [.abandoned id]) where
  waiting := by
    rw [h.pending_append_singleton hd]
    show List.filter _ (s.waiters.map _) = _ ++ []
    rw [List.append_nil, List.filter_map]
    -- whoever is not marked then was not marked before and is not changed
    have hcond : ∀ w : Waiter β,
        (!(if w.id = id then { w with abandoned := true } else w).abandoned)
          = (((SessionDeed.abandoned id : SessionDeed β).ending? w.id).isNone && !w.abandoned) := by
      intro w
      by_cases hid : id = w.id
      · simp [SessionDeed.ending?, hid]
      · simp [SessionDeed.ending?, hid, Ne.symm hid]
    refine (congrArg (List.map _) (List.filter_congr fun w _ => hcond w)).trans ?_
    refine (List.map_congr_left fun w hw => if_neg fun hid => ?_).trans (List.map_id _)
    have hw := (List.mem_filter.mp hw).2
    simp [SessionDeed.ending?, hid] at hw
  given_up := by
    intro w hw ha
    obtain ⟨w₀, hw₀, rfl⟩ := List.mem_map.mp hw
    by_cases hid : w₀.id = id
    · rw [if_pos hid]
      show fate _ w₀.id = _
      cases hmark : w₀.abandoned with
      | true => exact h.given_up_append hw₀ hmark
      | false =>
        rw [fate_append_singleton, h.fate_of_mem hw₀ hmark]
        simp [SessionFate.next, SessionDeed.ending?, hid]
    · rw [if_neg hid] at ha ⊢
      exact h.given_up_append hw₀ ha
  received := h.received_of_silent rfl fun id' e => by simp [SessionDeed.ending?]

/-- A session is wanted if it is pending. -/
theorem Tells.wants_iff_pending (h : s.Tells deeds) {id : Id} :
    s.Wants id ↔ fate deeds id = .pending := by
  constructor
  · rintro ⟨w, hw, rfl, ha⟩
    exact h.fate_of_mem hw ha
  · intro hf
    have hopen : id ∈ (openings deeds).map (·.id) := Decidable.byContradiction fun hnot => by
      rw [fate_eq_unopened_iff.mpr hnot] at hf
      exact absurd hf (by simp)
    obtain ⟨w, hw, rfl⟩ := List.mem_map.mp hopen
    have hmem := mem_pending_iff.mpr ⟨hw, hf⟩
    rw [← h.waiting] at hmem
    obtain ⟨hw, ha⟩ := List.mem_filter.mp hmem
    exact ⟨w, hw, rfl, by simpa using ha⟩

/-- Whoever waits and is not marked is not the one that an event is delivered
to in vain. -/
theorem Tells.delivered (h : s.Tells deeds) {id : Id} {e : Event}
    (hd : Orderly (deeds ++ [.delivered id e])) :
    (s.deliver id e).Tells (deeds ++ [.delivered id e]) := by
  have hending : ∀ s', (SessionDeed.delivered id e : SessionDeed β).ending? s'
      = if id = s' then some (.received e) else none := fun _ => rfl
  by_cases hs : s.Wants id
  · obtain ⟨hwaiters, hreceived⟩ := deliver_of_wants hs e
    refine ⟨?_, fun w hw ha => ?_, fun id' e' => ?_⟩
    · rw [h.pending_append_singleton hd, hwaiters, List.filter_filter]
      refine (List.filter_congr fun w _ => ?_).trans (List.append_nil _).symm
      rw [hending]
      by_cases hid : id = w.id
      · simp [hid]
      · simp [hid, Ne.symm hid]
    · rw [hwaiters] at hw
      exact h.given_up_append (List.mem_filter.mp hw).1 ha
    · rw [hreceived, fate_append_eq_ended_iff, ← h.received, List.mem_append, List.mem_singleton,
        hending]
      refine or_congr Iff.rfl ⟨?_, ?_⟩
      · rintro ⟨rfl, rfl⟩
        exact ⟨h.wants_iff_pending.mp hs, if_pos rfl⟩
      · rintro ⟨-, hreceived⟩
        split at hreceived
        · next hid =>
          cases hreceived
          exact Prod.ext hid.symm rfl
        · exact absurd hreceived (by simp)
  · rw [deliver_of_not_wants hs]
    refine ⟨?_, fun w => h.given_up_append, fun id' e' => ?_⟩
    · rw [h.pending_append_singleton hd]
      refine (List.filter_congr fun w hw => ?_).trans (List.append_nil _).symm
      rw [hending]
      split
      · next hid =>
        cases ha : w.abandoned with
        | true => rfl
        | false => exact absurd ⟨w, hw, hid.symm, ha⟩ hs
      · rfl
    · rw [fate_append_eq_ended_iff, ← h.received, hending]
      refine (or_iff_left ?_).symm
      rintro ⟨hpending, hreceived⟩
      split at hreceived
      · next hid => exact hs (h.wants_iff_pending.mpr (hid ▸ hpending))
      · exact absurd hreceived (by simp)

theorem Tells.kept (h : s.Tells deeds) {ws : List (Waiter β)}
    (hd : Orderly (deeds ++ [.kept ws])) : (s.keep ws).Tells (deeds ++ [.kept ws]) where
  waiting := by
    rw [h.pending_append_singleton hd, waiters_keep, List.filter_filter]
    refine (List.filter_congr fun w _ => ?_).trans (List.append_nil _).symm
    show _ = ((if ws.any (·.id == w.id) then none else some SessionEnding.closed).isNone
      && !w.abandoned)
    cases w.abandoned <;> cases ws.any (·.id == w.id) <;> rfl
  given_up := by
    intro w hw ha
    rw [waiters_keep] at hw
    have hmark := (Bool.and_eq_true_iff.mp (List.mem_filter.mp hw).2).1
    rw [ha] at hmark
    exact absurd hmark Bool.false_ne_true
  received := by
    refine h.received_of_silent rfl fun id e => ?_
    show (if _ then none else some SessionEnding.closed) ≠ _
    split <;> simp

/-- **One more deed, and the sessions tell what has become of each.** -/
theorem Tells.apply (h : s.Tells deeds) (hd : Orderly (deeds ++ [d])) :
    (s.apply d).Tells (deeds ++ [d]) := by
  cases d with
  | opened id forMessages matcher => exact h.opened hd
  | cancelled id => exact h.cancelled hd
  | cleared => exact h.cleared hd
  | abandoned id => exact h.abandoned hd
  | delivered id e => exact h.delivered hd
  | kept ws => exact h.kept hd

theorem Tells.congr (h : s.Tells deeds) {s' : Sessions β} (hs : s.Agree s') :
    s'.Tells deeds where
  waiting := hs.waiters ▸ h.waiting
  given_up := hs.waiters ▸ h.given_up
  received := hs.received ▸ h.received

/-! ## What owners see -/

/-- **As many sessions are counted** as are pending. -/
theorem Tells.size_eq (h : s.Tells deeds) : s.size = (pending deeds).length := by
  unfold size
  rw [List.countP_eq_length_filter, h.waiting]

/-- Whoever has received an event is known to have received it. -/
theorem Tells.status_of_received (h : s.Tells deeds) {id : Id} {e : Event}
    (hf : fate deeds id = .ended (.received e)) : s.status id = .received e := by
  refine status_eq_received ((h.received id e).mpr hf) ?_
  rintro ⟨id', e'⟩ hx rfl
  cases hf.symm.trans ((h.received id' e').mp hx)
  rfl

/-- Nobody else is. -/
theorem Tells.not_received (h : s.Tells deeds) {id : Id}
    (hf : ∀ e, fate deeds id ≠ .ended (.received e)) : ∀ x ∈ s.received, x.1 ≠ id := by
  rintro ⟨id', e⟩ hx rfl
  exact hf e ((h.received id' e).mp hx)

/-- Whoever is pending is seen to wait. -/
theorem Tells.status_of_pending (h : s.Tells deeds) {id : Id} (hf : fate deeds id = .pending) :
    s.status id = .waiting := by
  obtain ⟨w, hw, hid, -⟩ := h.wants_iff_pending.mpr hf
  exact status_eq_waiting_iff.mpr ⟨h.not_received fun e => by rw [hf]; simp, w, hw, hid⟩

/-- Whoever was closed is seen to be closed. -/
theorem Tells.status_of_closed (h : s.Tells deeds) {id : Id}
    (hf : fate deeds id = .ended .closed) : s.status id = .closed := by
  refine status_eq_closed_iff.mpr ⟨h.not_received fun e => by rw [hf]; simp, ?_⟩
  rintro w hw rfl
  cases ha : w.abandoned with
  | true => exact absurd (hf.symm.trans (h.given_up w hw ha)) (by simp)
  | false => exact absurd (hf.symm.trans (h.fate_of_mem hw ha)) (by simp)

end Sessions

end Switchboard
