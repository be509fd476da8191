import Switchboard.Proofs.Hub.Turns

/-!
# Who is woken

A program that waits is not asked again and again whether it can go on. It
has its next turn when it is woken. So whatever brings about what somebody
waits for has to wake whoever does.

A session that stops waiting is *settled* until somebody looks
(`Sessions.Settles`), and whoever waits for a session that is settled is
woken at once. Waking puts tasks at the end of the queue and leaves
everything else alone (`Scheduler.Rouses`).
-/

namespace Switchboard

variable {β σ α : Type}

/-! ## Sessions that stop waiting -/

namespace Sessions

variable {s s' : Sessions β}

/-- **Sessions that stop waiting are settled**, and what is settled stays so
until somebody looks. -/
structure Settles (s s' : Sessions β) : Prop where
  kept : ∀ id ∈ s.settled, id ∈ s'.settled
  waiting : ∀ id, s.status id = .waiting → id ∉ s'.settled → s'.status id = .waiting

theorem Settles.refl (s : Sessions β) : Settles s s := ⟨fun _ h => h, fun _ h _ => h⟩

/-- It is enough to look at who waits and who has received something. -/
theorem settles_of_waiters (hkept : ∀ id ∈ s.settled, id ∈ s'.settled)
    (hwaiters : ∀ w ∈ s.waiters, w.id ∉ s'.settled → ∃ w' ∈ s'.waiters, w'.id = w.id)
    (hreceived : ∀ x ∈ s'.received, x ∈ s.received ∨ x.1 ∈ s'.settled) : Settles s s' := by
  refine ⟨hkept, fun id hid hnot => ?_⟩
  obtain ⟨hno, w, hw, rfl⟩ := status_eq_waiting_iff.mp hid
  obtain ⟨w', hw', he⟩ := hwaiters w hw hnot
  refine status_eq_waiting_iff.mpr ⟨fun x hx hxid => ?_, w', hw', he⟩
  rcases hreceived x hx with hx | hx
  · exact hno x hx hxid
  · exact hnot (hxid ▸ hx)

theorem settles_openNew (s : Sessions β) (id : Id) (forMessages : Bool) (matcher : β) :
    s.Settles (s.openNew id forMessages matcher) :=
  settles_of_waiters (fun _ h => h) (fun _ hw _ => ⟨_, List.mem_append_left _ hw, rfl⟩)
    fun _ hx => .inl hx

theorem settles_cancel (s : Sessions β) (id : Id) : s.Settles (s.cancel id).2 := by
  unfold cancel
  split
  · refine settles_of_waiters (fun _ h => List.mem_append_left _ h) (fun w hw hnot => ?_)
      fun _ hx => .inl hx
    refine ⟨w, List.mem_filter.mpr ⟨hw, bne_iff_ne.mpr fun he => hnot ?_⟩, rfl⟩
    exact List.mem_append_right _ (List.mem_singleton.mpr he)
  · exact .refl s

theorem settles_clear (s : Sessions β) : s.Settles s.clear :=
  settles_of_waiters (fun _ h => List.mem_append_left _ h)
    (fun _ hw hnot => absurd (List.mem_append_right _ (List.mem_map_of_mem hw)) hnot)
    fun _ hx => .inl hx

theorem settles_abandon (s : Sessions β) (id : Id) : s.Settles (s.abandon id) := by
  refine settles_of_waiters (fun _ h => h) (fun w hw _ => ?_) fun _ hx => .inl hx
  refine ⟨_, List.mem_map_of_mem hw, ?_⟩
  split <;> rfl

/-- Giving a session up leaves its status. -/
theorem status_abandon (s : Sessions β) (id id' : Id) :
    (s.abandon id).status id' = s.status id' := by
  have hsame : (s.abandon id).waiters.any (·.id == id') = s.waiters.any (·.id == id') := by
    unfold abandon
    rw [List.any_map]
    refine congrArg (List.any s.waiters) (funext fun w => ?_)
    show ((if w.id = id then { w with abandoned := true } else w).id == id') = _
    split <;> rfl
  unfold status
  rw [hsame]
  rfl

theorem settles_deliver (s : Sessions β) (id : Id) (e : Event) : s.Settles (s.deliver id e) := by
  unfold deliver
  split
  · refine settles_of_waiters (fun _ h => List.mem_append_left _ h) (fun w hw hnot => ?_)
      fun x hx => ?_
    · refine ⟨w, List.mem_filter.mpr ⟨hw, bne_iff_ne.mpr fun he => hnot ?_⟩, rfl⟩
      exact List.mem_append_right _ (List.mem_singleton.mpr he)
    · rcases List.mem_append.mp hx with hx | hx
      · exact .inl hx
      · rw [List.mem_singleton.mp hx]
        exact .inr (List.mem_append_right _ (List.mem_singleton.mpr rfl))
  · exact .refl s

theorem settles_keep (s : Sessions β) (ws : List (Waiter β)) : s.Settles (s.keep ws) := by
  unfold keep
  rw [List.partition_eq_filter_filter]
  refine settles_of_waiters (fun _ h => List.mem_append_left _ h) (fun w hw hnot => ?_)
    fun _ hx => .inl hx
  -- whoever is not among those that stay is settled
  refine ⟨w, List.mem_filter.mpr ⟨hw, ?_⟩, rfl⟩
  cases hgo : !w.abandoned && ws.any (·.id == w.id) with
  | true => rfl
  | false =>
    refine absurd (List.mem_append_right _
      (List.mem_map_of_mem (List.mem_filter.mpr ⟨hw, ?_⟩))) hnot
    rw [Function.comp_apply, hgo]
    rfl

theorem settles_lose (s : Sessions β) (ws : List (Waiter β)) : s.Settles (s.lose ws) := by
  refine settles_of_waiters (fun _ h => List.mem_append_left _ h) (fun w hw hnot => ?_)
    fun _ hx => .inl hx
  exact absurd (List.mem_append_right _ (List.mem_map_of_mem (List.mem_append_right _ hw))) hnot

end Sessions

/-- **Whatever call is served**, the sessions that stop waiting are settled. -/
theorem Hub.settles_of_serve {h h' : Hub β σ} {c : HubCall β σ} {r : c.Reply}
    (hs : h.serve c = some (r, h')) : h.sessions.Settles h'.sessions := by
  cases c with
  | user c =>
    cases c with
    | request q =>
      obtain ⟨-, rfl⟩ := Prod.mk.inj (Option.some.inj hs)
      cases q with
      | openSession forMessages matcher => exact Sessions.settles_openNew _ _ _ _
      | cancelSession id => exact Sessions.settles_cancel _ _
      | abandonSession id => exact Sessions.settles_abandon _ _
      | clearSessions => exact Sessions.settles_clear _
      | setAttributes scope a => cases scope <;> exact .refl _
      | _ => exact .refl _
    | wait w => exact absurd hs (by simp [serve])
    | dispatch e => exact absurd hs (by simp [serve])
  | keepSessions ws =>
    obtain ⟨-, rfl⟩ := Prod.mk.inj (Option.some.inj hs)
    exact Sessions.settles_keep _ _
  | loseSessions ws =>
    obtain ⟨-, rfl⟩ := Prod.mk.inj (Option.some.inj hs)
    exact Sessions.settles_lose _ _
  | deliver id e =>
    obtain ⟨-, rfl⟩ := Prod.mk.inj (Option.some.inj hs)
    exact Sessions.settles_deliver _ _ _
  | _ =>
    obtain ⟨-, rfl⟩ := Prod.mk.inj (Option.some.inj hs)
    exact .refl _

/-! ## Waking -/

namespace Scheduler

variable {m m' m'' : Scheduler β σ} {P Q : Option Wait → Prop}

/-- **Those whose waits are of a sort are roused**, and they queue up behind
who is ready already. Nothing else is done. -/
structure Rouses (P : Option Wait → Prop) (m m' : Scheduler β σ) : Prop where
  eq : m' = { m with ready := m'.ready, mainReady := m'.mainReady }
  ready : m.ready <+: m'.ready
  mainReady : m.mainReady = true → m'.mainReady = true
  roused : ∀ k ∈ m.tasks, P k.wait? → k.handle ∈ m'.ready
  main : P m.mainWait → m'.mainReady = true

theorem rouses_nobody (m : Scheduler β σ) : Rouses (fun _ => False) m m :=
  ⟨rfl, List.prefix_refl _, fun h => h, fun _ _ h => h.elim, fun h => h.elim⟩

theorem Rouses.trans (h₁ : Rouses P m m') (h₂ : Rouses Q m' m'') :
    Rouses (fun w => P w ∨ Q w) m m'' where
  eq := by
    rw [h₂.eq, h₁.eq]
  ready := h₁.ready.trans h₂.ready
  mainReady := fun h => h₂.mainReady (h₁.mainReady h)
  roused := fun k hk hw => by
    rcases hw with hw | hw
    · exact h₂.ready.subset (h₁.roused k hk hw)
    · exact h₂.roused k (by rw [h₁.eq]; exact hk) hw
  main := fun hw => by
    rcases hw with hw | hw
    · exact h₂.mainReady (h₁.main hw)
    · exact h₂.main (by rw [h₁.eq]; exact hw)

theorem Rouses.mono (h : Rouses P m m') (hP : ∀ w, Q w → P w) : Rouses Q m m' :=
  ⟨h.eq, h.ready, h.mainReady, fun k hk hw => h.roused k hk (hP _ hw), fun hw => h.main (hP _ hw)⟩

/-- Waking somebody twice is waking them once. -/
theorem wake_eq (m : Scheduler β σ) (h : Handle) :
    ∃ later, m.wake h = { m with ready := m.ready ++ later } ∧ h ∈ m.ready ++ later := by
  unfold wake
  split
  · next hmem =>
    refine ⟨[], ?_, ?_⟩
    · rw [List.append_nil]
    · rw [List.append_nil]
      exact List.contains_iff_mem.mp hmem
  · exact ⟨[h], rfl, List.mem_append_right _ (List.mem_singleton.mpr rfl)⟩

theorem foldl_wake_eq (hs : List Handle) (m : Scheduler β σ) :
    ∃ later, hs.foldl wake m = { m with ready := m.ready ++ later } ∧
      ∀ h ∈ hs, h ∈ m.ready ++ later := by
  induction hs generalizing m with
  | nil => exact ⟨[], by rw [List.append_nil]; rfl, fun _ h => absurd h List.not_mem_nil⟩
  | cons h hs ih =>
    obtain ⟨first, hfirst, hmem⟩ := m.wake_eq h
    obtain ⟨later, hlater, hrest⟩ := ih (m.wake h)
    rw [hfirst] at hlater hrest
    simp only [List.append_assoc] at hlater hrest
    refine ⟨first ++ later, ?_, fun a ha => ?_⟩
    · rw [List.foldl_cons, hfirst, hlater]
    · rcases List.mem_cons.mp ha with rfl | ha
      · rw [← List.append_assoc]
        exact List.mem_append_left _ hmem
      · exact hrest a ha

theorem rouses_wakeWhere (m : Scheduler β σ) (p : Option Wait → Bool) :
    Rouses (fun w => p w = true) m (m.wakeWhere p) := by
  obtain ⟨later, hlater, hmem⟩ :=
    foldl_wake_eq ((m.tasks.filter fun k => p k.wait?).map (·.handle)) m
  rw [List.foldl_map] at hlater
  have hroused : ∀ k ∈ m.tasks, p k.wait? = true → k.handle ∈ m.ready ++ later := fun k hk hw =>
    hmem _ (List.mem_map_of_mem (List.mem_filter.mpr ⟨hk, hw⟩))
  unfold wakeWhere
  simp only
  rw [hlater]
  split
  · exact ⟨rfl, List.prefix_append _ _, fun _ => rfl, hroused, fun _ => rfl⟩
  · next hmain => exact ⟨rfl, List.prefix_append _ _, fun h => h, hroused, fun h => absurd h hmain⟩

theorem rouses_foldl {γ : Type} (f : γ → Option Wait → Bool) (l : List γ) (m : Scheduler β σ) :
    Rouses (fun w => ∃ a ∈ l, f a w = true) m (l.foldl (fun m a => m.wakeWhere (f a)) m) := by
  induction l generalizing m with
  | nil => exact (rouses_nobody m).mono fun _ ⟨_, ha, _⟩ => absurd ha List.not_mem_nil
  | cons a l ih =>
    refine ((m.rouses_wakeWhere (f a)).trans (ih _)).mono ?_
    rintro w ⟨b, hb, hw⟩
    rcases List.mem_cons.mp hb with rfl | hb
    · exact .inl hw
    · exact .inr ⟨b, hb, hw⟩

/-- **The end of a round**: whoever is due or has yielded is ready. -/
theorem endRound_eq (m : Scheduler β σ) (main : Suspended β σ α) :
    ∃ later b, m.endRound main
        = { m with ready := m.ready ++ later, deferred := [], mainReady := b } ∧
      (∀ a ∈ m.deferred, a ∈ m.ready ++ later) ∧
      (∀ k ∈ m.tasks, ∀ d, k.deadline? = some d → d ≤ m.clock → k.handle ∈ m.ready ++ later) ∧
      (b = true ↔ m.mainReady = true ∨ main.wait = .yield ∨
        main.deadline.any (· ≤ m.clock) = true) := by
  obtain ⟨due, hdue, hdueMem⟩ := foldl_wake_eq
    (((m.tasks.filterMap fun k =>
      k.deadline?.bind fun d => if d ≤ m.clock then some (d, k.handle) else none).mergeSort
        fun a b => a.1 ≤ b.1).map (·.2)) m
  rw [List.foldl_map] at hdue
  have hwakeDue : m.wakeDue = { m with ready := m.ready ++ due } := hdue
  obtain ⟨later, hlater, hlaterMem⟩ :=
    foldl_wake_eq m.deferred.reverse { m with ready := m.ready ++ due, deferred := [] }
  have hready : ∀ k ∈ m.tasks, ∀ d, k.deadline? = some d → d ≤ m.clock →
      k.handle ∈ m.ready ++ (due ++ later) := by
    intro k hk d hd hle
    rw [← List.append_assoc]
    refine List.mem_append_left _ (hdueMem _ (List.mem_map.mpr ⟨(d, k.handle), ?_, rfl⟩))
    refine List.mem_mergeSort.mpr (List.mem_filterMap.mpr ⟨k, hk, ?_⟩)
    rw [hd, Option.bind_some, if_pos hle]
  have hdeferred : ∀ a ∈ m.deferred, a ∈ m.ready ++ (due ++ later) := fun a ha => by
    rw [← List.append_assoc]
    exact hlaterMem a (List.mem_reverse.mpr ha)
  unfold endRound
  simp only
  rw [hwakeDue]
  simp only
  rw [hlater]
  simp only [List.append_assoc]
  cases hw : main.wait with
  | yield =>
    exact ⟨due ++ later, true, rfl, hdeferred, hready, fun _ => .inr (.inl rfl), fun _ => rfl⟩
  | _ =>
    simp only
    split
    · next hdue =>
      exact ⟨due ++ later, true, rfl, hdeferred, hready, fun _ => .inr (.inr hdue), fun _ => rfl⟩
    · next hnot =>
      exact ⟨due ++ later, m.mainReady, rfl, hdeferred, hready, .inl, fun h =>
        h.resolve_right (by simp [hnot])⟩

end Scheduler

end Switchboard
