import Switchboard.Proofs.Registry.Ledger

/-!
# A registry that keeps a ledger

The registry does as a ledger does, call by call. What ties the two
together is a numbering of the ledger: numbers grow along it, the registry
has drawn all of them, and the snapshot is a commit of the numbered entries
(`Registry.Keeps`). A call that is refused may have drawn numbers that no
entry has, and a lookup may have left something behind in the snapshot;
the numbering minds neither.

Each call on the registry preserves the tie (`keeps_apply`), so calls one
after the other do (`keeps_after`).
-/

namespace Switchboard

variable {β : Type}

namespace Registry

/-- **A registry keeps numbered entries.** -/
structure Keeps (r : Registry β) (es : NumberedLedger β) : Prop where
  /-- The numbers grow along the entries. -/
  growing : es.Pairwise fun a b => a.2 < b.2
  /-- Only numbers that were drawn are in use. -/
  drawn : ∀ e ∈ es, e.2 < r.seq
  /-- No identifier is taken twice. -/
  distinct : es.entries.ids.Nodup
  /-- The snapshot is a commit of the entries, whatever was looked up in it. -/
  committed : ∃ found, r.snapshot = { es.draft.commit with found }

open NumberedLedger

variable {r : Registry β} {es : NumberedLedger β}

/-- The entries of the snapshot are those that are kept. -/
theorem Keeps.agrees (h : r.Keeps es) : r.snapshot.draft.Agrees es.draft := by
  obtain ⟨found, hs⟩ := h.committed
  rw [hs]
  exact es.draft.agrees_draft_commit

/-- The listeners of the snapshot have the chains that its interceptors make. -/
theorem Keeps.resolved (h : r.Keeps es) :
    ∀ l ∈ r.snapshot.listeners, l = resolve l.listener l.seq r.snapshot.serving := by
  obtain ⟨found, hs⟩ := h.committed
  rw [hs]
  intro l hl
  obtain ⟨⟨own, seq⟩, -, rfl⟩ := List.mem_map.mp hl
  rfl

theorem Keeps.ids_perm (h : r.Keeps es) : r.snapshot.draft.ids.Perm es.entries.ids :=
  h.agrees.ids_perm.trans es.ids_draft_perm

theorem Keeps.mem_entryIds_iff (h : r.Keeps es) {id : Id} :
    id ∈ r.snapshot.draft.entryIds ↔ id ∈ es.entries.map (·.id) :=
  (h.agrees.entryIds_perm.trans es.entryIds_draft_perm).mem_iff

/-- An empty registry keeps nothing. -/
theorem keeps_nil (seq : Nat) : Keeps (⟨.empty, seq⟩ : Registry β) [] where
  growing := List.Pairwise.nil
  drawn := fun e he => absurd he List.not_mem_nil
  distinct := List.nodup_nil
  committed := by
    refine ⟨[], ?_⟩
    unfold NumberedLedger.draft Draft.commit Snapshot.empty
    simp only [List.filterMap_nil, List.mergeSort_nil, List.map_nil]

/-- A commit of the entries, in whatever order, keeps them. -/
theorem keeps_commit {d : Draft β} {seq : Nat} (hd : d.Agrees es.draft)
    (hg : es.Pairwise fun a b => a.2 < b.2) (hs : ∀ e ∈ es, e.2 < seq)
    (hn : es.entries.ids.Nodup) : Keeps ⟨d.commit, seq⟩ es where
  growing := hg
  drawn := hs
  distinct := hn
  committed := ⟨[], by
    rw [Draft.commit_congr (NumberedLedger.wellNumbered_draft hg) hd]
    rfl⟩

/-- Numbers that are drawn and not used do not matter. -/
theorem Keeps.draw (h : r.Keeps es) {seq : Nat} (hs : r.seq ≤ seq) :
    Keeps { r with seq } es where
  growing := h.growing
  drawn := fun e he => Nat.lt_of_lt_of_le (h.drawn e he) hs
  distinct := h.distinct
  committed := h.committed

/-- Looking up listeners does not matter. -/
theorem Keeps.targets (h : r.Keeps es) (key : EventKey) : (r.targets key).2.Keeps es where
  growing := h.growing
  drawn := h.drawn
  distinct := h.distinct
  committed := by
    obtain ⟨found, hs⟩ := h.committed
    show ∃ found, (r.snapshot.targets key).2 = _
    unfold Snapshot.targets
    split
    · exact ⟨found, hs⟩
    · rw [hs]
      exact ⟨_, rfl⟩

/-- Identifiers are free if they are new and no two of them are the same. -/
theorem Keeps.nodup_append_iff (h : r.Keeps es) {ids : List Id} :
    (es.entries.ids ++ ids).Nodup ↔ ids.Nodup ∧ ∀ id ∈ ids, id ∉ r.snapshot.draft.ids := by
  rw [List.nodup_append]
  constructor
  · rintro ⟨-, hids, hne⟩
    exact ⟨hids, fun a ha hmem => hne a (h.ids_perm.mem_iff.mp hmem) a ha rfl⟩
  · rintro ⟨hids, hnew⟩
    exact ⟨h.distinct, hids, fun a ha b hb he => hnew b hb (h.ids_perm.mem_iff.mpr (he ▸ ha))⟩

/-- What listeners ask for can be given if the ledger can take it. -/
theorem Keeps.free_newIds_iff (h : r.Keeps es) {ls : List (Listener β)} :
    NewId.Free r.snapshot.draft.ids (ls.flatMap (·.newIds)) ↔
      (es.entries.ids ++ Ledger.ids (ls.map .listener)).Nodup := by
  rw [Listener.free_newIds_iff, h.nodup_append_iff,
    show Ledger.ids (ls.map Entry.listener) = ls.flatMap (·.ids) from List.flatMap_map ..]

/-- **New entries can come at the end**, under numbers that are drawn for
them, if their identifiers are free. -/
theorem Keeps.append (h : r.Keeps es) {new : NumberedLedger β} {d : Draft β} {seq : Nat}
    (hd : d.Agrees (draft (es ++ new))) (hg : new.Pairwise fun a b => a.2 < b.2)
    (hs : ∀ e ∈ new, r.seq ≤ e.2 ∧ e.2 < seq) (hle : r.seq ≤ seq)
    (hn : (es.entries.ids ++ new.entries.ids).Nodup) : Keeps ⟨d.commit, seq⟩ (es ++ new) := by
  refine keeps_commit hd ?_ (fun e he => ?_) ?_
  · exact List.pairwise_append.mpr ⟨h.growing, hg, fun a ha b hb =>
      Nat.lt_of_lt_of_le (h.drawn a ha) (hs b hb).1⟩
  · rcases List.mem_append.mp he with he | he
    · exact Nat.lt_of_lt_of_le (h.drawn e he) hle
    · exact (hs e he).2
  · unfold NumberedLedger.entries Ledger.ids at *
    rwa [List.map_append, List.flatMap_append]

/-- **Listeners whose identifiers are free are added**, one after the other. -/
theorem Keeps.registerAll (h : r.Keeps es) {ls : List (Listener β)}
    (hn : (es.entries.ids ++ Ledger.ids (ls.map .listener)).Nodup) :
    ∃ s, r.registerAll ls = (.ok (), ⟨s, r.seq + ls.length⟩) ∧
      Keeps ⟨s, r.seq + ls.length⟩ (es ++ ofListeners r.seq ls) := by
  refine ⟨(r.snapshot.draft.withListeners (ls.zipIdx r.seq)).commit, ?_, ?_⟩
  · exact registerAll_of_free (NewId.firstTaken?_eq_none_iff.mpr (h.free_newIds_iff.mpr hn))
  · obtain ⟨hgrow, hbounds⟩ := growing_ofListeners r.seq ls
    refine h.append ?_ hgrow hbounds (Nat.le_add_right _ _) ?_
    · rw [draft_append_ofListeners]
      exact h.agrees.withListeners _
    · rwa [entries_ofListeners]

/-- Listeners whose identifiers are not free are refused. -/
theorem Keeps.registerAll_refused (h : r.Keeps es) {ls : List (Listener β)}
    (hn : ¬ (es.entries.ids ++ Ledger.ids (ls.map .listener)).Nodup) :
    ∃ e seq, r.registerAll ls = (.error e, { r with seq }) ∧ r.seq ≤ seq := by
  cases htaken : NewId.firstTaken? r.snapshot.draft.ids (ls.flatMap (·.newIds)) with
  | none => exact absurd (h.free_newIds_iff.mp (NewId.firstTaken?_eq_none_iff.mp htaken)) hn
  | some n =>
    obtain ⟨seq, hr, hle⟩ := registerAll_of_taken htaken
    exact ⟨n.refusal, seq, hr, hle⟩

/-- **An interceptor whose identifier is free is added.** -/
theorem Keeps.add (h : r.Keeps es) {i : PlannedInterceptor β}
    (hn : (es.entries.ids ++ [i.id]).Nodup) :
    ∃ s, i.addTo r = (.ok (), ⟨s, r.seq + 1⟩) ∧
      Keeps ⟨s, r.seq + 1⟩ (es ++ [(.interceptor i, r.seq)]) := by
  have hfree : ¬ r.snapshot.draft.contains i.id = true := by
    rw [Draft.contains_iff]
    exact (h.nodup_append_iff.mp hn).2 i.id List.mem_cons_self
  have hnumber : ∀ e ∈ [((.interceptor i : Entry β), r.seq)], r.seq ≤ e.2 ∧ e.2 < r.seq + 1 := by
    intro e he
    rw [List.mem_singleton.mp he]
    exact ⟨Nat.le_refl _, Nat.lt_succ_self _⟩
  cases i with
  | processing id priority run =>
    refine ⟨_, if_neg hfree, h.append ?_ (List.pairwise_singleton _ _) hnumber
      (Nat.le_succ _) hn⟩
    rw [draft_append_processing]
    exact ⟨h.agrees.listeners, h.agrees.processing.append_right _, h.agrees.serving⟩
  | serving id priority point run =>
    refine ⟨_, if_neg hfree, h.append ?_ (List.pairwise_singleton _ _) hnumber
      (Nat.le_succ _) hn⟩
    rw [draft_append_serving]
    exact ⟨h.agrees.listeners, h.agrees.processing, h.agrees.serving.append_right _⟩

/-- An interceptor whose identifier is taken is refused. -/
theorem Keeps.add_refused (h : r.Keeps es) {i : PlannedInterceptor β}
    (hn : ¬ (es.entries.ids ++ [i.id]).Nodup) :
    i.addTo r = (.error (.duplicateInterceptor i.id), r) := by
  have htaken : r.snapshot.draft.contains i.id = true := by
    rw [Draft.contains_iff]
    refine Decidable.byContradiction fun hnew => hn (h.nodup_append_iff.mpr ⟨?_, ?_⟩)
    · exact List.nodup_cons.mpr ⟨List.not_mem_nil, List.nodup_nil⟩
    · intro a ha
      rwa [List.mem_singleton.mp ha]
  cases i with
  | processing id priority run => exact if_pos htaken
  | serving id priority point run => exact if_pos htaken

/-- **An entry is removed** by leaving it out. -/
theorem Keeps.unregister (h : r.Keeps es) {id : Id} (hid : id ∈ es.entries.map (·.id)) :
    ∃ removed s, r.unregister id = (.ok removed, ⟨s, r.seq⟩) ∧ removed.id = id ∧
      removed.Within r.snapshot.draft ∧
      r.snapshot.draft.ids.Perm (removed.freed ++ s.draft.ids) ∧
      Keeps ⟨s, r.seq⟩ (es.filter (·.1.id != id)) := by
  have hd : r.snapshot.draft.ids.Nodup := h.ids_perm.nodup_iff.mpr h.distinct
  obtain ⟨removed, hremove, hrid, hwithin, hperm⟩ :=
    Draft.remove_of_mem hd (h.mem_entryIds_iff.mpr hid)
  refine ⟨removed, (r.snapshot.draft.without id).commit, ?_, hrid, hwithin, ?_, ?_⟩
  · unfold Registry.unregister
    rw [hremove]
  · exact hperm.trans ((Draft.agrees_draft_commit _).ids_perm.symm.append_left _)
  · refine keeps_commit ?_ (h.growing.filter _) (fun e he => h.drawn e (List.mem_filter.mp he).1) ?_
    · rw [draft_filter es (· != id)]
      exact h.agrees.restrict _
    -- what is left in use is a part of what was in use
    · rw [← (ids_draft_perm _).nodup_iff, draft_filter es (· != id),
        ← (h.agrees.restrict _).ids_perm.nodup_iff]
      exact (List.nodup_append.mp (hperm.nodup_iff.mp hd)).2.1

/-- Under an identifier of no entry, nothing is removed. -/
theorem Keeps.unregister_refused (h : r.Keeps es) {id : Id}
    (hid : id ∉ es.entries.map (·.id)) : r.unregister id = (.error (.notFound id), r) := by
  unfold Registry.unregister
  rw [Draft.remove_of_not_mem fun hmem => hid (h.mem_entryIds_iff.mp hmem)]

/-! ## Calls -/

/-- Whether a registry accepts a call. -/
def accepts (r : Registry β) : RegistryCall β → Prop
  | .registerAll ls => (r.registerAll ls).1 = .ok ()
  | .add i => (i.addTo r).1 = .ok ()
  | .unregister id => ∃ removed, (r.unregister id).1 = .ok removed
  | .clear => True
  | .lookUp _ => True

/-- **A call does to a registry what it does to the ledger it keeps**, and
is accepted by both or by none. Entries that the call is not about keep
their numbers and their order. -/
theorem keeps_apply (h : r.Keeps es) (c : RegistryCall β) :
    ∃ es', (r.apply c).Keeps es' ∧ es'.entries = es.entries.apply c ∧
      es'.outside c.concerns = es.outside c.concerns ∧
      (r.accepts c ↔ es.entries.accepts c) := by
  cases c with
  | registerAll ls =>
    by_cases hn : (es.entries.ids ++ Ledger.ids (ls.map .listener)).Nodup
    · obtain ⟨s, hr, hkeeps⟩ := h.registerAll hn
      refine ⟨es ++ ofListeners r.seq ls, ?_, ?_, ?_, ?_⟩
      · show (r.registerAll ls).2.Keeps _
        rw [hr]
        exact hkeeps
      · have happend : (es ++ ofListeners r.seq ls).entries = es.entries ++ ls.map .listener := by
          rw [← entries_ofListeners r.seq ls]
          exact List.map_append
        exact happend.trans (if_pos hn).symm
      · rw [outside_append, outside_ofListeners, List.append_nil]
      · exact ⟨fun _ => hn, fun _ => congrArg Prod.fst hr⟩
    · obtain ⟨e, seq, hr, hle⟩ := h.registerAll_refused hn
      -- the numbers drawn up to the refusal are lost, which no entry notices
      refine ⟨es, ?_, (if_neg hn).symm, rfl, fun hok => ?_, fun hok => absurd hok hn⟩
      · show (r.registerAll ls).2.Keeps _
        rw [hr]
        exact h.draw hle
      · exact absurd (hok.symm.trans (congrArg Prod.fst hr)) (by simp)
  | add i =>
    by_cases hn : (es.entries.ids ++ [i.id]).Nodup
    · obtain ⟨s, hr, hkeeps⟩ := h.add hn
      refine ⟨es ++ [(.interceptor i, r.seq)], ?_, ?_, ?_, ?_⟩
      · show (i.addTo r).2.Keeps _
        rw [hr]
        exact hkeeps
      · exact List.map_append.trans (if_pos hn).symm
      · rw [outside_append]
        unfold outside
        rw [List.filter_cons_of_neg (by simp [RegistryCall.concerns, Entry.id]), List.filter_nil,
          List.append_nil]
      · exact ⟨fun _ => hn, fun _ => congrArg Prod.fst hr⟩
    · have hr := h.add_refused hn
      refine ⟨es, ?_, (if_neg hn).symm, rfl, fun hok => ?_, fun hok => absurd hok hn⟩
      · show (i.addTo r).2.Keeps _
        rw [hr]
        exact h
      · exact absurd (hok.symm.trans (congrArg Prod.fst hr)) (by simp)
  | unregister id =>
    by_cases hid : id ∈ es.entries.map (·.id)
    · obtain ⟨removed, s, hr, -, -, -, hkeeps⟩ := h.unregister hid
      refine ⟨es.filter (·.1.id != id), ?_, ?_, ?_, fun _ => hid, fun _ => ⟨removed, ?_⟩⟩
      · show (r.unregister id).2.Keeps _
        rw [hr]
        exact hkeeps
      · exact entries_filter es id
      · unfold outside
        rw [List.filter_filter]
        refine List.filter_congr fun e _ => ?_
        show (!(id == e.1.id) && e.1.id != id) = !(id == e.1.id)
        rw [bne_comm]
        exact Bool.and_self _
      · exact congrArg Prod.fst hr
    · have hr := h.unregister_refused hid
      refine ⟨es, ?_, (Ledger.remove_of_not_mem hid).symm, rfl, ?_, fun hok => absurd hok hid⟩
      · show (r.unregister id).2.Keeps _
        rw [hr]
        exact h
      · rintro ⟨removed, hok⟩
        exact absurd (hok.symm.trans (congrArg Prod.fst hr)) (by simp)
  | clear =>
    refine ⟨[], keeps_nil r.seq, rfl, ?_, Iff.rfl⟩
    unfold outside
    rw [List.filter_nil, eq_comm, List.filter_eq_nil_iff]
    exact fun e _ => by simp [RegistryCall.concerns]
  | lookUp key => exact ⟨es, h.targets key, rfl, rfl, Iff.rfl⟩

/-- Calls do to a registry what they do to the ledger it keeps. -/
theorem keeps_applyAll (h : r.Keeps es) (calls : List (RegistryCall β)) :
    ∃ es', (r.applyAll calls).Keeps es' ∧ es'.entries = calls.foldl Ledger.apply es.entries := by
  induction calls generalizing r es with
  | nil => exact ⟨es, h, rfl⟩
  | cons c calls ih =>
    obtain ⟨es₁, h₁, he, -, -⟩ := keeps_apply h c
    obtain ⟨es₂, h₂, he'⟩ := ih h₁
    exact ⟨es₂, h₂, by rw [he', he, List.foldl_cons]⟩

/-- **The registry after some calls keeps the ledger after these calls.** -/
theorem keeps_after (calls : List (RegistryCall β)) :
    ∃ es, (Registry.after calls).Keeps es ∧ es.entries = Ledger.after calls :=
  keeps_applyAll (keeps_nil 0) calls

end Registry

end Switchboard
