import Switchboard.Proofs.Registry.Keeping

/-!
# What a snapshot lists

Since the registry keeps a ledger, a snapshot can be read off the ledger:
its listeners, its processing interceptors and its serving interceptors
are the entries of the ledger, sorted by priority and otherwise in the
order in which they were added. Numbers do not show.

The same numbering of the same ledger makes the same snapshot
(`Keeps.sameEntries`). So listeners that are registered at once and
listeners that are registered one by one are listed alike, with their
chains.
-/

namespace Switchboard

variable {β : Type}

/-- Two snapshots list the same entries, with the same chains. What was
looked up in them can differ. -/
structure Snapshot.SameEntries (s s' : Snapshot β) : Prop where
  listeners : s.listeners = s'.listeners
  processing : s.processing = s'.processing
  serving : s.serving = s'.serving

namespace Registry

open NumberedLedger

variable {r r' : Registry β} {es : NumberedLedger β}

/-- The snapshot lists the commit of the entries that are kept. -/
theorem Keeps.draft_eq (h : r.Keeps es) : r.snapshot.draft = es.draft.commit.draft := by
  obtain ⟨found, hs⟩ := h.committed
  rw [hs]
  rfl

/-- Registries that keep the same entries under the same numbers list the
same. -/
theorem Keeps.sameEntries (h : r.Keeps es) (h' : r'.Keeps es) :
    r.snapshot.SameEntries r'.snapshot := by
  obtain ⟨found, hs⟩ := h.committed
  obtain ⟨found', hs'⟩ := h'.committed
  rw [hs, hs']
  exact ⟨rfl, rfl, rfl⟩

/-- What is seen of the numbered entries without their numbers is seen of
the entries. -/
theorem map_filterMap_eq {γ δ : Type} {f : Entry β × Nat → Option γ} {g : γ → δ}
    {k : Entry β → Option δ} (h : ∀ e n, (f (e, n)).map g = k e) :
    (es.filterMap f).map g = es.entries.filterMap k := by
  unfold entries
  rw [List.map_filterMap, List.filterMap_map]
  congr 1
  funext ⟨e, n⟩
  exact h e n

/-- **The listeners of a snapshot** are those of the ledger in the stable
order by priority. -/
theorem Keeps.listeners_eq (h : r.Keeps es) :
    r.snapshot.listeners.map (·.listener)
      = (es.entries.filterMap Entry.listener?).mergeSort fun a b => a.priority.le b.priority := by
  have hdraft : r.snapshot.draft.listeners = inOrder listenerKey es.draft.listeners := by
    rw [h.draft_eq, Draft.draft_commit]
  have hmap : es.draft.listeners.map (·.1) = es.entries.filterMap Entry.listener? :=
    map_filterMap_eq fun e n => by cases e <;> rfl
  calc r.snapshot.listeners.map (·.listener)
      = r.snapshot.draft.listeners.map (·.1) := by
        unfold Snapshot.draft
        rw [List.map_map]
        rfl
    _ = (inOrder listenerKey es.draft.listeners).map (·.1) := by rw [hdraft]
    _ = (es.draft.listeners.map (·.1)).mergeSort fun a b => a.priority.le b.priority :=
        map_inOrder (pairwise_draft h.growing).1 fun _ _ => rfl
    _ = _ := by rw [hmap]

/-- The processing interceptors of a snapshot are those of the ledger in
the stable order by priority. -/
theorem Keeps.processing_eq (h : r.Keeps es) :
    r.snapshot.processing.map (·.planned)
      = (es.entries.filterMap Entry.processing?).mergeSort fun a b =>
          a.priority.le b.priority := by
  have hdraft : r.snapshot.processing = inOrder Interceptor.orderKey es.draft.processing := by
    show r.snapshot.draft.processing = _
    rw [h.draft_eq, Draft.draft_commit]
  have hmap : es.draft.processing.map (·.planned) = es.entries.filterMap Entry.processing? :=
    map_filterMap_eq fun e n => by
      rcases e with l | ⟨id, priority, run⟩ | ⟨id, priority, point, run⟩ <;> rfl
  rw [hdraft, ← hmap]
  exact map_inOrder (pairwise_draft h.growing).2.1 fun _ _ => rfl

/-- The serving interceptors of a snapshot are those of the ledger in the
stable order by priority. -/
theorem Keeps.serving_eq (h : r.Keeps es) :
    r.snapshot.serving.map (·.planned)
      = (es.entries.filterMap Entry.serving?).mergeSort fun a b =>
          a.priority.le b.priority := by
  have hdraft : r.snapshot.serving
      = inOrder (fun i => i.toInterceptor.orderKey) es.draft.serving := by
    show r.snapshot.draft.serving = _
    rw [h.draft_eq, Draft.draft_commit]
  have hmap : es.draft.serving.map (·.planned) = es.entries.filterMap Entry.serving? :=
    map_filterMap_eq fun e n => by
      rcases e with l | ⟨id, priority, run⟩ | ⟨id, priority, point, run⟩ <;> rfl
  rw [hdraft, ← hmap]
  exact map_inOrder (pairwise_draft h.growing).2.2 fun _ _ => rfl

/-- **A call leaves the entries alone that it is not about**: none of them
is lost, and they stand as they stood. -/
theorem Keeps.restrict_apply (h : r.Keeps es) (c : RegistryCall β) :
    (r.apply c).snapshot.draft.restrict (fun id => !c.concerns id)
      = r.snapshot.draft.restrict fun id => !c.concerns id := by
  obtain ⟨es', h', -, houtside, -⟩ := keeps_apply h c
  rw [h.draft_eq, h'.draft_eq, ← Draft.draft_commit_restrict (wellNumbered_draft h.growing),
    ← Draft.draft_commit_restrict (wellNumbered_draft h'.growing)]
  unfold outside at houtside
  rw [← draft_filter es (fun id => !c.concerns id), ← draft_filter es' (fun id => !c.concerns id),
    houtside]

/-- **Listeners that can be registered at once can be registered one by
one**, under the same numbers. -/
theorem Keeps.registerEach (h : r.Keeps es) {ls : List (Listener β)}
    (hn : (es.entries.ids ++ Ledger.ids (ls.map .listener)).Nodup) :
    (r.applyAll (ls.map fun l => .registerAll [l])).Keeps (es ++ ofListeners r.seq ls) ∧
      (r.applyAll (ls.map fun l => .registerAll [l])).seq = r.seq + ls.length := by
  induction ls generalizing r es with
  | nil =>
    refine ⟨?_, rfl⟩
    rw [show ofListeners (β := β) r.seq [] = [] from rfl, List.append_nil]
    exact h
  | cons l ls ih =>
    have hsplit : (es.entries.ids ++ l.ids ++ Ledger.ids (ls.map .listener)).Nodup := by
      rw [List.append_assoc]
      exact hn
    have hone : (es.entries.ids ++ Ledger.ids ([l].map .listener)).Nodup := by
      unfold Ledger.ids
      rw [List.map_singleton, List.flatMap_singleton]
      exact (List.nodup_append.mp hsplit).1
    -- one listener alone is given the number it has among all of them
    obtain ⟨s, hr, hkeeps⟩ := h.registerAll hone
    have hentries : (es ++ ofListeners r.seq [l]).entries.ids = es.entries.ids ++ l.ids := by
      unfold entries Ledger.ids
      rw [List.map_append, List.flatMap_append]
      exact congrArg _ (List.append_nil _)
    obtain ⟨hall, hseq⟩ := ih hkeeps (by rw [hentries]; exact hsplit)
    have happly : r.apply (.registerAll [l]) = ⟨s, r.seq + 1⟩ := congrArg Prod.snd hr
    rw [List.map_cons]
    unfold applyAll at hall hseq ⊢
    rw [List.foldl_cons, happly]
    constructor
    · rw [List.append_assoc] at hall
      exact hall
    · refine hseq.trans ?_
      show r.seq + 1 + ls.length = r.seq + (ls.length + 1)
      omega

/-- **After any calls a registry lists its ledger**: the snapshot shows the
entries in the stable order by priority, equals as they were added. A call
is accepted by both or by none, and leaves all entries alone that it is
not about. Listeners that are registered at once are listed as if they had
been registered one by one. -/
theorem snapshot_eq_ledger (calls : List (RegistryCall β)) :
    let r := Registry.after calls
    let g := Ledger.after calls
    (r.snapshot.listeners.map (·.listener)
          = (g.filterMap Entry.listener?).mergeSort fun a b => a.priority.le b.priority) ∧
      (r.snapshot.processing.map (·.planned)
          = (g.filterMap Entry.processing?).mergeSort fun a b => a.priority.le b.priority) ∧
      (r.snapshot.serving.map (·.planned)
          = (g.filterMap Entry.serving?).mergeSort fun a b => a.priority.le b.priority) ∧
      (∀ c, (r.accepts c ↔ g.accepts c) ∧
        (r.apply c).snapshot.draft.restrict (fun id => !c.concerns id)
          = r.snapshot.draft.restrict fun id => !c.concerns id) ∧
      ∀ ls, r.accepts (.registerAll ls) →
        (r.apply (.registerAll ls)).snapshot.SameEntries
            (r.applyAll (ls.map fun l => .registerAll [l])).snapshot ∧
          (r.apply (.registerAll ls)).seq = (r.applyAll (ls.map fun l => .registerAll [l])).seq := by
  intro r g
  obtain ⟨es, h, he⟩ := keeps_after calls
  refine ⟨?_, ?_, ?_, fun c => ⟨?_, h.restrict_apply c⟩, fun ls hok => ?_⟩
  · rw [h.listeners_eq, he]
  · rw [h.processing_eq, he]
  · rw [h.serving_eq, he]
  · obtain ⟨-, -, -, -, haccepts⟩ := keeps_apply h c
    rw [he] at haccepts
    exact haccepts
  · obtain ⟨-, -, -, -, haccepts⟩ := keeps_apply h (.registerAll ls)
    have hn := haccepts.mp hok
    obtain ⟨s, hr, hkeeps⟩ := h.registerAll hn
    obtain ⟨heach, hseq⟩ := h.registerEach hn
    have happly : r.apply (.registerAll ls) = ⟨s, r.seq + ls.length⟩ := congrArg Prod.snd hr
    rw [happly]
    exact ⟨hkeeps.sameEntries heach, hseq.symm⟩

end Registry

/-- A listener for all events, which has an interceptor of its own. -/
def Listener.guarded (id own : Id) (priority : Priority) : Listener Unit :=
  ⟨id, .any, priority, .blocking, [], [⟨⟨own, .normal, 0, ()⟩, .beforeMatch⟩], ⟨[], ()⟩⟩

/-- Three listeners are registered, and the first of them is removed and
registered again. -/
def RegistryCall.addedAgain : List (RegistryCall Unit) :=
  [.registerAll [.guarded ⟨"a", by decide⟩ ⟨"x", by decide⟩ .normal,
      .guarded ⟨"b", by decide⟩ ⟨"y", by decide⟩ .high,
      .guarded ⟨"c", by decide⟩ ⟨"z", by decide⟩ .normal],
    .unregister ⟨"a", by decide⟩,
    .registerAll [.guarded ⟨"a", by decide⟩ ⟨"x", by decide⟩ .normal]]

/-- The listener that was added again comes after its equal, and another
one can be registered. -/
theorem snapshot_eq_ledger_addedAgain :
    let r := Registry.after RegistryCall.addedAgain
    r.snapshot.listeners.map (·.listener) =
        [.guarded ⟨"b", by decide⟩ ⟨"y", by decide⟩ .high,
          .guarded ⟨"c", by decide⟩ ⟨"z", by decide⟩ .normal,
          .guarded ⟨"a", by decide⟩ ⟨"x", by decide⟩ .normal] ∧
      r.accepts (.registerAll [.guarded ⟨"d", by decide⟩ ⟨"e", by decide⟩ .high]) := by
  intro r
  obtain ⟨hlist, -, -, hcall, -⟩ := Registry.snapshot_eq_ledger RegistryCall.addedAgain
  refine ⟨hlist.trans ?_, (hcall _).1.mpr ?_⟩
  · exact List.mergeSort_of_pairwise (by decide)
  · show List.Nodup _
    decide

end Switchboard
