import Switchboard.Proofs.Registry.Listing

/-!
# One set of identifiers

Listeners, the interceptors attached to them, processing interceptors and
serving interceptors share one set of identifiers, in which none comes
twice. Every change checks its own new identifiers only, against a draft
that holds the entries of the moment; that this is enough is the invariant
of `Registry.Keeps`.

What the registry tells about an identifier is unambiguous for that
reason. An identifier in use is that of an entry or that of an attached
interceptor and not both, so the first entry found under it is the only
one, and removing it removes nothing else (`identifiers_distinct`).
-/

namespace Switchboard

variable {β : Type}

namespace Snapshot

/-- The identifiers of a snapshot are those of its entries. -/
theorem ids_eq (s : Snapshot β) : s.ids = s.draft.ids := by
  unfold ids Draft.ids draft
  rw [List.flatMap_map]

/-- **An identifier belongs to an entry** if it is in use. -/
theorem contains_iff {s : Snapshot β} {id : Id} : s.contains id = true ↔ id ∈ s.ids := by
  rw [ids_eq]
  exact Draft.contains_iff

/-- **The listener of an identifier** is the one listener that has it. -/
theorem listener?_eq_some_iff {s : Snapshot β} (hn : s.ids.Nodup) {id : Id} {l : Listener β} :
    s.listener? id = some l ↔ l ∈ s.listeners.map (·.listener) ∧ l.id = id := by
  have hids : (s.listeners.map (·.listener.id)).Nodup := by
    rw [ids_eq, s.draft.ids_perm.nodup_iff] at hn
    have hentries := (List.nodup_append.mp hn).1
    unfold Draft.entryIds draft at hentries
    rw [List.map_map] at hentries
    exact (List.nodup_append.mp (List.nodup_append.mp hentries).1).1
  unfold listener?
  constructor
  · intro h
    obtain ⟨rl, hfind, rfl⟩ := Option.map_eq_some_iff.mp h
    have hid : (rl.listener.id == id) = true :=
      List.find?_some (p := fun r : ResolvedListener β => r.listener.id == id) hfind
    exact ⟨List.mem_map_of_mem (List.mem_of_find?_eq_some hfind), beq_iff_eq.mp hid⟩
  · rintro ⟨hl, rfl⟩
    obtain ⟨rl, hrl, rfl⟩ := List.mem_map.mp hl
    rw [(Draft.found_of_mem hids hrl).1]
    rfl

end Snapshot

namespace Registry

open NumberedLedger

variable {r : Registry β} {es : NumberedLedger β}

/-- No identifier is in use twice. -/
theorem Keeps.nodup (h : r.Keeps es) : r.snapshot.ids.Nodup := by
  rw [Snapshot.ids_eq, h.ids_perm.nodup_iff]
  exact h.distinct

/-- An identifier of an attached interceptor is that of no entry. -/
theorem Keeps.not_mem_entryIds (h : r.Keeps es) {id : Id}
    (hid : id ∈ r.snapshot.draft.attachedIds) : id ∉ r.snapshot.draft.entryIds := by
  have hn := h.nodup
  rw [Snapshot.ids_eq, r.snapshot.draft.ids_perm.nodup_iff] at hn
  exact fun hmem => (List.nodup_append.mp hn).2.2 id hmem id hid rfl

/-- **Removing an entry** leaves exactly its identifier out, and frees
exactly the identifiers that came with it. -/
theorem Keeps.unregister_eq (h : r.Keeps es) {id : Id}
    (hid : id ∈ r.snapshot.draft.entryIds) :
    ∃ removed, (r.unregister id).1 = .ok removed ∧ removed.id = id ∧
      removed.Within r.snapshot.draft ∧
      (r.unregister id).2.snapshot.draft = r.snapshot.draft.restrict (· != id) ∧
      ∀ id', (r.unregister id).2.snapshot.contains id' = true ↔
        r.snapshot.contains id' = true ∧ id' ∉ removed.freed := by
  obtain ⟨removed, s, hr, hrid, hwithin, hperm, hkeeps⟩ :=
    h.unregister (h.mem_entryIds_iff.mp hid)
  rw [hr]
  refine ⟨removed, rfl, hrid, hwithin, ?_, fun id' => ?_⟩
  · rw [hkeeps.draft_eq, h.draft_eq, draft_filter es (· != id),
      Draft.draft_commit_restrict (wellNumbered_draft h.growing)]
  -- what was in use is what is freed and what is left, and nothing is both
  · rw [Snapshot.contains_iff, Snapshot.contains_iff, Snapshot.ids_eq, Snapshot.ids_eq,
      hperm.mem_iff, List.mem_append]
    have hn := hperm.nodup_iff.mp (Snapshot.ids_eq _ ▸ h.nodup)
    constructor
    · intro hmem
      exact ⟨.inr hmem, fun hfreed => (List.nodup_append.mp hn).2.2 id' hfreed id' hmem rfl⟩
    · rintro ⟨hfreed | hmem, hnot⟩
      · exact absurd hfreed hnot
      · exact hmem

/-- **After any calls, no identifier is in use twice**, by whatever. So it
is in use if it is that of an entry or of an attached interceptor; it finds
the one listener that has it; and an entry is removed under it if it is
that of an entry, the one that has it and nothing else, after which exactly
the identifiers that came with the entry are free. -/
theorem identifiers_distinct (calls : List (RegistryCall β)) :
    let r := Registry.after calls
    let entries := r.snapshot.draft
    r.snapshot.ids.Nodup ∧
      (∀ id, r.snapshot.contains id = true ↔ id ∈ entries.entryIds ∨ id ∈ entries.attachedIds) ∧
      (∀ id l, r.snapshot.listener? id = some l ↔
        l ∈ r.snapshot.listeners.map (·.listener) ∧ l.id = id) ∧
      (∀ id ∈ entries.entryIds, ∃ removed, (r.unregister id).1 = .ok removed ∧
        removed.id = id ∧ removed.Within entries ∧
        (r.unregister id).2.snapshot.draft = entries.restrict (· != id) ∧
        ∀ id', (r.unregister id).2.snapshot.contains id' = true ↔
          r.snapshot.contains id' = true ∧ id' ∉ removed.freed) ∧
      (∀ id ∉ entries.entryIds, r.unregister id = (.error (.notFound id), r)) ∧
      ∀ id ∈ entries.attachedIds, id ∉ entries.entryIds := by
  intro r entries
  obtain ⟨es, h, -⟩ := keeps_after calls
  refine ⟨h.nodup, fun id => ?_, fun id l => Snapshot.listener?_eq_some_iff h.nodup,
    fun id hid => h.unregister_eq hid, fun id hid => ?_, fun id hid => h.not_mem_entryIds hid⟩
  · rw [Snapshot.contains_iff, Snapshot.ids_eq, (Draft.ids_perm _).mem_iff, List.mem_append]
  · exact h.unregister_refused fun hmem => hid (h.mem_entryIds_iff.mpr hmem)

end Registry

/-- The identifier of an attached interceptor is in use, and nothing can
be removed under it; that of its listener can be. -/
theorem identifiers_distinct_addedAgain :
    let r := Registry.after RegistryCall.addedAgain
    let a : Id := ⟨"a", by decide⟩
    let x : Id := ⟨"x", by decide⟩
    r.snapshot.contains x = true ∧ r.unregister x = (.error (.notFound x), r) ∧
      ∃ removed, (r.unregister a).1 = .ok removed ∧ removed.id = a := by
  intro r a x
  obtain ⟨es, h, he⟩ := Registry.keeps_after RegistryCall.addedAgain
  have hentries : ∀ id, id ∈ r.snapshot.draft.entryIds ↔
      id ∈ (Ledger.after RegistryCall.addedAgain).map (·.id) := fun id => he ▸ h.mem_entryIds_iff
  have hx : x ∉ r.snapshot.draft.entryIds := by
    rw [hentries]
    decide
  have hxids : x ∈ r.snapshot.draft.ids := by
    rw [h.ids_perm.mem_iff, he]
    decide
  have ha : a ∈ r.snapshot.draft.entryIds := by
    rw [hentries]
    decide
  obtain ⟨-, hin, -, hremove, hrefuse, -⟩ :=
    Registry.identifiers_distinct RegistryCall.addedAgain
  obtain ⟨removed, hok, hid, -⟩ := hremove a ha
  refine ⟨(hin x).mpr ?_, hrefuse x hx, removed, hok, hid⟩
  exact List.mem_append.mp ((Draft.ids_perm _).mem_iff.mp hxids)

end Switchboard
