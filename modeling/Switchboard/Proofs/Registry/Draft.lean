import Switchboard.Registry.Basic

/-!
# The identifiers of a draft

Listeners, the interceptors attached to them, processing interceptors and
serving interceptors are kept in different places, but `Draft.ids` lists
the identifiers of all of them, and what a change does can be said with it.

Where no identifier comes twice, at most one entry is found under an
identifier, in one of three lists, so removing it is leaving it out of all
three (`remove_of_mem`); and there is nothing to remove under the
identifier of an attached interceptor (`remove_of_not_mem`).
-/

namespace Switchboard

variable {β : Type}

namespace Removed

/-- The identifier of the entry that was removed. -/
def id : Removed β → Id
  | listener l => l.id
  | processing id => id
  | serving id => id

/-- The identifiers that are free again once the entry is removed. -/
def freed : Removed β → List Id
  | listener l => l.ids
  | processing id => [id]
  | serving id => [id]

/-- Whether a draft has the entry that was removed, as what it is. -/
def Within (d : Draft β) : Removed β → Prop
  | listener l => l ∈ d.listeners.map (·.1)
  | processing id => id ∈ d.processing.map (·.id)
  | serving id => id ∈ d.serving.map (·.id)

end Removed

namespace Draft

variable {d d' : Draft β} {l : Listener β} {seq : Nat} {id : Id}

/-- All identifiers in use, in a fixed order. -/
def ids (d : Draft β) : List Id :=
  d.listeners.flatMap (·.1.ids) ++ d.processing.map (·.id) ++ d.serving.map (·.id)

/-- The identifiers under which an entry can be removed. -/
def entryIds (d : Draft β) : List Id :=
  d.listeners.map (·.1.id) ++ d.processing.map (·.id) ++ d.serving.map (·.id)

/-- The identifiers of the interceptors attached to listeners. -/
def attachedIds (d : Draft β) : List Id :=
  d.listeners.flatMap (·.1.interceptors.map (·.id))

/-- A draft with more listeners. -/
def withListeners (d : Draft β) (ls : List (Listener β × Nat)) : Draft β :=
  { d with listeners := d.listeners ++ ls }

/-- The entries of a draft whose identifiers satisfy a condition. -/
def restrict (d : Draft β) (p : Id → Bool) : Draft β :=
  ⟨d.listeners.filter (p ·.1.id), d.processing.filter (p ·.id), d.serving.filter (p ·.id)⟩

/-- A draft without the entry of an identifier. -/
def without (d : Draft β) (id : Id) : Draft β := d.restrict (· != id)

/-- An identifier belongs to an entry if it is in use. -/
theorem contains_iff : d.contains id = true ↔ id ∈ d.ids := by
  unfold contains ids Listener.owns
  simp only [Bool.or_eq_true, List.any_eq_true, List.contains_iff_mem, beq_iff_eq,
    List.mem_append, List.mem_flatMap, List.mem_map]

/-- **Identifiers in use are those of entries and those of attached
interceptors.** -/
theorem ids_perm (d : Draft β) : d.ids.Perm (d.entryIds ++ d.attachedIds) := by
  have key : ∀ ls : List (Listener β × Nat), (ls.flatMap (·.1.ids)).Perm
      (ls.map (·.1.id) ++ ls.flatMap (·.1.interceptors.map (·.id))) := by
    intro ls
    induction ls with
    | nil => exact List.Perm.refl _
    | cons p ls ih =>
      rw [List.flatMap_cons, List.flatMap_cons, List.map_cons, Listener.ids, List.cons_append,
        List.cons_append]
      exact ((ih.append_left _).trans (List.perm_append_comm_assoc _ _ _)).cons _
  unfold ids entryIds attachedIds
  rw [List.append_assoc, List.append_assoc (d.listeners.map _)]
  refine ((key d.listeners).append_right _).trans ?_
  rw [List.append_assoc, List.append_assoc]
  exact List.perm_append_comm.append_left _

/-- More listeners bring their identifiers along. -/
theorem ids_withListeners_perm (d : Draft β) (ls : List (Listener β × Nat)) :
    (d.withListeners ls).ids.Perm (d.ids ++ ls.flatMap (·.1.ids)) := by
  unfold ids withListeners
  rw [List.flatMap_append, List.append_assoc, List.append_assoc, List.append_assoc,
    List.append_assoc]
  refine List.Perm.append_left _ ?_
  rw [← List.append_assoc (d.processing.map _)]
  exact List.perm_append_comm

/-! ## Removing an entry -/

section Find

variable {α : Type} {f : α → Id} {l : List α}

/-- Nothing is left out under an identifier that is not there. -/
theorem filter_eq_self_of_not_mem (h : id ∉ l.map f) : l.filter (f · != id) = l := by
  rw [List.filter_eq_self]
  intro a ha
  rw [bne_iff_ne]
  exact fun he => h (he ▸ List.mem_map_of_mem ha)

theorem any_eq_false_of_not_mem (h : id ∉ l.map f) : l.any (f · == id) = false := by
  rw [List.any_eq_false]
  exact fun a ha he => h (List.mem_map.mpr ⟨a, ha, beq_iff_eq.mp he⟩)

theorem find?_eq_none_of_not_mem (h : id ∉ l.map f) : l.find? (f · == id) = none := by
  rw [List.find?_eq_none]
  exact fun a ha he => h (List.mem_map.mpr ⟨a, ha, beq_iff_eq.mp he⟩)

/-- Where no identifier comes twice, what is found under one is all there
is, and removing it is leaving it out. -/
theorem found_of_mem {a : α} (hn : (l.map f).Nodup) (ha : a ∈ l) :
    l.find? (f · == f a) = some a ∧ l.any (f · == f a) = true ∧
      l.eraseP (f · == f a) = l.filter (f · != f a) ∧ l.Perm (a :: l.filter (f · != f a)) := by
  obtain ⟨as, bs, rfl⟩ := List.append_of_mem ha
  -- neither before the entry nor after it is another one with its identifier
  have hne : ∀ b ∈ as ++ bs, f b ≠ f a := by
    rw [List.map_append, List.map_cons, List.perm_middle.nodup_iff, List.nodup_cons,
      ← List.map_append] at hn
    exact fun b hb he => hn.1 (he ▸ List.mem_map_of_mem hb)
  have has : ∀ b ∈ as, ¬ (f b == f a) = true := fun b hb => by
    rw [beq_iff_eq]
    exact hne b (List.mem_append_left bs hb)
  have hfilter : (as ++ a :: bs).filter (f · != f a) = as ++ bs := by
    rw [List.filter_append, List.filter_cons_of_neg (by simp), ← List.filter_append,
      List.filter_eq_self]
    exact fun b hb => bne_iff_ne.mpr (hne b hb)
  refine ⟨?_, List.any_eq_true.mpr ⟨a, ha, beq_self_eq_true _⟩, ?_, ?_⟩
  · rw [List.find?_eq_some_iff_append]
    exact ⟨beq_self_eq_true _, as, bs, rfl, fun b hb => by simpa using has b hb⟩
  · rw [List.eraseP_append_right _ has, List.eraseP_cons_of_pos (by simp), hfilter]
  · rw [hfilter]
    exact List.perm_middle

end Find

/-- **An entry is removed** by leaving its identifier out, and nothing else
is lost. -/
theorem remove_of_mem (hd : d.ids.Nodup) (h : id ∈ d.entryIds) :
    ∃ removed, d.remove id = .ok (d.without id, removed) ∧ removed.id = id ∧ removed.Within d ∧
      d.ids.Perm (removed.freed ++ (d.without id).ids) := by
  have hn : d.entryIds.Nodup := (List.nodup_append.mp (d.ids_perm.nodup_iff.mp hd)).1
  unfold entryIds at h hn
  obtain ⟨hlp, hs, hne⟩ := List.nodup_append.mp hn
  obtain ⟨hl, hp, hne'⟩ := List.nodup_append.mp hlp
  unfold remove without restrict ids
  -- the lists are searched in turn, and an identifier is in one of them only
  by_cases hidl : id ∈ d.listeners.map (·.1.id)
  · have hidp : id ∉ d.processing.map (·.id) := fun h' => hne' _ hidl _ h' rfl
    have hids : id ∉ d.serving.map (·.id) :=
      fun h' => hne _ (List.mem_append_left _ hidl) _ h' rfl
    obtain ⟨⟨l, n⟩, hmem, rfl⟩ := List.mem_map.mp hidl
    obtain ⟨hfind, -, herase, hperm⟩ := found_of_mem hl hmem
    refine ⟨.listener l, ?_, rfl, List.mem_map_of_mem hmem, ?_⟩
    · rw [hfind, herase, filter_eq_self_of_not_mem hidp, filter_eq_self_of_not_mem hids]
    · rw [filter_eq_self_of_not_mem hidp, filter_eq_self_of_not_mem hids, List.append_assoc,
        List.append_assoc, ← List.append_assoc (Removed.freed _)]
      exact (hperm.flatMap_right (·.1.ids)).append_right _
  · rw [find?_eq_none_of_not_mem hidl, filter_eq_self_of_not_mem hidl]
    by_cases hidp : id ∈ d.processing.map (·.id)
    · have hids : id ∉ d.serving.map (·.id) :=
        fun h' => hne _ (List.mem_append_right _ hidp) _ h' rfl
      obtain ⟨i, hmem, rfl⟩ := List.mem_map.mp hidp
      obtain ⟨-, hany, herase, hperm⟩ := found_of_mem hp hmem
      refine ⟨.processing i.id, ?_, rfl, hidp, ?_⟩
      · rw [filter_eq_self_of_not_mem hids, hany, herase]
        rfl
      · rw [filter_eq_self_of_not_mem hids, ← List.append_assoc]
        refine List.Perm.append_right _ ?_
        exact ((hperm.map (·.id)).append_left _).trans List.perm_middle
    · have hids : id ∈ d.serving.map (·.id) := by
        rcases List.mem_append.mp h with h | h
        · rcases List.mem_append.mp h with h | h
          · exact absurd h hidl
          · exact absurd h hidp
        · exact h
      obtain ⟨i, hmem, rfl⟩ := List.mem_map.mp hids
      obtain ⟨-, hany, herase, hperm⟩ := found_of_mem hs hmem
      refine ⟨.serving i.id, ?_, rfl, hids, ?_⟩
      · rw [filter_eq_self_of_not_mem hidp, any_eq_false_of_not_mem hidp, hany, herase]
        rfl
      · rw [filter_eq_self_of_not_mem hidp]
        exact ((hperm.map (·.id)).append_left _).trans List.perm_middle

/-- **There is nothing to remove** under an identifier of no entry, be it
one of an attached interceptor or not in use at all. -/
theorem remove_of_not_mem (h : id ∉ d.entryIds) : d.remove id = .error (.notFound id) := by
  unfold entryIds at h
  simp only [List.mem_append, not_or] at h
  obtain ⟨⟨hl, hp⟩, hs⟩ := h
  unfold remove
  rw [find?_eq_none_of_not_mem hl, any_eq_false_of_not_mem hp, any_eq_false_of_not_mem hs]
  rfl

end Draft

end Switchboard
