import Switchboard.Proofs.Registry.Draft

/-!
# Identifiers that are asked for

Whatever is to be registered asks for identifiers: a listener for its own
and for those of the interceptors attached to it, an interceptor for its
own. They are asked for in an order, listener by listener, and
`firstTaken?` finds the first of them that is in use or has been asked for
before.

Adding listeners looks at their identifiers in another way, at each one
against a draft that grows with every listener, and against the listener it
belongs to. It comes to the same: listeners are added if nothing they ask
for is taken, and refused for the first that is
(`addListeners_of_free`, `addListeners_of_taken`).
-/

namespace Switchboard

variable {β : Type}

/-- An identifier that is asked for. -/
inductive NewId where
  /-- A listener asks for it as its own. -/
  | listener (id : Id)
  /-- It is to be that of an interceptor. -/
  | interceptor (id : Id)

/-- The identifiers a listener asks for: its own, then those of the
interceptors attached to it. -/
def Listener.newIds (l : Listener β) : List NewId :=
  .listener l.id :: l.interceptors.map (.interceptor ·.id)

namespace NewId

/-- The identifier itself. -/
def id : NewId → Id
  | listener id => id
  | interceptor id => id

/-- The error if it is taken. -/
def refusal : NewId → RegistryError
  | listener id => .duplicateListener id
  | interceptor id => .duplicateInterceptor id

/-- **All identifiers can be given**: none is in use, and none is asked for
twice. -/
def Free (used : List Id) (ns : List NewId) : Prop :=
  (ns.map (·.id)).Nodup ∧ ∀ n ∈ ns, n.id ∉ used

/-- **The first identifier that is taken**: it is in use, or it has been
asked for before, and those before it can be given. -/
def FirstTaken (used : List Id) (ns : List NewId) (n : NewId) : Prop :=
  ∃ before after, ns = before ++ n :: after ∧ Free used before ∧
    (n.id ∈ used ∨ n.id ∈ before.map (·.id))

/-- Finds the first identifier that is taken. -/
def firstTaken? : List Id → List NewId → Option NewId
  | _, [] => none
  | used, n :: rest => if n.id ∈ used then some n else firstTaken? (n.id :: used) rest

variable {used used' : List Id} {n m : NewId} {ns ms : List NewId}

theorem free_nil (used : List Id) : Free used [] :=
  ⟨List.nodup_nil, fun _ h => absurd h List.not_mem_nil⟩

/-- An identifier that is given is in use for the next one. -/
theorem free_cons_iff : Free used (n :: ns) ↔ n.id ∉ used ∧ Free (n.id :: used) ns := by
  unfold Free
  rw [List.map_cons, List.nodup_cons, List.forall_mem_cons]
  constructor
  · rintro ⟨⟨hn, hnodup⟩, hused, h⟩
    refine ⟨hused, hnodup, fun m hm hmem => ?_⟩
    rcases List.mem_cons.mp hmem with he | hmem
    · exact hn (he ▸ List.mem_map_of_mem hm)
    · exact h m hm hmem
  · rintro ⟨hused, hnodup, h⟩
    refine ⟨⟨fun hn => ?_, hnodup⟩, hused, fun m hm => ?_⟩
    · obtain ⟨m, hm, he⟩ := List.mem_map.mp hn
      exact h m hm (he ▸ List.mem_cons_self)
    · exact fun hmem => h m hm (List.mem_cons_of_mem _ hmem)

theorem not_firstTaken_nil : ¬ FirstTaken used [] n := by
  rintro ⟨before, after, h, -⟩
  exact absurd h (by simp)

theorem firstTaken_cons_iff :
    FirstTaken used (m :: ns) n ↔
      m.id ∈ used ∧ n = m ∨ m.id ∉ used ∧ FirstTaken (m.id :: used) ns n := by
  constructor
  · rintro ⟨before, after, h, hfree, htaken⟩
    cases before with
    | nil =>
      cases h
      exact .inl ⟨htaken.resolve_right List.not_mem_nil, rfl⟩
    | cons b before =>
      cases h
      obtain ⟨hm, hfree⟩ := free_cons_iff.mp hfree
      refine .inr ⟨hm, before, after, rfl, hfree, ?_⟩
      rw [List.map_cons, List.mem_cons] at htaken
      rw [List.mem_cons, or_assoc, or_left_comm]
      exact htaken
  · rintro (⟨hm, rfl⟩ | ⟨hm, before, after, rfl, hfree, htaken⟩)
    · exact ⟨[], ns, rfl, free_nil used, .inl hm⟩
    · refine ⟨m :: before, after, rfl, free_cons_iff.mpr ⟨hm, hfree⟩, ?_⟩
      rw [List.mem_cons, or_assoc, or_left_comm] at htaken
      rw [List.map_cons, List.mem_cons]
      exact htaken

/-- **Nothing is found** if all identifiers can be given. -/
theorem firstTaken?_eq_none_iff : firstTaken? used ns = none ↔ Free used ns := by
  induction ns generalizing used with
  | nil => exact ⟨fun _ => free_nil used, fun _ => rfl⟩
  | cons m ns ih =>
    rw [free_cons_iff, ← ih, firstTaken?]
    by_cases hm : m.id ∈ used
    · simp [hm]
    · simp [hm]

/-- **What is found** is the first identifier that is taken. -/
theorem firstTaken?_eq_some_iff : firstTaken? used ns = some n ↔ FirstTaken used ns n := by
  induction ns generalizing used with
  | nil => exact ⟨fun h => absurd h (by simp [firstTaken?]), fun h => absurd h not_firstTaken_nil⟩
  | cons m ns ih =>
    rw [firstTaken_cons_iff, ← ih, firstTaken?]
    by_cases hm : m.id ∈ used
    · simp [hm, eq_comm]
    · simp [hm]

theorem mem_of_firstTaken? (h : firstTaken? used ns = some n) : n ∈ ns := by
  obtain ⟨before, after, rfl, -⟩ := firstTaken?_eq_some_iff.mp h
  exact List.mem_append_right before List.mem_cons_self

/-- Only which identifiers are in use matters. -/
theorem firstTaken?_congr (h : ∀ id, id ∈ used ↔ id ∈ used') :
    firstTaken? used ns = firstTaken? used' ns := by
  induction ns generalizing used used' with
  | nil => rfl
  | cons m ns ih =>
    have hcons : ∀ id, id ∈ m.id :: used ↔ id ∈ m.id :: used' := fun id => by
      rw [List.mem_cons, List.mem_cons, h]
    simp only [firstTaken?, h, ih hcons]

/-- If all identifiers can be given, the next ones are looked at with them
in use. -/
theorem firstTaken?_append_of_none (h : firstTaken? used ns = none) :
    firstTaken? used (ns ++ ms) = firstTaken? (used ++ ns.map (·.id)) ms := by
  induction ns generalizing used with
  | nil => rw [List.map_nil, List.append_nil, List.nil_append]
  | cons m ns ih =>
    obtain ⟨hm, hfree⟩ := free_cons_iff.mp (firstTaken?_eq_none_iff.mp h)
    rw [List.cons_append, firstTaken?, if_neg hm, ih (firstTaken?_eq_none_iff.mpr hfree)]
    refine firstTaken?_congr fun id => ?_
    rw [List.map_cons, List.cons_append, List.mem_cons, List.mem_append, List.mem_append,
      List.mem_cons, or_left_comm]

/-- If an identifier is taken, no one looks at the next ones. -/
theorem firstTaken?_append_of_some (h : firstTaken? used ns = some n) :
    firstTaken? used (ns ++ ms) = some n := by
  rw [firstTaken?_eq_some_iff] at h ⊢
  obtain ⟨before, after, rfl, hfree, htaken⟩ := h
  exact ⟨before, after ++ ms, by rw [List.append_assoc, List.cons_append], hfree, htaken⟩

end NewId

theorem Listener.map_id_newIds (l : Listener β) : l.newIds.map (·.id) = l.ids := by
  unfold newIds ids
  rw [List.map_cons, List.map_map]
  rfl

theorem Listener.map_id_flatMap_newIds (ls : List (Listener β)) :
    (ls.flatMap (·.newIds)).map (·.id) = ls.flatMap (·.ids) := by
  rw [List.map_flatMap]
  exact congrArg (ls.flatMap ·) (funext map_id_newIds)

/-- The identifiers that listeners ask for can be given if they are new and
no two of them are the same. -/
theorem Listener.free_newIds_iff {used : List Id} {ls : List (Listener β)} :
    NewId.Free used (ls.flatMap (·.newIds)) ↔
      (ls.flatMap (·.ids)).Nodup ∧ ∀ id ∈ ls.flatMap (·.ids), id ∉ used := by
  unfold NewId.Free
  rw [← map_id_flatMap_newIds, List.forall_mem_map]

/-! ## Adding listeners -/

namespace Draft

open NewId

variable {d d' : Draft β} {l : Listener β} {seq : Nat}

/-- An attached identifier is looked at with that of its listener and those
attached before it in use. -/
theorem takenAttached?_eq {own : Id} {earlier attached : List Id} :
    d.takenAttached? own earlier attached
      = (firstTaken? (own :: (d.ids ++ earlier)) (attached.map .interceptor)).map (·.id) := by
  induction attached generalizing earlier with
  | nil => rfl
  | cons a attached ih =>
    have hmem : (a = own ∨ d.contains a = true ∨ a ∈ earlier) ↔ a ∈ own :: (d.ids ++ earlier) := by
      rw [contains_iff, List.mem_cons, List.mem_append]
    unfold takenAttached?
    rw [List.map_cons, firstTaken?]
    by_cases ha : a ∈ own :: (d.ids ++ earlier)
    · rw [if_pos (hmem.mpr ha), if_pos (show (interceptor a).id ∈ _ from ha)]
      rfl
    · rw [if_neg (mt hmem.mp ha), if_neg (show (interceptor a).id ∉ _ from ha), ih]
      exact congrArg _ (firstTaken?_congr fun id =>
        ((List.perm_middle.cons own).trans (List.Perm.swap a own _)).mem_iff)

/-- **A listener is added** if nothing it asks for is taken, and refused
for the first that is. -/
theorem addListener_eq :
    d.addListener l seq =
      match firstTaken? d.ids l.newIds with
      | none => .ok (d.withListeners [(l, seq)])
      | some n => .error n.refusal := by
  have hattached : d.takenAttached? l.id [] (l.interceptors.map (·.id))
      = (firstTaken? (l.id :: d.ids) (l.interceptors.map (.interceptor ·.id))).map (·.id) := by
    rw [takenAttached?_eq, List.append_nil, List.map_map]
    rfl
  unfold addListener Listener.newIds
  rw [firstTaken?]
  by_cases hown : l.id ∈ d.ids
  · rw [if_pos (contains_iff.mpr hown), if_pos (show (listener l.id).id ∈ _ from hown)]
    rfl
  · rw [if_neg (mt contains_iff.mp hown), if_neg (show (listener l.id).id ∉ _ from hown), hattached]
    show _ = match firstTaken? (l.id :: d.ids) (l.interceptors.map fun i => .interceptor i.id) with
      | none => _
      | some n => _
    cases htaken : firstTaken? (l.id :: d.ids) (l.interceptors.map fun i => .interceptor i.id) with
    | none => rfl
    | some n =>
      obtain ⟨i, -, rfl⟩ := List.mem_map.mp (mem_of_firstTaken? htaken)
      rfl

/-- Once a listener is added, what it asked for is in use. -/
theorem firstTaken?_withListeners (d : Draft β) (l : Listener β) (seq : Nat) (ns : List NewId) :
    firstTaken? (d.withListeners [(l, seq)]).ids ns
      = firstTaken? (d.ids ++ l.newIds.map (·.id)) ns := by
  refine firstTaken?_congr fun id => ?_
  rw [(ids_withListeners_perm d [(l, seq)]).mem_iff, l.map_id_newIds, List.flatMap_singleton]

/-- **Listeners are added** if nothing they ask for is taken. They are
numbered as they stand. -/
theorem addListeners_of_free {ls : List (Listener β)}
    (h : firstTaken? d.ids (ls.flatMap (·.newIds)) = none) :
    d.addListeners seq ls = (.ok (d.withListeners (ls.zipIdx seq)), seq + ls.length) := by
  induction ls generalizing d seq with
  | nil => simp [addListeners, withListeners]
  | cons l ls ih =>
    rw [List.flatMap_cons] at h
    cases hl : firstTaken? d.ids l.newIds with
    | some n => exact absurd ((firstTaken?_append_of_some hl).symm.trans h) (by simp)
    | none =>
      rw [firstTaken?_append_of_none hl, ← firstTaken?_withListeners d l seq] at h
      unfold addListeners
      rw [addListener_eq, hl]
      show addListeners _ _ ls = _
      rw [ih h, List.length_cons, List.zipIdx_cons, Nat.add_assoc, Nat.add_comm 1]
      simp [withListeners]

/-- **Listeners are refused** for the first identifier that is taken. -/
theorem addListeners_of_taken {ls : List (Listener β)} {n : NewId}
    (h : firstTaken? d.ids (ls.flatMap (·.newIds)) = some n) :
    (d.addListeners seq ls).1 = .error n.refusal := by
  induction ls generalizing d seq with
  | nil => exact absurd h (by simp [firstTaken?])
  | cons l ls ih =>
    rw [List.flatMap_cons] at h
    unfold addListeners
    rw [addListener_eq]
    cases hl : firstTaken? d.ids l.newIds with
    | some m =>
      rw [firstTaken?_append_of_some hl] at h
      cases h
      rfl
    | none =>
      rw [firstTaken?_append_of_none hl, ← firstTaken?_withListeners d l seq] at h
      exact ih h

/-- A number that is drawn is not given back. -/
theorem le_addListeners (d : Draft β) (seq : Nat) (ls : List (Listener β)) :
    seq ≤ (d.addListeners seq ls).2 := by
  induction ls generalizing d seq with
  | nil => exact Nat.le_refl seq
  | cons l ls ih =>
    unfold addListeners
    cases d.addListener l seq with
    | error e => exact Nat.le_refl seq
    | ok d => exact Nat.le_of_succ_le (ih d (seq + 1))

end Draft

namespace Registry

open NewId

variable {r : Registry β} {ls : List (Listener β)}

/-- **Listeners are registered** if nothing they ask for is taken. -/
theorem registerAll_of_free
    (h : firstTaken? r.snapshot.draft.ids (ls.flatMap (·.newIds)) = none) :
    r.registerAll ls = (.ok (), ⟨(r.snapshot.draft.withListeners (ls.zipIdx r.seq)).commit,
      r.seq + ls.length⟩) := by
  unfold registerAll
  rw [Draft.addListeners_of_free h]

/-- **Listeners are refused** for the first identifier that is taken, and
numbers may have been drawn for those before it. -/
theorem registerAll_of_taken {n : NewId}
    (h : firstTaken? r.snapshot.draft.ids (ls.flatMap (·.newIds)) = some n) :
    ∃ seq, r.registerAll ls = (.error n.refusal, { r with seq }) ∧ r.seq ≤ seq := by
  have herror : (r.snapshot.draft.addListeners r.seq ls).1 = .error n.refusal :=
    Draft.addListeners_of_taken h
  have hle := r.snapshot.draft.le_addListeners r.seq ls
  unfold registerAll
  match hadd : r.snapshot.draft.addListeners r.seq ls with
  | (.ok d, seq) =>
    rw [hadd] at herror
    exact absurd herror (by simp)
  | (.error e, seq) =>
    rw [hadd] at herror hle
    cases herror
    exact ⟨seq, rfl, hle⟩

end Registry

end Switchboard
