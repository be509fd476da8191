import Switchboard.Proofs.Hub.Evolution
import Switchboard.Proofs.Registry.Names

/-!
# What is admitted

Whatever is to be registered at once is admitted as a whole or refused as
a whole. Listeners are admitted if the identifiers they ask for can be
given, in a registry that holds whatever it holds, and a plan is admitted
if those of its interceptors and its listeners can be given in an empty
one. What is refused is refused for the first identifier that is taken, in
the order in which they are asked for, and leaves everything as it was but
for numbers that no entry has (`admission`).

A plan adds its interceptors one by one, so the identifiers in use grow as
it is carried out. They are those of the ledger at each point, which is
what the induction over the interceptors goes by.
-/

namespace Switchboard

variable {β σ : Type}

open NewId

/-- The identifier a planned interceptor asks for. -/
def PlannedInterceptor.newId (i : PlannedInterceptor β) : NewId := .interceptor i.id

/-- The identifiers a plan asks for: those of its interceptors as they are
declared, then those of its listeners. -/
def HubPlan.newIds (p : HubPlan β) : List NewId :=
  p.interceptors.map (·.newId) ++ p.listeners.flatMap (·.newIds)

/-- What succeeds if nothing asked for is taken, and is otherwise refused
for the first that is, succeeds exactly if everything can be given. -/
theorem NewId.verdict {γ : Type} {used : List Id} {ns : List NewId}
    {o : Except RegistryError γ} {a : γ} (hfree : firstTaken? used ns = none → o = .ok a)
    (htaken : ∀ n, firstTaken? used ns = some n → o = .error n.refusal) :
    (∀ a', o = .ok a' ↔ Free used ns ∧ a' = a) ∧
      ∀ e, o = .error e ↔ ∃ n, FirstTaken used ns n ∧ e = n.refusal := by
  cases h : firstTaken? used ns with
  | none =>
    have hno : ∀ n, ¬ FirstTaken used ns n := fun n hn =>
      absurd (h.symm.trans (firstTaken?_eq_some_iff.mpr hn)) (by simp)
    rw [hfree h]
    refine ⟨fun a' => ⟨?_, ?_⟩, fun e => ⟨fun he => absurd he (by simp), ?_⟩⟩
    · intro ha
      cases ha
      exact ⟨firstTaken?_eq_none_iff.mp h, rfl⟩
    · rintro ⟨-, rfl⟩
      rfl
    · rintro ⟨n, hn, -⟩
      exact absurd hn (hno n)
  | some n =>
    rw [htaken n h]
    refine ⟨fun a' => ⟨fun ha => absurd ha (by simp), ?_⟩, fun e => ⟨?_, ?_⟩⟩
    · rintro ⟨hall, -⟩
      exact absurd (h.symm.trans (firstTaken?_eq_none_iff.mpr hall)) (by simp)
    · intro he
      cases he
      exact ⟨n, firstTaken?_eq_some_iff.mp h, rfl⟩
    · rintro ⟨m, hm, rfl⟩
      cases h.symm.trans (firstTaken?_eq_some_iff.mpr hm)
      rfl

/-! ## Interceptors, one by one -/

namespace Registry

variable {r : Registry β} {es : NumberedLedger β}

/-- An interceptor can be added if its identifier is not in use. -/
theorem Keeps.nodup_append_singleton_iff (h : r.Keeps es) {id : Id} :
    (es.entries.ids ++ [id]).Nodup ↔ id ∉ es.entries.ids := by
  rw [h.nodup_append_iff, ← h.ids_perm.mem_iff]
  constructor
  · rintro ⟨-, hnew⟩
    exact hnew id List.mem_cons_self
  · intro hid
    refine ⟨List.nodup_cons.mpr ⟨List.not_mem_nil, List.nodup_nil⟩, fun a ha => ?_⟩
    rwa [List.mem_singleton.mp ha]

/-- Once an interceptor is added, its identifier is in use. -/
theorem firstTaken?_entries_append (es : NumberedLedger β) (i : PlannedInterceptor β) (seq : Nat)
    (ns : List NewId) :
    firstTaken? (es ++ [(.interceptor i, seq)] : NumberedLedger β).entries.ids ns
      = firstTaken? (i.id :: es.entries.ids) ns := by
  refine firstTaken?_congr fun id => ?_
  unfold NumberedLedger.entries Ledger.ids
  rw [List.map_append, List.flatMap_append, List.mem_append, List.mem_cons, or_comm]
  exact or_congr_left List.mem_singleton

/-- **Interceptors are added one by one** if nothing they ask for is taken. -/
theorem Keeps.addInterceptors_of_free (h : r.Keeps es) {is : List (PlannedInterceptor β)}
    (hfree : firstTaken? es.entries.ids (is.map (·.newId)) = none) :
    HubPlan.addInterceptors r is = .ok (r.applyAll (is.map .add)) ∧
      ∃ es', (r.applyAll (is.map .add)).Keeps es' ∧
        es'.entries = es.entries ++ is.map .interceptor := by
  induction is generalizing r es with
  | nil => exact ⟨rfl, es, h, by rw [List.map_nil, List.append_nil]⟩
  | cons i is ih =>
    obtain ⟨hi, hrest⟩ := free_cons_iff.mp (firstTaken?_eq_none_iff.mp hfree)
    obtain ⟨s, hadd, hkeeps⟩ := h.add (h.nodup_append_singleton_iff.mpr hi)
    rw [← firstTaken?_eq_none_iff, show i.newId.id = i.id from rfl,
      ← firstTaken?_entries_append es i r.seq] at hrest
    obtain ⟨hadds, es', hkeeps', hentries⟩ := ih hkeeps hrest
    have happly : r.applyAll ((i :: is).map .add)
        = Registry.applyAll ⟨s, r.seq + 1⟩ (is.map .add) := by
      show Registry.applyAll (i.addTo r).2 _ = _
      rw [hadd]
    rw [happly]
    refine ⟨?_, es', hkeeps', ?_⟩
    · unfold HubPlan.addInterceptors
      rw [hadd]
      exact hadds
    · rw [hentries]
      unfold NumberedLedger.entries
      rw [List.map_append, List.append_assoc]
      rfl

/-- **Interceptors are refused** for the first identifier that is taken. -/
theorem Keeps.addInterceptors_of_taken (h : r.Keeps es) {is : List (PlannedInterceptor β)}
    {n : NewId} (htaken : firstTaken? es.entries.ids (is.map (·.newId)) = some n) :
    HubPlan.addInterceptors r is = .error n.refusal := by
  induction is generalizing r es with
  | nil => exact absurd htaken (by simp [firstTaken?])
  | cons i is ih =>
    unfold HubPlan.addInterceptors
    rcases firstTaken_cons_iff.mp (firstTaken?_eq_some_iff.mp htaken) with
      ⟨hi, rfl⟩ | ⟨hi, hrest⟩
    · rw [h.add_refused fun hn => h.nodup_append_singleton_iff.mp hn hi]
      rfl
    · obtain ⟨s, hadd, hkeeps⟩ := h.add (h.nodup_append_singleton_iff.mpr hi)
      rw [← firstTaken?_eq_some_iff, show i.newId.id = i.id from rfl,
        ← firstTaken?_entries_append es i r.seq] at hrest
      rw [hadd]
      exact ih hkeeps hrest

end Registry

/-! ## Plans -/

namespace HubPlan

variable {p : HubPlan β} {n : NewId}

/-- The interceptors of a plan are added if nothing they ask for is taken,
and what they have asked for is in use from then on. -/
theorem addInterceptors_empty {is : List (PlannedInterceptor β)}
    (h : firstTaken? [] (is.map (·.newId)) = none) :
    let r := Registry.after (is.map .add)
    addInterceptors .empty is = .ok r ∧ (∃ es, r.Keeps es) ∧
      ∀ ns, firstTaken? [] (is.map (·.newId) ++ ns) = firstTaken? r.snapshot.draft.ids ns := by
  intro r
  obtain ⟨hadds, es, hkeeps, hentries⟩ := (Registry.keeps_nil 0).addInterceptors_of_free h
  have hids : es.entries.ids = (is.map (·.newId)).map (·.id) := by
    rw [hentries]
    show Ledger.ids (is.map .interceptor) = _
    unfold Ledger.ids
    rw [List.flatMap_map, List.map_map]
    exact List.map_eq_flatMap.symm
  refine ⟨hadds, ⟨es, hkeeps⟩, fun ns => ?_⟩
  rw [firstTaken?_append_of_none h, List.nil_append, ← hids]
  exact firstTaken?_congr fun _ => hkeeps.ids_perm.mem_iff.symm

/-- **A plan is carried out** if nothing it asks for is taken: as if
everything had been added one by one. -/
theorem registry_of_free (h : firstTaken? [] p.newIds = none) :
    let r := Registry.after (p.interceptors.map .add ++ [.registerAll p.listeners])
    let each := Registry.after
      (p.interceptors.map .add ++ p.listeners.map fun l => .registerAll [l])
    p.registry = .ok r ∧ r.snapshot.SameEntries each.snapshot ∧ r.seq = each.seq := by
  intro r each
  cases hi : firstTaken? [] (p.interceptors.map (·.newId)) with
  | some n => exact absurd ((firstTaken?_append_of_some hi).symm.trans h) (by simp)
  | none =>
    obtain ⟨hadds, ⟨es, hkeeps⟩, hscan⟩ := addInterceptors_empty hi
    unfold newIds at h
    rw [hscan, firstTaken?_eq_none_iff, hkeeps.free_newIds_iff] at h
    obtain ⟨s, hreg, hall⟩ := hkeeps.registerAll h
    obtain ⟨heach, hseq⟩ := hkeeps.registerEach h
    have hr : r = _ := (Registry.applyAll_append _ _ _).trans (congrArg Prod.snd hreg)
    have he : each = _ := Registry.applyAll_append _ _ _
    rw [hr, he]
    refine ⟨?_, hall.sameEntries heach, hseq.symm⟩
    unfold registry
    rw [hadds]
    simp only [hreg]

/-- **A plan is refused** for the first identifier that is taken. -/
theorem registry_of_taken (h : firstTaken? [] p.newIds = some n) :
    p.registry = .error n.refusal := by
  unfold registry
  cases hi : firstTaken? [] (p.interceptors.map (·.newId)) with
  | some m =>
    cases (firstTaken?_append_of_some hi).symm.trans h
    have hrefused := (Registry.keeps_nil 0).addInterceptors_of_taken hi
    rw [show addInterceptors .empty p.interceptors = _ from hrefused]
  | none =>
    obtain ⟨hadds, -, hscan⟩ := addInterceptors_empty hi
    unfold newIds at h
    rw [hscan] at h
    obtain ⟨seq, hreg, -⟩ := Registry.registerAll_of_taken h
    rw [hadds]
    simp only [hreg]

end HubPlan

/-- **Admission.** Listeners are registered if all they ask for can be
given, and otherwise refused for the first identifier that is taken; then
the hub is as it was but for numbers drawn. A plan makes a hub if all it
asks for can be given, one whose registry is as if everything had been
added one by one, and is otherwise refused for the first identifier that
is taken. -/
theorem admission (h : Hub β σ) (ls : List (Listener β)) (p : HubPlan β) (memory : σ) :
    let answer := h.answer (.registerAll ls)
    let asked := ls.flatMap (·.newIds)
    let ids := h.registry.snapshot.ids
    let r := Registry.after (p.interceptors.map .add ++ [.registerAll p.listeners])
    let each := Registry.after
      (p.interceptors.map .add ++ p.listeners.map fun l => .registerAll [l])
    (answer.1 = .ok () ↔ Free ids asked) ∧
      (∀ e, answer.1 = .error e ↔ ∃ n, FirstTaken ids asked n ∧ e = n.refusal) ∧
      (∀ e, answer.1 = .error e →
        ∃ seq, answer.2 = { h with registry := { h.registry with seq } }) ∧
      (∀ hub, p.build memory = .ok hub ↔
        (p.newIds.map (·.id)).Nodup ∧ hub = .fresh r p.settings memory) ∧
      (∀ e, p.build memory = .error e ↔ ∃ n, FirstTaken [] p.newIds n ∧ e = n.refusal) ∧
      ((p.newIds.map (·.id)).Nodup → r.snapshot.SameEntries each.snapshot ∧ r.seq = each.seq) := by
  intro answer asked ids r each
  have hids : ids = h.registry.snapshot.draft.ids := Snapshot.ids_eq _
  have hfree : Free [] p.newIds ↔ (p.newIds.map (·.id)).Nodup :=
    and_iff_left fun _ _ => List.not_mem_nil
  obtain ⟨hok, herror⟩ : _ ∧ ∀ e, answer.1 = .error e ↔ _ :=
    verdict (fun hnone => congrArg Prod.fst (Registry.registerAll_of_free (hids ▸ hnone)))
      fun n hn => by
        obtain ⟨seq, hr, -⟩ := Registry.registerAll_of_taken (hids ▸ hn)
        exact congrArg Prod.fst hr
  have hbuild := verdict (o := p.build memory) (a := .fresh r p.settings memory)
    (fun hnone => by rw [HubPlan.build, (HubPlan.registry_of_free hnone).1]; rfl)
    fun n hn => by rw [HubPlan.build, HubPlan.registry_of_taken hn]; rfl
  refine ⟨?_, herror, fun e he => ?_, fun hub => ?_, hbuild.2, fun hn => ?_⟩
  · exact (hok ()).trans (and_iff_left rfl)
  · obtain ⟨n, hn, -⟩ := (herror e).mp he
    obtain ⟨seq, hr, -⟩ :=
      Registry.registerAll_of_taken (hids ▸ firstTaken?_eq_some_iff.mpr hn)
    refine ⟨seq, ?_⟩
    show { h with registry := (h.registry.registerAll ls).2 } = _
    rw [hr]
  · rw [← hfree]
    exact hbuild.1 hub
  · exact (HubPlan.registry_of_free (firstTaken?_eq_none_iff.mpr (hfree.mpr hn))).2

/-- Two listeners with interceptors of one identifier are refused for the
second one, and so is a plan in which a listener has the identifier of an
interceptor attached. Without the interceptor it makes a hub. -/
theorem admission_taken :
    let a : Id := ⟨"a", by decide⟩
    let b : Id := ⟨"b", by decide⟩
    let x : Id := ⟨"x", by decide⟩
    let h : Hub Unit Unit := .fresh .empty .default ()
    let answer := h.answer (.registerAll [.guarded a x .normal, .guarded b x .normal])
    let p : HubPlan Unit := ⟨[.guarded a x .normal], [], .default⟩
    answer.1 = .error (.duplicateInterceptor x) ∧
      (∃ seq, answer.2 = { h with registry := { h.registry with seq } }) ∧
      { p with interceptors := [.processing x .normal ()] }.build ()
        = .error (.duplicateInterceptor x) ∧
      p.build () = .ok (.fresh (Registry.after [.registerAll p.listeners]) p.settings ()) := by
  intro a b x h answer p
  obtain ⟨-, herror, hsame, -⟩ :=
    admission h [.guarded a x .normal, .guarded b x .normal] p ()
  have hanswer : answer.1 = .error (.duplicateInterceptor x) :=
    (herror _).mpr ⟨.interceptor x, firstTaken?_eq_some_iff.mp rfl, rfl⟩
  obtain ⟨-, -, -, -, hrefused, -⟩ :=
    admission h [] { p with interceptors := [.processing x .normal ()] } ()
  obtain ⟨-, -, -, hbuilt, -⟩ := admission h [] p ()
  exact ⟨hanswer, hsame _ hanswer,
    (hrefused _).mpr ⟨.interceptor x, firstTaken?_eq_some_iff.mp rfl, rfl⟩,
    (hbuilt _).mpr ⟨by decide, rfl⟩⟩

end Switchboard
