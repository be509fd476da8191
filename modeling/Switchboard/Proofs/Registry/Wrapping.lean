import Mathlib.Data.List.Nodup
import Mathlib.Data.List.Pairwise
import Switchboard.Proofs.Registry.Names

/-!
# What wraps a listener

A listener is kept with its chains, which were resolved when the snapshot
was committed. Listeners outlive changes of the interceptors that serve all
of them, and interceptors outlive changes of the listeners, so the chains
have to be resolved anew by every commit. That they are is a part of
`Registry.Keeps`; here it is read off the ledger, where nothing is cached
(`Ledger.wrapping`): the serving interceptors in the order in which they
were added, those attached to the listener in the order in which they were
declared, sorted by priority alone, with equals as they stand.

Serving interceptors and attached ones are numbered by two counters that
know nothing of each other. The order of the wrappers compares numbers of
one counter only, and is the order by a single number nevertheless: that of
a serving interceptor, and for an attached one its number past all of those
(`wrapKey`). This number grows along the interceptors as the ledger lists
them, which is what makes the sort stable.

Attached interceptors are numbered as declared because listeners are built
that way. A list of any other numbers cannot be attached, and calls that
bring listeners along are taken to bring listeners that were built
(`RegistryCall.Built`).
-/

namespace Switchboard

variable {β : Type}

/-! ## Listeners that were built -/

/-- A listener is one that was described and finished. -/
def Listener.Built (l : Listener β) : Prop := ∃ d : ListenerDraft β, d.build = .ok l

/-- A call brings only listeners along that were built. -/
def RegistryCall.Built : RegistryCall β → Prop
  | registerAll ls => ∀ l ∈ ls, l.Built
  | _ => True

/-- The interceptors of a listener that was built are numbered as they
stand. -/
theorem Listener.Built.growing {l : Listener β} (h : l.Built) :
    l.interceptors.Pairwise fun a b => a.seq < b.seq := by
  obtain ⟨d, hd⟩ := h
  unfold ListenerDraft.build at hd
  split at hd
  · exact absurd hd (by simp)
  · obtain rfl := Except.ok.inj hd
    show (attach d.attachments).Pairwise _
    unfold attach
    rw [List.mapIdx_eq_zipIdx_map, List.pairwise_map]
    show d.attachments.zipIdx.Pairwise fun a b => a.2 < b.2
    rw [← List.pairwise_map (R := (· < ·)), List.zipIdx_map_snd]
    exact List.pairwise_lt_range'

/-- All listeners of a ledger were built. -/
def Ledger.Built (g : Ledger β) : Prop := ∀ l, Entry.listener l ∈ g → l.Built

theorem Ledger.Built.apply {g : Ledger β} (h : g.Built) {c : RegistryCall β} (hc : c.Built) :
    (g.apply c).Built := by
  have hadd : ∀ es : Ledger β, Ledger.Built es → (g.add es).Built := by
    intro es hes l hl
    unfold add at hl
    split at hl
    · exact (List.mem_append.mp hl).elim (h l) (hes l)
    · exact h l hl
  cases c with
  | registerAll ls =>
    refine hadd _ fun l hl => ?_
    obtain ⟨l', hl', he⟩ := List.mem_map.mp hl
    cases he
    exact hc l hl'
  | add i => exact hadd _ fun l hl => absurd (List.mem_singleton.mp hl) (by simp)
  | unregister id => exact fun l hl => h l (List.mem_filter.mp hl).1
  | clear => exact fun l hl => absurd hl List.not_mem_nil
  | lookUp key => exact h

/-- **Calls that bring listeners along that were built** leave only such
listeners. -/
theorem Ledger.built_after {calls : List (RegistryCall β)} (h : ∀ c ∈ calls, c.Built) :
    (Ledger.after calls).Built := by
  have key : ∀ (calls : List (RegistryCall β)) (g : Ledger β), g.Built →
      (∀ c ∈ calls, c.Built) → Ledger.Built (calls.foldl Ledger.apply g) := by
    intro calls
    induction calls with
    | nil => exact fun g hg _ => hg
    | cons c calls ih =>
      intro g hg hcalls
      exact ih _ (hg.apply (hcalls c List.mem_cons_self))
        fun c' hc' => hcalls c' (List.mem_cons_of_mem c hc')
  exact key calls [] (fun l hl => absurd hl List.not_mem_nil) h

/-! ## Interceptors without their numbers -/

/-- A listener interceptor as it was declared. -/
def ListenerInterceptor.attachment (i : ListenerInterceptor β) : Listener.Attachment β :=
  ⟨i.id, i.priority, i.point, i.run⟩

/-- An interceptor of a chain, which wraps a point, as it was declared. -/
def Interceptor.attachment (i : Interceptor β) (point : InterceptPoint) :
    Listener.Attachment β :=
  ⟨i.id, i.priority, point, i.run⟩

/-- The interceptors of a listener as they were declared. -/
def Listener.attachments (l : Listener β) : List (Listener.Attachment β) :=
  l.interceptors.map (·.attachment)

/-- What an entry wraps all listeners with. -/
def Entry.wrapper? : Entry β → Option (Listener.Attachment β)
  | interceptor (.serving id priority point run) => some ⟨id, priority, point, run⟩
  | _ => none

/-- The interceptors that apply to a listener: those that serve all of
them as they were added, then its own as they were declared. -/
def Ledger.applying (g : Ledger β) (l : Listener β) : List (Listener.Attachment β) :=
  g.filterMap Entry.wrapper? ++ l.attachments

/-- **What wraps a listener**, outermost first: the interceptors that
apply to it by priority, and equals as they stand. -/
def Ledger.wrapping (g : Ledger β) (l : Listener β) : List (Listener.Attachment β) :=
  (g.applying l).mergeSort fun a b => a.priority.le b.priority

/-- The chain of a listener at a point. -/
def ResolvedListener.chain (r : ResolvedListener β) : InterceptPoint → List (Interceptor β)
  | .beforeMatch => r.before
  | .afterMatch => r.after

/-- A chain that is resolved holds the wrappers of its point. -/
theorem chain_resolve (l : Listener β) (seq : Nat) (serving : List (ListenerInterceptor β))
    (point : InterceptPoint) :
    (resolve l seq serving).chain point
      = ((wrappers l serving).filter (·.point == point)).map (·.toInterceptor) := by
  cases point <;> rfl

/-- What a chain holds is what wraps the listener at its point. -/
theorem map_chain_resolve (l : Listener β) (seq : Nat) (serving : List (ListenerInterceptor β))
    (point : InterceptPoint) :
    ((resolve l seq serving).chain point).map (·.attachment point)
      = ((wrappers l serving).map (·.attachment)).filter (·.point == point) := by
  rw [chain_resolve, List.map_map, List.filter_map]
  refine List.map_congr_left fun i hi => ?_
  have hpoint : i.point = point := beq_iff_eq.mp (List.mem_filter.mp hi).2
  show (⟨i.id, i.priority, point, i.run⟩ : Listener.Attachment β) = _
  rw [← hpoint]
  rfl

/-! ## The order of the wrappers -/

/-- The place of a wrapper in the order: an attached one is numbered past
a bound of the numbers of serving ones. -/
def wrapKey (bound : Nat) (w : Bool × ListenerInterceptor β) : Priority × Nat :=
  (w.2.priority, if w.1 = true then bound + w.2.seq else w.2.seq)

/-- **One number for both counters**: below the bound, wrappers are in the
order by priority and place. -/
theorem wrapsBefore_eq {bound : Nat} {v w : Bool × ListenerInterceptor β}
    (hv : v.1 = false → v.2.seq < bound) (hw : w.1 = false → w.2.seq < bound) :
    wrapsBefore v w = orderedBy (wrapKey bound v) (wrapKey bound w) := by
  obtain ⟨v₁, v⟩ := v
  obtain ⟨w₁, w⟩ := w
  rw [Bool.eq_iff_iff, orderedBy_iff]
  unfold wrapsBefore wrapKey
  cases v₁ <;> cases w₁ <;> simp at hv hw ⊢ <;> omega

/-- **The wrappers of a listener are in the stable order by priority**,
serving ones before attached ones, if the numbers of each kind grow along
the kind. In which order the serving ones are at hand does not matter. -/
theorem map_wrappers {l : Listener β} {serving served : List (ListenerInterceptor β)}
    {bound : Nat} (hperm : serving.Perm served)
    (hserved : served.Pairwise fun a b => a.seq < b.seq) (hbound : ∀ i ∈ served, i.seq < bound)
    (hown : l.interceptors.Pairwise fun a b => a.seq < b.seq) :
    (wrappers l serving).map (·.attachment)
      = (served.map (·.attachment) ++ l.attachments).mergeSort fun a b =>
          a.priority.le b.priority := by
  let both (is : List (ListenerInterceptor β)) : List (Bool × ListenerInterceptor β) :=
    is.map (false, ·) ++ l.interceptors.map (true, ·)
  have hboth : (both serving).Perm (both served) := (hperm.map _).append_right _
  have hbelow : ∀ w ∈ both serving, w.1 = false → w.2.seq < bound := by
    intro w hw hfalse
    rcases List.mem_append.mp hw with hw | hw
    · obtain ⟨i, hi, rfl⟩ := List.mem_map.mp hw
      exact hbound i (hperm.mem_iff.mp hi)
    · obtain ⟨i, -, rfl⟩ := List.mem_map.mp hw
      exact absurd hfalse (by simp)
  have hgrowing : (both served).Pairwise fun v w => (wrapKey bound v).2 < (wrapKey bound w).2 := by
    refine List.pairwise_append.mpr ⟨?_, ?_, fun v hv w hw => ?_⟩
    · rw [List.pairwise_map]
      exact hserved
    · rw [List.pairwise_map]
      exact hown.imp fun hlt => Nat.add_lt_add_left hlt bound
    · obtain ⟨i, hi, rfl⟩ := List.mem_map.mp hv
      obtain ⟨j, -, rfl⟩ := List.mem_map.mp hw
      exact Nat.lt_add_right j.seq (hbound i hi)
  have hsort : (both serving).mergeSort wrapsBefore = inOrder (wrapKey bound) (both serving) := by
    have h := List.map_mergeSort (f := id) (r := wrapsBefore)
      (s := fun v w => orderedBy (wrapKey bound v) (wrapKey bound w))
      fun v hv w hw => wrapsBefore_eq (hbelow v hv) (hbelow w hw)
    rwa [List.map_id, List.map_id] at h
  calc (wrappers l serving).map (·.attachment)
      = (((both serving).mergeSort wrapsBefore).map (·.2)).map (·.attachment) := rfl
    _ = (inOrder (wrapKey bound) (both served)).map fun w => w.2.attachment := by
        rw [hsort, inOrder_congr (.of_pairwise hgrowing) hboth, List.map_map]
        rfl
    _ = ((both served).map fun w => w.2.attachment).mergeSort fun a b =>
          a.priority.le b.priority :=
        map_inOrder hgrowing fun _ _ => rfl
    _ = _ := by
        rw [List.map_append, List.map_map, List.map_map]
        rfl

/-! ## Whose identifiers they are -/

namespace Draft

variable {d : Draft β} {p q : Listener β × Nat}

/-- The identifiers of the interceptors that apply to a listener. -/
def applyingIds (d : Draft β) (l : Listener β) : List Id :=
  d.serving.map (·.id) ++ l.interceptors.map (·.id)

/-- No identifier comes twice among the interceptors that apply to a
listener. -/
theorem nodup_applyingIds (hd : d.ids.Nodup) (hp : p ∈ d.listeners) :
    (d.applyingIds p.1).Nodup := by
  obtain ⟨hlp, hs, hne⟩ := List.nodup_append.mp hd
  obtain ⟨hl, -⟩ := List.nodup_flatMap.mp (List.nodup_append.mp hlp).1
  refine List.nodup_append.mpr ⟨hs, (List.nodup_cons.mp (hl p hp)).2, fun a ha b hb he => ?_⟩
  refine hne b (List.mem_append_left _ (List.mem_flatMap.mpr ⟨p, hp, ?_⟩)) a ha he.symm
  exact List.mem_cons_of_mem _ hb

/-- **An interceptor attached to one listener** applies to no other one. -/
theorem not_mem_applyingIds (hd : d.ids.Nodup) (hp : p ∈ d.listeners) (hq : q ∈ d.listeners)
    (hpq : p ≠ q) {id : Id} (hid : id ∈ p.1.interceptors.map (·.id)) :
    id ∉ d.applyingIds q.1 := by
  obtain ⟨hlp, -, hne⟩ := List.nodup_append.mp hd
  obtain ⟨-, hdisjoint⟩ := List.nodup_flatMap.mp (List.nodup_append.mp hlp).1
  have hown : id ∈ p.1.ids := List.mem_cons_of_mem _ hid
  intro hmem
  rcases List.mem_append.mp hmem with hmem | hmem
  · exact hne id (List.mem_append_left _ (List.mem_flatMap.mpr ⟨p, hp, hown⟩)) id hmem rfl
  · have hsymm : Std.Symm (Function.onFun List.Disjoint fun q : Listener β × Nat => q.1.ids) :=
      ⟨fun _ _ h _ ha hb => h hb ha⟩
    exact hdisjoint.forall hp hq hpq hown (List.mem_cons_of_mem _ hmem)

end Draft

namespace Registry

open NumberedLedger

variable {r : Registry β} {es : NumberedLedger β} {l : ResolvedListener β}

/-- A listener of the snapshot is one of the entries that are kept. -/
theorem Keeps.mem_draft_listeners (h : r.Keeps es) (hl : l ∈ r.snapshot.listeners) :
    (l.listener, l.seq) ∈ es.draft.listeners :=
  h.agrees.listeners.mem_iff.mp (List.mem_map.mpr ⟨l, hl, rfl⟩)

theorem Keeps.nodup_draft (h : r.Keeps es) : es.draft.ids.Nodup :=
  es.ids_draft_perm.nodup_iff.mpr h.distinct

/-- What entries wrap all listeners with are the serving interceptors of
the draft. -/
theorem map_serving_draft (es : NumberedLedger β) :
    es.draft.serving.map (·.attachment) = es.entries.filterMap Entry.wrapper? :=
  map_filterMap_eq fun e n => by
    rcases e with l | ⟨id, priority, run⟩ | ⟨id, priority, point, run⟩ <;> rfl

/-- The interceptors that apply to a listener have the identifiers that
the draft says. -/
theorem map_applying (es : NumberedLedger β) (l : Listener β) :
    (es.entries.applying l).map (·.id) = es.draft.applyingIds l := by
  unfold Ledger.applying Draft.applyingIds Listener.attachments
  rw [← map_serving_draft, List.map_append, List.map_map, List.map_map]
  rfl

/-- **A chain holds what wraps the listener at its point**, according to
the ledger. -/
theorem Keeps.chain_eq (h : r.Keeps es) (hbuilt : es.entries.Built)
    (hl : l ∈ r.snapshot.listeners) (point : InterceptPoint) :
    (l.chain point).map (·.attachment point)
      = (es.entries.wrapping l.listener).filter (·.point == point) := by
  have hmem : l.listener ∈ es.entries.filterMap Entry.listener? := by
    have hmap : l.listener ∈ r.snapshot.listeners.map (·.listener) := List.mem_map_of_mem hl
    rw [h.listeners_eq] at hmap
    exact List.mem_mergeSort.mp hmap
  have hown : l.listener.Built := by
    obtain ⟨e, he, hel⟩ := List.mem_filterMap.mp hmem
    cases e with
    | listener l' =>
      obtain rfl : l' = l.listener := Option.some.inj hel
      exact hbuilt _ he
    | interceptor i => exact absurd hel (by simp [Entry.listener?])
  have hbound : ∀ i ∈ es.draft.serving, i.seq < r.seq := by
    intro i hi
    obtain ⟨⟨e, n⟩, he, hei⟩ := List.mem_filterMap.mp hi
    rcases e with l' | ⟨id, priority, run⟩ | ⟨id, priority, p, run⟩
    · exact absurd hei (by simp [asServing])
    · exact absurd hei (by simp [asServing])
    · obtain rfl := Option.some.inj hei
      exact h.drawn _ he
  have hwrappers : (wrappers l.listener r.snapshot.serving).map (·.attachment)
      = es.entries.wrapping l.listener := by
    unfold Ledger.wrapping Ledger.applying
    rw [← map_serving_draft]
    exact map_wrappers h.agrees.serving (pairwise_draft h.growing).2.2 hbound hown.growing
  rw [← hwrappers, ← map_chain_resolve, ← h.resolved l hl]

theorem Keeps.map_id_chain (h : r.Keeps es) (hbuilt : es.entries.Built)
    (hl : l ∈ r.snapshot.listeners) (point : InterceptPoint) :
    (l.chain point).map (·.id)
      = ((es.entries.wrapping l.listener).filter (·.point == point)).map (·.id) := by
  rw [← h.chain_eq hbuilt hl, List.map_map]
  rfl

/-- The identifiers in a chain are those of the interceptors that apply to
the listener and wrap the point. -/
theorem Keeps.mem_chain_iff (h : r.Keeps es) (hbuilt : es.entries.Built)
    (hl : l ∈ r.snapshot.listeners) {point : InterceptPoint} {id : Id} :
    id ∈ (l.chain point).map (·.id) ↔
      ∃ a ∈ es.entries.applying l.listener, a.point = point ∧ a.id = id := by
  rw [h.map_id_chain hbuilt hl, List.mem_map]
  unfold Ledger.wrapping
  simp only [List.mem_filter, List.mem_mergeSort, beq_iff_eq, and_assoc]

/-- **An interceptor that applies to a listener** is once in the chain of
its point, and not in the other one. -/
theorem Keeps.count_chain (h : r.Keeps es) (hbuilt : es.entries.Built)
    (hl : l ∈ r.snapshot.listeners) {a : Listener.Attachment β}
    (ha : a ∈ es.entries.applying l.listener) (point : InterceptPoint) :
    ((l.chain point).map (·.id)).count a.id = if a.point = point then 1 else 0 := by
  have hn : ((es.entries.applying l.listener).map (·.id)).Nodup := by
    rw [map_applying]
    exact Draft.nodup_applyingIds h.nodup_draft (h.mem_draft_listeners hl)
  by_cases hpoint : a.point = point
  · rw [if_pos hpoint]
    refine List.count_eq_one_of_mem ?_ ((h.mem_chain_iff hbuilt hl).mpr ⟨a, ha, hpoint, rfl⟩)
    rw [h.map_id_chain hbuilt hl]
    refine List.Nodup.sublist (List.filter_sublist.map _) ?_
    exact ((List.mergeSort_perm _ _).map _).nodup_iff.mpr hn
  · rw [if_neg hpoint]
    refine List.count_eq_zero.mpr fun hmem => hpoint ?_
    obtain ⟨b, hb, hbpoint, hid⟩ := (h.mem_chain_iff hbuilt hl).mp hmem
    rw [← List.inj_on_of_nodup_map hn hb ha hid]
    exact hbpoint

/-- **After any calls, every listener has the chains that the ledger makes.**
They are the ones that resolving the listener anew would make. They hold
what applies to the listener, by priority, serving interceptors before
attached ones at one priority, the former as they were added and the latter
as they were declared, split by point. Each interceptor that applies to a
listener is once in one of its chains, and one that is attached to it is in
no chain of another listener. -/
theorem chains_eq_wrapping {calls : List (RegistryCall β)} (hbuilt : ∀ c ∈ calls, c.Built) :
    let s := (Registry.after calls).snapshot
    let g := Ledger.after calls
    ∀ r ∈ s.listeners, r = resolve r.listener r.seq s.serving ∧
      (∀ point, (r.chain point).map (·.attachment point)
        = (g.wrapping r.listener).filter (·.point == point)) ∧
      (∀ a ∈ g.applying r.listener, ∀ point,
        ((r.chain point).map (·.id)).count a.id = if a.point = point then 1 else 0) ∧
      ∀ a ∈ r.listener.attachments, ∀ r' ∈ s.listeners, r' ≠ r →
        ∀ point, a.id ∉ (r'.chain point).map (·.id) := by
  intro s g r hr
  obtain ⟨es, h, he⟩ := keeps_after calls
  have hes : es.entries.Built := he ▸ Ledger.built_after hbuilt
  refine ⟨h.resolved r hr, fun point => ?_, fun a ha point => ?_, fun a ha r' hr' hne point => ?_⟩
  · show _ = (Ledger.wrapping (Ledger.after calls) r.listener).filter _
    rw [← he]
    exact h.chain_eq hes hr point
  · exact h.count_chain hes hr (he ▸ ha) point
  · have hpair : (r.listener, r.seq) ≠ (r'.listener, r'.seq) := by
      intro heq
      obtain ⟨hl, hseq⟩ := Prod.mk.inj heq
      apply hne
      rw [h.resolved r hr, h.resolved r' hr', hl, hseq]
    have hid : a.id ∈ r.listener.interceptors.map (·.id) := by
      obtain ⟨i, hi, rfl⟩ := List.mem_map.mp ha
      exact List.mem_map.mpr ⟨i, hi, rfl⟩
    intro hmem
    obtain ⟨b, hb, -, hba⟩ := (h.mem_chain_iff hes hr').mp hmem
    refine Draft.not_mem_applyingIds h.nodup_draft (h.mem_draft_listeners hr)
      (h.mem_draft_listeners hr') hpair hid ?_
    rw [← map_applying, ← hba]
    exact List.mem_map_of_mem hb

end Registry

/-- A listener is registered with an interceptor of its own, and then two
serving interceptors are added, of which one is removed again. -/
def RegistryCall.wrappedLater : List (RegistryCall Unit) :=
  [.registerAll [.guarded ⟨"listener", by decide⟩ ⟨"own", by decide⟩ .normal],
    .add (.serving ⟨"kept", by decide⟩ .normal .beforeMatch ()),
    .add (.serving ⟨"removed", by decide⟩ .high .beforeMatch ()),
    .unregister ⟨"removed", by decide⟩]

/-- The serving interceptor that is left wraps the listener and its own
interceptor, though both were there before it. -/
theorem chains_eq_wrapping_wrappedLater :
    (∀ c ∈ RegistryCall.wrappedLater, c.Built) ∧
      ∃ r ∈ (Registry.after RegistryCall.wrappedLater).snapshot.listeners,
        (r.chain .beforeMatch).map (·.attachment .beforeMatch)
          = [⟨⟨"kept", by decide⟩, .normal, .beforeMatch, ()⟩,
              ⟨⟨"own", by decide⟩, .normal, .beforeMatch, ()⟩] := by
  have hbuilt : ∀ c ∈ RegistryCall.wrappedLater, c.Built := by
    have hguarded : (Listener.guarded ⟨"listener", by decide⟩ ⟨"own", by decide⟩ .normal).Built :=
      ⟨⟨⟨"listener", by decide⟩, .any, .normal, .blocking, [],
        [⟨⟨"own", by decide⟩, .normal, .beforeMatch, ()⟩], some ⟨[], ()⟩⟩, rfl⟩
    simp [RegistryCall.wrappedLater, RegistryCall.Built, hguarded]
  refine ⟨hbuilt, ?_⟩
  obtain ⟨es, h, he⟩ := Registry.keeps_after RegistryCall.wrappedLater
  have hlisteners : (Registry.after RegistryCall.wrappedLater).snapshot.listeners.map (·.listener)
      = [.guarded ⟨"listener", by decide⟩ ⟨"own", by decide⟩ .normal] := by
    rw [h.listeners_eq, he]
    exact List.mergeSort_singleton _
  have hmem := List.mem_singleton_self
    (Listener.guarded ⟨"listener", by decide⟩ ⟨"own", by decide⟩ .normal)
  rw [← hlisteners] at hmem
  obtain ⟨r, hr, hl⟩ := List.mem_map.mp hmem
  obtain ⟨-, hchain, -⟩ := Registry.chains_eq_wrapping hbuilt r hr
  refine ⟨r, hr, (hchain .beforeMatch).trans ?_⟩
  rw [hl]
  unfold Ledger.wrapping
  rw [List.mergeSort_of_pairwise (by decide)]
  rfl

end Switchboard
