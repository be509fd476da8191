import Switchboard.Hub.Plan
import Switchboard.Proofs.Registry.Order

/-!
# Ledgers

A `Ledger` is the plainest registry there is: a list of entries in the
order in which they were added. Adding puts entries at its end if the
identifiers of all of them are free, removing leaves an entry out, and
that is all. Nothing is sorted, nothing is numbered, and a change that is
refused leaves no trace.

A ledger whose entries are numbered makes a draft of the registry
(`NumberedLedger.draft`). What is done to the ledger is done to the draft:
new entries come at the end of it, an entry that is left out is left out,
and the identifiers are the same.
-/

namespace Switchboard

variable {β : Type}

/-! ## Entries and ledgers -/

/-- An entry of the registry. -/
inductive Entry (β : Type) where
  | listener (l : Listener β)
  | interceptor (i : PlannedInterceptor β)

namespace PlannedInterceptor

/-- The priority of a planned interceptor. -/
def priority : PlannedInterceptor β → Priority
  | processing _ priority _ => priority
  | serving _ priority _ _ => priority

end PlannedInterceptor

/-- A processing interceptor as it was planned. -/
def Interceptor.planned (i : Interceptor β) : PlannedInterceptor β :=
  .processing i.id i.priority i.run

/-- A serving interceptor as it was planned. -/
def ListenerInterceptor.planned (i : ListenerInterceptor β) : PlannedInterceptor β :=
  .serving i.id i.priority i.point i.run

namespace Entry

/-- The identifier under which an entry can be removed. -/
def id : Entry β → Id
  | listener l => l.id
  | interceptor i => i.id

/-- The identifiers an entry takes. -/
def ids : Entry β → List Id
  | listener l => l.ids
  | interceptor i => [i.id]

/-- The listener that an entry is. -/
def listener? : Entry β → Option (Listener β)
  | listener l => some l
  | interceptor _ => none

/-- The processing interceptor that an entry is. -/
def processing? : Entry β → Option (PlannedInterceptor β)
  | interceptor (.processing id priority run) => some (.processing id priority run)
  | _ => none

/-- The serving interceptor that an entry is. -/
def serving? : Entry β → Option (PlannedInterceptor β)
  | interceptor (.serving id priority point run) => some (.serving id priority point run)
  | _ => none

end Entry

/-- What is asked of a registry. -/
inductive RegistryCall (β : Type) where
  | registerAll (ls : List (Listener β))
  | add (i : PlannedInterceptor β)
  | unregister (id : Id)
  | clear
  /-- The listeners for a key are looked up, by a dispatch that begins or
  by somebody who asks. -/
  | lookUp (key : EventKey)

/-- Whether a call is about the entry of an identifier. -/
def RegistryCall.concerns : RegistryCall β → Id → Bool
  | registerAll ls, id => ls.any (·.id == id)
  | add i, id => i.id == id
  | unregister id', id => id' == id
  | clear, _ => true
  | lookUp _, _ => false

/-- What a call makes of a registry, be it a success or not. -/
def Registry.apply (r : Registry β) : RegistryCall β → Registry β
  | .registerAll ls => (r.registerAll ls).2
  | .add i => (i.addTo r).2
  | .unregister id => (r.unregister id).2
  | .clear => r.clear
  | .lookUp key => (r.targets key).2

/-- What calls make of a registry, one after the other. -/
def Registry.applyAll (r : Registry β) (calls : List (RegistryCall β)) : Registry β :=
  calls.foldl apply r

/-- **The registry after some calls.** -/
def Registry.after (calls : List (RegistryCall β)) : Registry β := Registry.empty.applyAll calls

theorem Registry.applyAll_append (r : Registry β) (calls calls' : List (RegistryCall β)) :
    r.applyAll (calls ++ calls') = (r.applyAll calls).applyAll calls' :=
  List.foldl_append

/-- Entries in the order in which they were added. -/
abbrev Ledger (β : Type) := List (Entry β)

namespace Ledger

/-- The identifiers that the entries of a ledger take. -/
def ids (g : Ledger β) : List Id := g.flatMap (·.ids)

/-- Adds entries, all of them or none. -/
def add (g es : Ledger β) : Ledger β := if (g.ids ++ es.ids).Nodup then g ++ es else g

/-- Removes the entry of an identifier. -/
def remove (g : Ledger β) (id : Id) : Ledger β := g.filter (·.id != id)

/-- Whether a ledger accepts a call. -/
def accepts (g : Ledger β) : RegistryCall β → Prop
  | .registerAll ls => (g.ids ++ Ledger.ids (ls.map .listener)).Nodup
  | .add i => (g.ids ++ [i.id]).Nodup
  | .unregister id => id ∈ g.map (·.id)
  | .clear => True
  | .lookUp _ => True

/-- What a call makes of a ledger. -/
def apply (g : Ledger β) : RegistryCall β → Ledger β
  | .registerAll ls => g.add (ls.map .listener)
  | .add i => g.add [.interceptor i]
  | .unregister id => g.remove id
  | .clear => []
  | .lookUp _ => g

/-- **The ledger after some calls.** -/
def after (calls : List (RegistryCall β)) : Ledger β := calls.foldl apply []

/-- Nothing is removed under an identifier of no entry. -/
theorem remove_of_not_mem {g : Ledger β} {id : Id} (h : id ∉ g.map (·.id)) : g.remove id = g :=
  Draft.filter_eq_self_of_not_mem h

end Ledger

/-! ## Numbered entries -/

/-- Entries with their numbers. -/
abbrev NumberedLedger (β : Type) := List (Entry β × Nat)

namespace NumberedLedger

/-- The entries without their numbers. -/
def entries (es : NumberedLedger β) : Ledger β := es.map (·.1)

/-- A numbered listener. -/
def asListener : Entry β × Nat → Option (Listener β × Nat)
  | (.listener l, n) => some (l, n)
  | _ => none

/-- A numbered processing interceptor. -/
def asProcessing : Entry β × Nat → Option (Interceptor β)
  | (.interceptor (.processing id priority run), n) => some ⟨id, priority, n, run⟩
  | _ => none

/-- A numbered serving interceptor. -/
def asServing : Entry β × Nat → Option (ListenerInterceptor β)
  | (.interceptor (.serving id priority point run), n) =>
    some { id, priority, seq := n, run, point }
  | _ => none

/-- **The draft that numbered entries make.** -/
def draft (es : NumberedLedger β) : Draft β :=
  ⟨es.filterMap asListener, es.filterMap asProcessing, es.filterMap asServing⟩

/-- Listeners, numbered as they stand. -/
def ofListeners (seq : Nat) (ls : List (Listener β)) : NumberedLedger β :=
  (ls.zipIdx seq).map fun (l, n) => (.listener l, n)

/-- The entries that something is not about. -/
def outside (es : NumberedLedger β) (concerned : Id → Bool) : NumberedLedger β :=
  es.filter fun e => !concerned e.1.id

variable {es : NumberedLedger β}

theorem outside_append (es es' : NumberedLedger β) (concerned : Id → Bool) :
    (es ++ es').outside concerned = es.outside concerned ++ es'.outside concerned :=
  List.filter_append ..

theorem entries_filter (es : NumberedLedger β) (id : Id) :
    entries (es.filter (·.1.id != id)) = es.entries.remove id := by
  unfold entries Ledger.remove
  rw [List.filter_map]
  rfl

/-- More listeners make more listeners. -/
theorem draft_append_ofListeners (es : NumberedLedger β) (seq : Nat) (ls : List (Listener β)) :
    (es ++ ofListeners seq ls).draft = es.draft.withListeners (ls.zipIdx seq) := by
  have hl : (ofListeners seq ls).filterMap asListener = ls.zipIdx seq := by
    unfold ofListeners
    rw [List.filterMap_map]
    exact List.filterMap_some
  have hp : (ofListeners seq ls).filterMap asProcessing = [] := by
    unfold ofListeners
    rw [List.filterMap_map, List.filterMap_eq_nil_iff]
    exact fun _ _ => rfl
  have hs : (ofListeners seq ls).filterMap asServing = [] := by
    unfold ofListeners
    rw [List.filterMap_map, List.filterMap_eq_nil_iff]
    exact fun _ _ => rfl
  unfold draft Draft.withListeners
  rw [List.filterMap_append, List.filterMap_append, List.filterMap_append, hl, hp, hs,
    List.append_nil, List.append_nil]

theorem entries_ofListeners (seq : Nat) (ls : List (Listener β)) :
    (ofListeners seq ls).entries = ls.map .listener := by
  unfold entries ofListeners
  rw [List.map_map]
  show (ls.zipIdx seq).map (Entry.listener ∘ Prod.fst) = _
  rw [← List.map_map, List.zipIdx_map_fst]

/-- Listeners are numbered from a number on. -/
theorem growing_ofListeners (seq : Nat) (ls : List (Listener β)) :
    ((ofListeners seq ls).Pairwise fun a b => a.2 < b.2) ∧
      ∀ e ∈ ofListeners seq ls, seq ≤ e.2 ∧ e.2 < seq + ls.length := by
  unfold ofListeners
  constructor
  · rw [List.pairwise_map]
    show (ls.zipIdx seq).Pairwise fun a b => a.2 < b.2
    rw [← List.pairwise_map (R := (· < ·)), List.zipIdx_map_snd]
    exact List.pairwise_lt_range'
  · intro e he
    obtain ⟨⟨l, n⟩, hp, rfl⟩ := List.mem_map.mp he
    have hge : seq ≤ n := List.le_snd_of_mem_zipIdx hp
    have hlt : n < ls.length + seq := List.snd_lt_of_mem_zipIdx hp
    exact ⟨hge, Nat.add_comm seq _ ▸ hlt⟩

/-- Registering listeners is about all of them. -/
theorem outside_ofListeners (seq : Nat) (ls : List (Listener β)) :
    (ofListeners seq ls).outside (RegistryCall.registerAll ls).concerns = [] := by
  unfold outside
  rw [List.filter_eq_nil_iff]
  intro e he
  have hmem : e.1 ∈ (ofListeners seq ls).entries := List.mem_map_of_mem he
  rw [entries_ofListeners] at hmem
  obtain ⟨l, hl, hle⟩ := List.mem_map.mp hmem
  rw [← hle, Bool.not_eq_true', Bool.not_eq_false]
  exact List.any_eq_true.mpr ⟨l, hl, beq_self_eq_true _⟩

/-- One more interceptor is one more interceptor. -/
theorem draft_append_processing (es : NumberedLedger β) (id : Id) (priority : Priority) (run : β)
    (seq : Nat) : draft (es ++ [(.interceptor (.processing id priority run), seq)]) =
      { es.draft with processing := es.draft.processing ++ [⟨id, priority, seq, run⟩] } := by
  unfold draft
  rw [List.filterMap_append, List.filterMap_append, List.filterMap_append]
  show (⟨_ ++ [], _, _ ++ []⟩ : Draft β) = _
  rw [List.append_nil, List.append_nil]
  rfl

theorem draft_append_serving (es : NumberedLedger β) (id : Id) (priority : Priority)
    (point : InterceptPoint) (run : β) (seq : Nat) :
    draft (es ++ [(.interceptor (.serving id priority point run), seq)]) =
      { es.draft with
        serving := es.draft.serving ++ [{ id, priority, seq, run, point }] } := by
  unfold draft
  rw [List.filterMap_append, List.filterMap_append, List.filterMap_append]
  show (⟨_ ++ [], _ ++ [], _⟩ : Draft β) = _
  rw [List.append_nil, List.append_nil]
  rfl

/-- The draft holds the entries, whatever is listed of its listeners. -/
theorem flatMap_draft_perm (f : Listener β → List Id) (g : Entry β → List Id)
    (hl : ∀ l, g (.listener l) = f l) (hi : ∀ i, g (.interceptor i) = [i.id])
    (es : NumberedLedger β) :
    (es.draft.listeners.flatMap (fun p => f p.1) ++ es.draft.processing.map (·.id) ++
      es.draft.serving.map (·.id)).Perm (es.entries.flatMap g) := by
  induction es with
  | nil => exact List.Perm.refl _
  | cons e es ih =>
    obtain ⟨e, n⟩ := e
    unfold draft entries at *
    cases e with
    | listener l =>
      simp only [List.filterMap_cons, asListener, asProcessing, asServing, List.flatMap_cons,
        List.map_cons, List.append_assoc, hl] at ih ⊢
      exact ih.append_left _
    | interceptor i =>
      cases i with
      | processing id priority run =>
        simp only [List.filterMap_cons, asListener, asProcessing, asServing, List.flatMap_cons,
          List.map_cons, List.append_assoc, List.cons_append, hi] at ih ⊢
        exact List.perm_middle.trans (ih.cons _)
      | serving id priority point run =>
        simp only [List.filterMap_cons, asListener, asProcessing, asServing, List.flatMap_cons,
          List.map_cons, hi] at ih ⊢
        exact List.perm_middle.trans (ih.cons _)

/-- The identifiers of the draft are those of the entries. -/
theorem ids_draft_perm (es : NumberedLedger β) : es.draft.ids.Perm es.entries.ids :=
  flatMap_draft_perm Listener.ids Entry.ids (fun _ => rfl) (fun _ => rfl) es

/-- What can be removed from the draft are the entries. -/
theorem entryIds_draft_perm (es : NumberedLedger β) :
    es.draft.entryIds.Perm (es.entries.map (·.id)) := by
  have h := flatMap_draft_perm (fun l => [l.id]) (fun e => [e.id]) (fun _ => rfl) (fun _ => rfl) es
  rwa [← List.map_eq_flatMap, ← List.map_eq_flatMap] at h

/-- Entries that are left out are left out of the draft. -/
theorem draft_filter (es : NumberedLedger β) (p : Id → Bool) :
    draft (es.filter (p ·.1.id)) = es.draft.restrict p := by
  -- each part of a draft picks entries and keeps their identifiers
  have key : ∀ {γ : Type} (f : Entry β × Nat → Option γ) (g : γ → Id),
      (∀ e a, f e = some a → g a = e.1.id) →
      (es.filter (p ·.1.id)).filterMap f = (es.filterMap f).filter (p <| g ·) := by
    intro γ f g hfg
    induction es with
    | nil => rfl
    | cons e es ih =>
      cases hf : f e with
      | none =>
        rw [List.filterMap_cons_none hf, ← ih, List.filter_cons]
        split
        · rw [List.filterMap_cons_none hf]
        · rfl
      | some a =>
        rw [List.filterMap_cons_some hf, List.filter_cons, List.filter_cons, hfg e a hf]
        split
        · rw [List.filterMap_cons_some hf, ih]
        · exact ih
  unfold draft Draft.restrict
  rw [key asListener (·.1.id), key asProcessing (·.id), key asServing (·.id)]
  · rintro ⟨l | ⟨id, priority, run⟩ | ⟨id, priority, point, run⟩, n⟩ a ha
    · exact absurd ha (by simp [asServing])
    · exact absurd ha (by simp [asServing])
    · cases ha
      rfl
  · rintro ⟨l | ⟨id, priority, run⟩ | ⟨id, priority, point, run⟩, n⟩ a ha
    · exact absurd ha (by simp [asProcessing])
    · cases ha
      rfl
    · exact absurd ha (by simp [asProcessing])
  · rintro ⟨l | i, n⟩ a ha
    · cases ha
      rfl
    · exact absurd ha (by simp [asListener])

/-- Numbers that grow along the entries tell those of the draft apart. -/
theorem pairwise_draft (h : es.Pairwise fun a b => a.2 < b.2) :
    (es.draft.listeners.Pairwise fun a b => a.2 < b.2) ∧
      (es.draft.processing.Pairwise fun a b => a.seq < b.seq) ∧
      es.draft.serving.Pairwise fun a b => a.seq < b.seq := by
  refine ⟨List.Pairwise.filterMap asListener ?_ h, List.Pairwise.filterMap asProcessing ?_ h,
    List.Pairwise.filterMap asServing ?_ h⟩
  · rintro ⟨l | i, n⟩ ⟨l' | i', n'⟩ hlt a ha b hb <;> cases ha <;> cases hb
    exact hlt
  · rintro ⟨l | ⟨_, _, _⟩ | _, n⟩ ⟨l' | ⟨_, _, _⟩ | _, n'⟩ hlt a ha b hb <;> cases ha <;> cases hb
    exact hlt
  · rintro ⟨l | _ | ⟨_, _, _, _⟩, n⟩ ⟨l' | _ | ⟨_, _, _, _⟩, n'⟩ hlt a ha b hb <;> cases ha <;>
      cases hb
    exact hlt

theorem wellNumbered_draft (h : es.Pairwise fun a b => a.2 < b.2) : es.draft.WellNumbered :=
  let ⟨hl, hp, hs⟩ := pairwise_draft h
  ⟨.of_pairwise hl, .of_pairwise hp, .of_pairwise hs⟩

end NumberedLedger

end Switchboard
