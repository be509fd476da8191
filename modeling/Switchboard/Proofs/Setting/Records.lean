import Mathlib.Data.List.Forall2
import Switchboard.Proofs.Setting.Layers
import Switchboard.Setting.Reading

/-!
# Records in settings

A record that is filled from a table gets a field from the entry of its name,
if no other entry touches the field, and keeps what the field has from the start
if there is no such entry (`Setting.Sets.readsAt`). Records inside each other
are read along a chain of names (`Setting.ReadsAt.trans`).

What a record has from the start, and no field takes from it, it keeps in whichever
way it is filled (`Setting.record_keeps`).
-/

namespace Switchboard

theorem map_eq_ok_iff {ε α β : Type} {r : Except ε α} {f : α → β} {b : β} :
    r.map f = .ok b ↔ ∃ a, r = .ok a ∧ f a = b := by
  cases r <;> simp [Except.map]

namespace Setting

variable {α β γ : Type}

/-- **A part is read from what stands at the end of a chain**, and is as it was
from the start if nothing is said on the way. -/
structure ReadsAt (read : Setting → Read α) (start : α) (chain : List String)
    (part : Setting → Read β) (get : α → β) : Prop where
  said : ∀ {m a v}, m.Ordered → read m = .ok a → m.at? chain = some v → part v = .ok (get a)
  unsaid : ∀ {m a}, m.Ordered → read m = .ok a → m.Silent chain → get a = get start

/-- A part of a part stands at the end of a longer chain. -/
theorem ReadsAt.trans {read : Setting → Read α} {start : α} {part : Setting → Read β}
    {inner : Setting → Read γ} {get : α → β} {getInner : β → γ} {chain rest : List String}
    (h : ReadsAt read start chain part get)
    (hinner : ReadsAt part (get start) rest inner getInner) :
    ReadsAt read start (chain ++ rest) inner fun a => getInner (get a) where
  said {m a v} hm ha hv := by
    rw [at?_append] at hv
    obtain ⟨s, hs, hv⟩ := Option.bind_eq_some_iff.mp hv
    exact hinner.said (hm.at? hs) (h.said hm ha hs) hv
  unsaid {m a} hm ha hsilent := by
    rcases hsilent.of_append with hsilent | ⟨s, hs, hsilent⟩
    · exact congrArg getInner (h.unsaid hm ha hsilent)
    · exact hinner.unsaid (hm.at? hs) (h.said hm ha hs) hsilent

/-! ## Filling a record -/

/-- **A field of a record**: the entry of its name sets it, and no entry of
another field touches it. -/
structure Sets (set : String → Setting → α → Read α) (fields : List String) (name : String)
    (part : Setting → Read β) (get : α → β) : Prop where
  mem : name ∈ fields
  self : ∀ {s a b}, set name s a = .ok b → part s = .ok (get b)
  other : ∀ n ∈ fields, n ≠ name → ∀ s a b, set n s a = .ok b → get b = get a

theorem readAt_ok_iff {name : String} {r : Read α} {a : α} : readAt name r = .ok a ↔ r = .ok a := by
  cases r <;> simp [readAt, Except.mapError]

section Sets

variable {set : String → Setting → α → Read α} {fields : List String} {name : String}
  {part : Setting → Read β} {get : α → β}

/-- Filling goes on with the first entry set, if it is of a field. -/
theorem fillByName_cons_ok {n : String} {s : Setting} {es : List (String × Setting)} {a b : α}
    (h : fillByName set fields ((n, s) :: es) a = .ok b) :
    (n ∈ fields ∧ ∃ a', set n s a = .ok a' ∧ fillByName set fields es a' = .ok b) ∨
      n ∉ fields ∧ fillByName set fields es a = .ok b := by
  rw [fillByName] at h
  split at h
  · next hn =>
    cases hs : readAt n (set n s a) with
    | error e => rw [hs] at h; cases h
    | ok a' =>
      rw [hs] at h
      exact .inl ⟨List.contains_iff_mem.mp hn, a', readAt_ok_iff.mp hs, h⟩
  · next hn => exact .inr ⟨fun hmem => hn (List.contains_iff_mem.mpr hmem), h⟩

/-- Entries of other names leave a field as it is. -/
theorem Sets.fillByName_other (h : Sets set fields name part get) {es : List (String × Setting)}
    {a b : α} (hes : ∀ e ∈ es, e.1 ≠ name) (hfill : fillByName set fields es a = .ok b) :
    get b = get a := by
  induction es generalizing a with
  | nil => exact congrArg get (Except.ok.inj hfill).symm
  | cons e es ih =>
    obtain ⟨hne, hes⟩ := List.forall_mem_cons.mp hes
    rcases fillByName_cons_ok hfill with ⟨hn, a', hset, hrest⟩ | ⟨-, hrest⟩
    · exact (ih hes hrest).trans (h.other e.1 hn hne e.2 a a' hset)
    · exact ih hes hrest

/-- The entry of its name gives a field what it has in the end. -/
theorem Sets.fillByName_self (h : Sets set fields name part get) {es : List (String × Setting)}
    {a b : α} {v : Setting} (hes : Json.InOrder es) (hv : Json.member? name es = some v)
    (hfill : fillByName set fields es a = .ok b) : part v = .ok (get b) := by
  induction es generalizing a with
  | nil => cases hv
  | cons e es ih =>
    obtain ⟨n, s⟩ := e
    have hrest := (List.pairwise_cons.mp hes).2
    rw [Json.member?_cons] at hv
    by_cases hn : n = name
    · rw [if_pos hn] at hv
      obtain rfl := Option.some.inj hv
      subst hn
      rcases fillByName_cons_ok hfill with ⟨-, a', hset, hfill⟩ | ⟨hnot, -⟩
      · -- the name comes once, so nothing that follows changes the field
        rw [h.fillByName_other (fun e he => (hes.ne_of_mem he).symm) hfill]
        exact h.self hset
      · exact absurd h.mem hnot
    · rw [if_neg hn] at hv
      rcases fillByName_cons_ok hfill with ⟨-, a', -, hfill⟩ | ⟨-, hfill⟩
      · exact ih hrest hv hfill
      · exact ih hrest hv hfill

/-- **A field of a record is read from the entry of its name.** -/
theorem Sets.readsAt (h : Sets set fields name part get) (title : String) (start : α) :
    ReadsAt (reading.record title fields start set) start [name] part get where
  said {m a v} hm ha hv := by
    cases m with
    | table es =>
      obtain ⟨s, hs, hv⟩ := Option.bind_eq_some_iff.mp hv
      obtain rfl := Option.some.inj hv
      exact h.fillByName_self (ordered_table_iff.mp hm).1 hs ha
    | _ => cases hv
  unsaid {m a} hm ha hsilent := by
    cases m with
    | table es =>
      refine h.fillByName_other (fun e he heq => ?_) ha
      exact hsilent e.2 (heq ▸ (ordered_table_iff.mp hm).1.mem_iff.mp he)
    | _ => exact absurd hsilent (not_silent_of_plain fun es => by rintro ⟨⟩)

end Sets

section Keeping

variable {P : α → Prop} {set : String → Setting → α → Read α} {fields : List String} {a b : α}

theorem fillByName_keeps (hset : ∀ n s a b, set n s a = .ok b → P a → P b)
    {es : List (String × Setting)} (ha : P a) (h : fillByName set fields es a = .ok b) : P b := by
  induction es generalizing a with
  | nil => exact Except.ok.inj h ▸ ha
  | cons e es ih =>
    rcases fillByName_cons_ok h with ⟨-, a', hs, hrest⟩ | ⟨-, hrest⟩
    · exact ih (hset _ _ _ _ hs ha) hrest
    · exact ih ha hrest

theorem fillByPosition_keeps (hset : ∀ n s a b, set n s a = .ok b → P a → P b) {i : Nat}
    {items : List Setting} (ha : P a) (h : fillByPosition set i fields items a = .ok b) : P b := by
  induction items generalizing i fields a with
  | nil =>
    rw [fillByPosition] at h
    · exact Except.ok.inj h ▸ ha
    · simp
  | cons s items ih =>
    cases fields with
    | nil =>
      rw [fillByPosition] at h
      · exact Except.ok.inj h ▸ ha
      · simp
    | cons field fields =>
      rw [fillByPosition] at h
      cases hs : readAt (Number.natText i) (set field s a) with
      | error e => rw [hs] at h; cases h
      | ok a' =>
        rw [hs] at h
        exact ih (hset _ _ _ _ (readAt_ok_iff.mp hs) ha) h

/-- **What a record has at the start, and no field takes from it, it has in the end**, whether
it is read from a table or from a list. -/
theorem record_keeps (hset : ∀ n s a b, set n s a = .ok b → P a → P b) {title : String}
    (ha : P a) {s : Setting} (h : reading.record title fields a set s = .ok b) : P b := by
  cases s with
  | table es => exact fillByName_keeps hset ha h
  | list items => exact fillByPosition_keeps hset ha h
  | _ => cases h

end Keeping

/-! ## Tables of one kind -/

theorem readEntries_ok {read : Setting → Read α} {es : List (String × Setting)}
    {as : List (String × α)} (h : readEntries read es = .ok as) :
    List.Forall₂ (fun e a => e.1 = a.1 ∧ read e.2 = .ok a.2) es as := by
  induction es generalizing as with
  | nil => exact Except.ok.inj h ▸ .nil
  | cons e es ih =>
    obtain ⟨n, s⟩ := e
    rw [readEntries] at h
    cases hs : readAt n (read s) with
    | error err => rw [hs] at h; cases h
    | ok a =>
      cases hrest : readEntries read es with
      | error err => rw [hs, hrest] at h; cases h
      | ok rest =>
        rw [hs, hrest] at h
        obtain rfl := Except.ok.inj h
        exact .cons ⟨rfl, readAt_ok_iff.mp hs⟩ (ih hrest)

/-- The values of a table are read one by one. -/
theorem member?_readEntries {read : Setting → Read α} {es : List (String × Setting)}
    {as : List (String × α)} (h : readEntries read es = .ok as) (name : String) :
    (Json.member? name es = none ∧ Json.member? name as = none) ∨
      ∃ s a, Json.member? name es = some s ∧ Json.member? name as = some a ∧ read s = .ok a := by
  have hall := readEntries_ok h
  clear h
  induction hall with
  | nil => exact .inl ⟨rfl, rfl⟩
  | @cons e a es as hea _ ih =>
    obtain ⟨hname, hread⟩ := hea
    rw [Json.member?_cons, Json.member?_cons, ← hname]
    split
    · exact .inr ⟨e.2, a.2, rfl, rfl, hread⟩
    · exact ih

/-- The entries of a table in order are read in order. -/
theorem inOrder_readEntries {read : Setting → Read α} {es : List (String × Setting)}
    {as : List (String × α)} (h : readEntries read es = .ok as) (hes : Json.InOrder es) :
    Json.InOrder as := by
  have hnames : es.map (·.1) = as.map (·.1) := by
    have hall := readEntries_ok h
    clear h hes
    induction hall with
    | nil => rfl
    | cons hea _ ih => rw [List.map_cons, List.map_cons, hea.1, ih]
  have hpairwise : (es.map (·.1)).Pairwise (· < ·) := List.pairwise_map.mpr hes
  exact Json.inOrder_of_names hpairwise hnames.symm

/-- **A value of a table** is read from the entry of its name, and there is none
without it. -/
theorem readsAt_table (read : Setting → Read α) (name : String) :
    ReadsAt (fun s => (reading.table read s).map Json.ordered) [] [name]
      (fun s => (read s).map some) (Json.member? name) where
  said {m a v} hm ha hv := by
    cases m with
    | table es =>
      obtain ⟨as, has, rfl⟩ := map_eq_ok_iff.mp ha
      obtain ⟨s, hs, hv⟩ := Option.bind_eq_some_iff.mp hv
      obtain rfl := Option.some.inj hv
      rw [(inOrder_readEntries has (ordered_table_iff.mp hm).1).ordered_eq]
      rcases member?_readEntries has name with ⟨hnone, -⟩ | ⟨s', b, hs', hb, hread⟩
      · exact nomatch hs.symm.trans hnone
      · obtain rfl := Option.some.inj (hs.symm.trans hs')
        exact map_eq_ok_iff.mpr ⟨b, hread, hb.symm⟩
    | _ => cases hv
  unsaid {m a} hm ha hsilent := by
    cases m with
    | table es =>
      obtain ⟨as, has, rfl⟩ := map_eq_ok_iff.mp ha
      rw [(inOrder_readEntries has (ordered_table_iff.mp hm).1).ordered_eq]
      rcases member?_readEntries has name with ⟨-, hnone⟩ | ⟨s, b, hs, -⟩
      · exact hnone
      · exact absurd (hsilent s hs) id
    | _ => exact absurd hsilent (not_silent_of_plain fun es => by rintro ⟨⟩)

end Setting

end Switchboard
