import Switchboard.Proofs.Registry.Scan

/-!
# The order of a snapshot

A commit sorts the entries of a draft by priority and number. The draft is
not a list in the order of addition: it is the snapshot before, which is
sorted already, with the change at its end. So two things have to be said
of the sort.

* Where numbers tell entries apart, the sorted list depends on which
  entries there are and not on their order in the draft
  (`inOrder_congr`), since no two of them can stand either way. So a commit
  of a changed snapshot is the commit of the same entries in any order,
  that of their addition among them (`commit_congr`).
* Where numbers grow along a list, sorting by priority and number is the
  stable sort by priority alone (`inOrder_eq_mergeSort`), which keeps
  entries of one priority as they stand.
-/

namespace Switchboard

variable {α β : Type}

/-- By priority, and by number at the same priority. -/
theorem orderedBy_iff {p q : Priority × Nat} :
    orderedBy p q = true ↔ p.1.value < q.1.value ∨ p.1.value = q.1.value ∧ p.2 ≤ q.2 := by
  unfold orderedBy
  simp

theorem orderedBy_trans (p q r : Priority × Nat) (hpq : orderedBy p q = true)
    (hqr : orderedBy q r = true) : orderedBy p r = true := by
  rw [orderedBy_iff] at *
  omega

theorem orderedBy_total (p q : Priority × Nat) : (orderedBy p q || orderedBy q p) = true := by
  rw [Bool.or_eq_true, orderedBy_iff, orderedBy_iff]
  omega

/-- What can stand either way has one number. -/
theorem number_eq_of_orderedBy {p q : Priority × Nat} (hpq : orderedBy p q = true)
    (hqp : orderedBy q p = true) : p.2 = q.2 := by
  rw [orderedBy_iff] at *
  omega

theorem Priority.le_iff {p q : Priority} : p.le q = true ↔ p.value ≤ q.value := by
  unfold Priority.le
  rw [decide_eq_true_iff]

section Sorting

variable (key : α → Priority × Nat)

/-- Entries by priority and number. -/
def inOrder (l : List α) : List α := l.mergeSort fun a b => orderedBy (key a) (key b)

/-- The numbers of a list tell its elements apart. -/
def Numbered (l : List α) : Prop := ∀ a ∈ l, ∀ b ∈ l, (key a).2 = (key b).2 → a = b

theorem inOrder_perm (l : List α) : (inOrder key l).Perm l := List.mergeSort_perm l _

theorem pairwise_inOrder (l : List α) :
    (inOrder key l).Pairwise fun a b => orderedBy (key a) (key b) = true :=
  List.pairwise_mergeSort (fun a b c => orderedBy_trans (key a) (key b) (key c))
    (fun a b => orderedBy_total (key a) (key b)) l

variable {key} {l l' : List α}

theorem Numbered.filter (hn : Numbered key l) (p : α → Bool) : Numbered key (l.filter p) :=
  fun a ha b hb => hn a (List.mem_filter.mp ha).1 b (List.mem_filter.mp hb).1

/-- **There is one order**: a list of the entries that is sorted is the
sorted list. -/
theorem eq_inOrder (hn : Numbered key l) (hp : l'.Perm l)
    (hs : l'.Pairwise fun a b => orderedBy (key a) (key b) = true) : l' = inOrder key l := by
  refine List.Perm.eq_of_pairwise (fun a b ha hb hab hba => ?_) hs (pairwise_inOrder key l)
    (hp.trans (inOrder_perm key l).symm)
  exact hn a (hp.mem_iff.mp ha) b ((inOrder_perm key l).mem_iff.mp hb)
    (number_eq_of_orderedBy hab hba)

/-- The order does not depend on how the entries stood before. -/
theorem inOrder_congr (hn : Numbered key l) (hp : l'.Perm l) : inOrder key l' = inOrder key l :=
  eq_inOrder hn ((inOrder_perm key l').trans hp) (pairwise_inOrder key l')

/-- Leaving entries out keeps the others in their order. -/
theorem inOrder_filter (hn : Numbered key l) (p : α → Bool) :
    inOrder key (l.filter p) = (inOrder key l).filter p :=
  (eq_inOrder (hn.filter p) ((inOrder_perm key l).filter p)
    ((pairwise_inOrder key l).filter p)).symm

/-- Numbers that grow along a list tell its elements apart. -/
theorem Numbered.of_pairwise (h : l.Pairwise fun a b => (key a).2 < (key b).2) :
    Numbered key l := by
  induction l with
  | nil => exact fun a ha => absurd ha List.not_mem_nil
  | cons c l ih =>
    obtain ⟨hc, hl⟩ := List.pairwise_cons.mp h
    intro a ha b hb hab
    rcases List.mem_cons.mp ha with hac | ha
    · rcases List.mem_cons.mp hb with hbc | hb
      · exact hac.trans hbc.symm
      · rw [hac] at hab
        exact absurd hab (Nat.ne_of_lt (hc b hb))
    · rcases List.mem_cons.mp hb with hbc | hb
      · rw [hbc] at hab
        exact absurd hab.symm (Nat.ne_of_lt (hc a ha))
      · exact ih hl a ha b hb hab

/-- **Numbers that grow along a list make the sort stable**: entries of
one priority stay as they stand. -/
theorem inOrder_eq_mergeSort (h : l.Pairwise fun a b => (key a).2 < (key b).2) :
    inOrder key l = l.mergeSort fun a b => (key a).1.le (key b).1 := by
  have htrans : ∀ a b c : α, (key a).1.le (key b).1 = true → (key b).1.le (key c).1 = true →
      (key a).1.le (key c).1 = true := by
    intro a b c hab hbc
    rw [Priority.le_iff] at *
    exact Int.le_trans hab hbc
  have htotal : ∀ a b : α, ((key a).1.le (key b).1 || (key b).1.le (key a).1) = true := by
    intro a b
    rw [Bool.or_eq_true, Priority.le_iff, Priority.le_iff]
    exact Int.le_total _ _
  refine (eq_inOrder (.of_pairwise h) (List.mergeSort_perm l _) ?_).symm
  -- the first entry has the lowest number, and comes before its equals
  induction l with
  | nil => rw [List.mergeSort_nil]; exact List.Pairwise.nil
  | cons a l ih =>
    obtain ⟨ha, hl⟩ := List.pairwise_cons.mp h
    obtain ⟨before, after, hsort, hrest, hbefore⟩ := List.mergeSort_cons htrans htotal a l
    have hle := List.pairwise_mergeSort htrans htotal (a :: l)
    have ih := ih hl
    rw [hsort] at hle ⊢
    rw [hrest] at ih
    obtain ⟨hb, haft, hcross⟩ := List.pairwise_append.mp ih
    obtain ⟨hafter, -⟩ := List.pairwise_cons.mp (List.pairwise_append.mp hle).2.1
    have hmem : ∀ c ∈ after, c ∈ l := fun c hc => by
      have hsorted : c ∈ l.mergeSort fun a b => (key a).1.le (key b).1 :=
        hrest ▸ List.mem_append_right before hc
      exact List.mem_mergeSort.mp hsorted
    -- what comes after has no higher priority, and a higher number
    have hfirst : ∀ c ∈ after, orderedBy (key a) (key c) = true := fun c hc => by
      have hac := Priority.le_iff.mp (hafter c hc)
      have hlt := ha c (hmem c hc)
      rw [orderedBy_iff]
      omega
    refine List.pairwise_append.mpr
      ⟨hb, List.pairwise_cons.mpr ⟨hfirst, haft⟩, fun b hb' c hc => ?_⟩
    rcases List.mem_cons.mp hc with rfl | hc
    · have hlt := hbefore b hb'
      rw [Bool.not_eq_true', ← Bool.not_eq_true, Priority.le_iff] at hlt
      rw [orderedBy_iff]
      omega
    · exact hcross b hb' c hc

/-- What is seen of entries, other than their numbers, is in the stable
order by priority. -/
theorem map_inOrder {γ : Type} {f : α → γ} {le : γ → γ → Bool}
    (h : l.Pairwise fun a b => (key a).2 < (key b).2)
    (hf : ∀ a b, (key a).1.le (key b).1 = le (f a) (f b)) :
    (inOrder key l).map f = (l.map f).mergeSort le := by
  rw [inOrder_eq_mergeSort h]
  exact List.map_mergeSort fun a _ b _ => hf a b

end Sorting

/-! ## Commits -/

/-- The place of a listener in the order. -/
def listenerKey (p : Listener β × Nat) : Priority × Nat := (p.1.priority, p.2)

/-- The place of an interceptor in the order. -/
def Interceptor.orderKey (i : Interceptor β) : Priority × Nat := (i.priority, i.seq)

namespace Draft

/-- The numbers of a draft tell its entries apart. -/
structure WellNumbered (d : Draft β) : Prop where
  listeners : Numbered listenerKey d.listeners
  processing : Numbered Interceptor.orderKey d.processing
  serving : Numbered (fun i => i.toInterceptor.orderKey) d.serving

/-- Two drafts have the same entries, in whatever order. -/
structure Agrees (d d' : Draft β) : Prop where
  listeners : d.listeners.Perm d'.listeners
  processing : d.processing.Perm d'.processing
  serving : d.serving.Perm d'.serving

/-- The entries of a commit are those of the draft, in order. -/
theorem draft_commit (d : Draft β) :
    d.commit.draft = ⟨inOrder listenerKey d.listeners, inOrder Interceptor.orderKey d.processing,
      inOrder (fun i => i.toInterceptor.orderKey) d.serving⟩ := by
  show (⟨((inOrder listenerKey d.listeners).map _).map _, _, _⟩ : Draft β) = _
  rw [List.map_map]
  exact congrArg (fun ls => (⟨ls, _, _⟩ : Draft β)) (List.map_id _)

/-- A commit keeps the entries. -/
theorem agrees_draft_commit (d : Draft β) : d.commit.draft.Agrees d := by
  rw [draft_commit]
  exact ⟨inOrder_perm _ _, inOrder_perm _ _, inOrder_perm _ _⟩

/-- **A commit does not depend on the order of the entries in the draft.** -/
theorem commit_congr {d d' : Draft β} (hn : d'.WellNumbered) (h : d.Agrees d') :
    d.commit = d'.commit := by
  have hl := inOrder_congr hn.listeners h.listeners
  have hp := inOrder_congr hn.processing h.processing
  have hs := inOrder_congr hn.serving h.serving
  unfold inOrder listenerKey at hl
  unfold inOrder Interceptor.orderKey at hp hs
  unfold commit
  rw [hl, hp, hs]

variable {d d' : Draft β}

theorem Agrees.ids_perm (h : d.Agrees d') : d.ids.Perm d'.ids :=
  ((h.listeners.flatMap_right _).append (h.processing.map _)).append (h.serving.map _)

theorem Agrees.entryIds_perm (h : d.Agrees d') : d.entryIds.Perm d'.entryIds :=
  ((h.listeners.map _).append (h.processing.map _)).append (h.serving.map _)

theorem Agrees.withListeners (h : d.Agrees d') (ls : List (Listener β × Nat)) :
    (d.withListeners ls).Agrees (d'.withListeners ls) :=
  ⟨h.listeners.append_right ls, h.processing, h.serving⟩

theorem Agrees.restrict (h : d.Agrees d') (p : Id → Bool) :
    (d.restrict p).Agrees (d'.restrict p) :=
  ⟨h.listeners.filter _, h.processing.filter _, h.serving.filter _⟩

/-- A commit of fewer entries keeps the others in their order. -/
theorem draft_commit_restrict (hn : d.WellNumbered) (p : Id → Bool) :
    (d.restrict p).commit.draft = d.commit.draft.restrict p := by
  rw [draft_commit, draft_commit]
  unfold Draft.restrict
  rw [← inOrder_filter hn.listeners, ← inOrder_filter hn.processing, ← inOrder_filter hn.serving]

end Draft

end Switchboard
