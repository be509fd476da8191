import Mathlib.Data.List.Nodup
import Mathlib.Order.Lattice.Nat
import Switchboard.Event

/-!
# The lineage of a key

`isSubOf` looks for a name depth first, through every path of parents, and
`lineage` lists names breadth first, each of them once. Both are measured
here against the **generations** of a key: the keys that paths of one length
lead to. `isSubOf` finds a name exactly if some generation has it
(`isSubOf_iff`), whatever the names are.

What `climb` lists comes from some generation, too, but a name that is met
again is not followed a second time, and where the two keys of that name have
different parents those of the second are not looked at. So the two agree on
a **hierarchy**, where a name stands for one key; there `climb` also keeps to
the order of the distances, since what is appended for a key is one step
further away than it, and everything nearer is listed by then
(`Nearing.listed`).
-/

namespace Switchboard

namespace EventKey

/-! ## Generations -/

/-- The keys that the paths of some length from a key to a parent of a parent
lead to, a key once for each path. -/
def generation (k : EventKey) : Nat → List EventKey
  | 0 => [k]
  | n + 1 => (k.generation n).flatMap parents

/-- **How far a key is above another**: the length of the shortest path of
parents that leads there. -/
noncomputable def distance (k o : EventKey) : Nat := sInf {n | o ∈ k.generation n}

/-- A path of parents can be followed from its lower end. -/
theorem generation_succ (k : EventKey) (n : Nat) :
    k.generation (n + 1) = k.parents.flatMap (·.generation n) := by
  induction n with
  | zero => simp [generation]
  | succ n ih => rw [generation, ih, List.flatMap_assoc]; rfl

/-- Keys at the end of some path are no further away than the path is long. -/
theorem distance_le {k o : EventKey} {n : Nat} (h : o ∈ k.generation n) : k.distance o ≤ n :=
  Nat.sInf_le h

/-- A key that some path leads to is at the end of a shortest one. -/
theorem mem_generation_distance {k o : EventKey} (h : ∃ n, o ∈ k.generation n) :
    o ∈ k.generation (k.distance o) :=
  Nat.sInf_mem h

/-! ## Descent -/

theorem anySubOf_iff (ks : List EventKey) (o : EventKey) :
    anySubOf ks o = true ↔ ∃ p ∈ ks, p.isSubOf o = true := by
  induction ks with
  | nil => simp [anySubOf]
  | cons k ks ih => simp [anySubOf, ih]

/-- The parents of a key weigh less than it. -/
theorem weight_lt_of_mem_parents {k p : EventKey} (h : p ∈ k.parents) : p.weight < k.weight := by
  obtain ⟨name, ps⟩ := k
  have le_weights : ∀ {ks : List EventKey}, p ∈ ks → p.weight ≤ weights ks := by
    intro ks hp
    induction ks with
    | nil => cases hp
    | cons k ks ih =>
      rcases List.mem_cons.mp hp with rfl | hp
      · simp [weights]
      · exact (ih hp).trans (by simp [weights])
  have := le_weights h
  simp only [weight, parents] at this ⊢
  omega

/-- **What holds of a key as soon as it holds of its parents holds of all.** -/
theorem parents_induction {P : EventKey → Prop}
    (step : ∀ k, (∀ p ∈ k.parents, P p) → P k) (k : EventKey) : P k := by
  induction hw : k.weight using Nat.strong_induction_on generalizing k with
  | _ w ih => exact step k fun p hp => ih p.weight (hw ▸ weight_lt_of_mem_parents hp) p rfl

theorem isSubOf_step (k o : EventKey) :
    k.isSubOf o = true ↔
      o.name = any.name ∨ k.name = o.name ∨ ∃ p ∈ k.parents, p.isSubOf o = true := by
  obtain ⟨name, ps⟩ := k
  simp only [isSubOf, Bool.or_eq_true, beq_iff_eq, anySubOf_iff, or_assoc]
  rfl

/-- **A key descends from all keys whose name some generation of it has**, and
from `any`. -/
theorem isSubOf_iff (k o : EventKey) :
    k.isSubOf o = true ↔ o.name = any.name ∨ ∃ n, ∃ a ∈ k.generation n, a.name = o.name := by
  induction k using parents_induction with
  | step k ih =>
    rw [isSubOf_step]
    constructor
    · rintro (hany | hname | ⟨p, hp, hsub⟩)
      · exact .inl hany
      · exact .inr ⟨0, k, by simp [generation], hname⟩
      · rcases (ih p hp).mp hsub with hany | ⟨n, a, ha, hname⟩
        · exact .inl hany
        · refine .inr ⟨n + 1, a, ?_, hname⟩
          rw [generation_succ]
          exact List.mem_flatMap.mpr ⟨p, hp, ha⟩
    · rintro (hany | ⟨n, a, ha, hname⟩)
      · exact .inl hany
      · cases n with
        | zero =>
          rw [generation, List.mem_singleton] at ha
          exact .inr (.inl (ha ▸ hname))
        | succ n =>
          rw [generation_succ] at ha
          obtain ⟨p, hp, ha⟩ := List.mem_flatMap.mp ha
          exact .inr (.inr ⟨p, hp, (ih p hp).mpr (.inr ⟨n, a, ha, hname⟩)⟩)

/-! ## What is listed -/

theorem hasName_iff (keys : List EventKey) (k : EventKey) :
    hasName keys k = true ↔ ∃ a ∈ keys, a.name = k.name := by
  simp [hasName, sameName]

/-- What is fresh among some keys is one of them, of a name that is not known. -/
theorem mem_fresh {known ks : List EventKey} {p : EventKey} (h : p ∈ fresh known ks) :
    p ∈ ks ∧ hasName known p = false := by
  induction ks generalizing known with
  | nil => cases h
  | cons k ks ih =>
    rw [fresh] at h
    split at h
    case isTrue hknown =>
      obtain ⟨hmem, hnew⟩ := ih h
      exact ⟨.tail _ hmem, hnew⟩
    case isFalse hknown =>
      rcases List.mem_cons.mp h with rfl | h
      · exact ⟨.head _, by simpa using hknown⟩
      · obtain ⟨hmem, hnew⟩ := ih h
        refine ⟨.tail _ hmem, ?_⟩
        simp only [hasName, List.any_append, Bool.or_eq_false_iff] at hnew
        exact hnew.1

/-- With what is fresh among them, the names of some keys are all known. -/
theorem hasName_append_fresh {known ks : List EventKey} {p : EventKey} (h : p ∈ ks) :
    hasName (known ++ fresh known ks) p = true := by
  induction ks generalizing known with
  | nil => cases h
  | cons k ks ih =>
    rw [fresh]
    rcases List.mem_cons.mp h with rfl | h
    · split
      case isTrue hknown =>
        obtain ⟨a, ha, hname⟩ := (hasName_iff known p).mp hknown
        exact (hasName_iff _ p).mpr ⟨a, List.mem_append_left _ ha, hname⟩
      case isFalse => exact (hasName_iff _ p).mpr ⟨p, by simp, rfl⟩
    · split
      case isTrue => exact ih h
      case isFalse =>
        rw [← List.singleton_append, ← List.append_assoc]
        exact ih h

/-- What is fresh repeats no name. -/
theorem nodup_append_fresh {known : List EventKey} (h : (known.map name).Nodup)
    (ks : List EventKey) : ((known ++ fresh known ks).map name).Nodup := by
  induction ks generalizing known with
  | nil => simpa [fresh] using h
  | cons k ks ih =>
    rw [fresh]
    split
    case isTrue => exact ih h
    case isFalse hnew =>
      rw [← List.singleton_append, ← List.append_assoc]
      refine ih ?_
      rw [List.map_append, List.nodup_append]
      refine ⟨h, by simp, ?_⟩
      rintro _ hx _ hy rfl
      obtain ⟨a, ha, hname⟩ := List.mem_map.mp hx
      simp only [List.map_cons, List.map_nil, List.mem_singleton] at hy
      exact hnew ((hasName_iff known k).mpr ⟨a, ha, hname.trans hy⟩)

/-- **What looking at the parents of one key preserves holds of the whole
list.** -/
theorem climb_induction {I : List EventKey → List EventKey → Prop}
    (step : ∀ seen a todo, I seen (a :: todo) →
      I (seen ++ [a]) (todo ++ fresh (seen ++ a :: todo) a.parents))
    {seen todo : List EventKey} (h : I seen todo) : I (climb seen todo) [] := by
  induction seen, todo using climb.induct with
  | case1 seen => rwa [climb]
  | case2 seen a todo ih => rw [climb]; exact ih (step seen a todo h)

/-- **What the worklist keeps** while the ancestors of `k` are listed: `seen`
is done with, `todo` is listed but its parents are not looked at. -/
structure Climbing (k : EventKey) (seen todo : List EventKey) : Prop where
  /-- No name is listed twice. -/
  names : ((seen ++ todo).map name).Nodup
  /-- Only `k` and its ancestors are listed. -/
  above : ∀ a ∈ seen ++ todo, ∃ n, a ∈ k.generation n
  /-- Of what is done with, the parents are listed by their names. -/
  parents : ∀ a ∈ seen, ∀ p ∈ a.parents, hasName (seen ++ todo) p = true
  /-- The list begins with `k`. -/
  head : ∃ rest, seen ++ todo = k :: rest

theorem Climbing.start (k : EventKey) : Climbing k [] [k] where
  names := by simp
  above a ha := ⟨0, by simpa [generation] using ha⟩
  parents a ha := absurd ha (by simp)
  head := ⟨[], rfl⟩

theorem Climbing.step {k : EventKey} (seen : List EventKey) (a : EventKey) (todo : List EventKey)
    (h : Climbing k seen (a :: todo)) :
    Climbing k (seen ++ [a]) (todo ++ fresh (seen ++ a :: todo) a.parents) := by
  -- the list only grows at its end, wherever its two parts meet
  have hlist : seen ++ [a] ++ (todo ++ fresh (seen ++ a :: todo) a.parents)
      = seen ++ a :: todo ++ fresh (seen ++ a :: todo) a.parents := by simp
  refine ⟨?_, ?_, ?_, ?_⟩
  · rw [hlist]
    exact nodup_append_fresh h.names a.parents
  · intro b hb
    rw [hlist] at hb
    rcases List.mem_append.mp hb with hb | hb
    · exact h.above b hb
    · obtain ⟨n, hn⟩ := h.above a (by simp)
      exact ⟨n + 1, List.mem_flatMap.mpr ⟨a, hn, (mem_fresh hb).1⟩⟩
  · intro b hb p hp
    rw [hlist]
    rcases List.mem_append.mp hb with hb | hb
    · obtain ⟨c, hc, hname⟩ := (hasName_iff _ p).mp (h.parents b hb p hp)
      exact (hasName_iff _ p).mpr ⟨c, List.mem_append_left _ hc, hname⟩
    · rw [List.mem_singleton] at hb
      exact hasName_append_fresh (hb ▸ hp)
  · obtain ⟨rest, hrest⟩ := h.head
    exact ⟨rest ++ fresh (seen ++ a :: todo) a.parents, by rw [hlist, hrest]; rfl⟩

/-- What `climb` lists for a key, before `any` is moved to the end. -/
theorem climbing_climb (k : EventKey) : Climbing k (climb [] [k]) [] :=
  climb_induction Climbing.step (Climbing.start k)

/-! ## Hierarchies -/

/-- **A hierarchy of keys in which a name stands for one key.** Parents are
compared as keys are, by their names. -/
structure IsHierarchy (H : EventKey → Prop) : Prop where
  /-- The parents of its keys are in it. -/
  parents : ∀ a, H a → ∀ p ∈ a.parents, H p
  /-- Keys of one name have the same parents. -/
  one_key : ∀ a b, H a → H b → a.name = b.name → a.parents.map name = b.parents.map name
  /-- Above `any` there is no key. -/
  root : ∀ a, H a → a.name = any.name → a.parents = []

namespace IsHierarchy

variable {H : EventKey → Prop}

/-- In a hierarchy a name stands for one key with all its ancestors. -/
theorem eq_of_name_eq (hH : IsHierarchy H) {a b : EventKey} (ha : H a) (hb : H b)
    (hname : a.name = b.name) : a = b := by
  induction a using parents_induction generalizing b with
  | step a ih =>
    have hparents : a.parents = b.parents := by
      refine List.ext_getElem ?_ fun i hi hj => ih _ (List.getElem_mem hi) (hH.parents a ha _ ?_)
        (hH.parents b hb _ ?_) ?_
      · simpa using congrArg List.length (hH.one_key a b ha hb hname)
      · exact List.getElem_mem hi
      · exact List.getElem_mem hj
      · have := congrArg (·[i]?) (hH.one_key a b ha hb hname)
        simpa [List.getElem?_eq_getElem hi, List.getElem?_eq_getElem hj] using this
    cases a
    cases b
    exact congrArg₂ EventKey.mk hname hparents

/-- All generations of a key of a hierarchy are in it. -/
theorem generation (hH : IsHierarchy H) {k : EventKey} (hk : H k) (n : Nat) :
    ∀ a ∈ k.generation n, H a := by
  induction n with
  | zero => simpa [EventKey.generation] using hk
  | succ n ih =>
    intro a ha
    obtain ⟨b, hb, ha⟩ := List.mem_flatMap.mp ha
    exact hH.parents b (ih b hb) a ha

end IsHierarchy

section Hierarchy

variable {H : EventKey → Prop} {k : EventKey} {seen todo : List EventKey}

/-- What the worklist lists is of the hierarchy. -/
theorem Climbing.within (hH : IsHierarchy H) (hk : H k) (h : Climbing k seen todo) :
    ∀ a ∈ seen ++ todo, H a := by
  intro a ha
  obtain ⟨n, hn⟩ := h.above a ha
  exact hH.generation hk n a hn

/-- In a hierarchy the parents of what is done with are listed themselves. -/
theorem Climbing.mem_of_parent (hH : IsHierarchy H) (hk : H k) (h : Climbing k seen todo)
    {a p : EventKey} (ha : a ∈ seen) (hp : p ∈ a.parents) : p ∈ seen ++ todo := by
  obtain ⟨b, hb, hname⟩ := (hasName_iff _ p).mp (h.parents a ha p hp)
  have hHa := h.within hH hk a (List.mem_append_left _ ha)
  exact hH.eq_of_name_eq (h.within hH hk b hb) (hH.parents a hHa p hp) hname ▸ hb

/-- **In a hierarchy every generation is listed.** -/
theorem mem_climb (hH : IsHierarchy H) (hk : H k) (n : Nat) :
    ∀ a ∈ k.generation n, a ∈ climb [] [k] := by
  have hall := climbing_climb k
  induction n with
  | zero =>
    obtain ⟨rest, hrest⟩ := hall.head
    rw [List.append_nil] at hrest
    simp [generation, hrest]
  | succ n ih =>
    intro a ha
    obtain ⟨b, hb, ha⟩ := List.mem_flatMap.mp ha
    simpa using hall.mem_of_parent hH hk (ih b hb) ha

/-- **The order the worklist keeps**: nothing is listed before what is nearer,
and what waits is within one step of what waits first. -/
structure Nearing (k : EventKey) (seen todo : List EventKey) : Prop extends
    Climbing k seen todo where
  sorted : (seen ++ todo).Pairwise fun a b => k.distance a ≤ k.distance b
  within_step : ∀ a ∈ todo.head?, ∀ b ∈ todo, k.distance b ≤ k.distance a + 1

theorem Nearing.start (k : EventKey) : Nearing k [] [k] where
  toClimbing := .start k
  sorted := by simp
  within_step := by simp

/-- **When a key has its turn, all that is no further away is listed.** The
last step of a path that is short enough leaves a key nearer than the one
whose turn it is, so one whose parents are looked at already. -/
theorem Nearing.listed (hH : IsHierarchy H) (hk : H k) {a : EventKey}
    (h : Nearing k seen (a :: todo)) {n : Nat} (hn : n ≤ k.distance a) :
    ∀ b ∈ k.generation n, b ∈ seen ++ a :: todo := by
  induction n with
  | zero =>
    obtain ⟨rest, hrest⟩ := h.head
    simp [generation, hrest]
  | succ n ih =>
    intro b hb
    obtain ⟨c, hc, hb⟩ := List.mem_flatMap.mp hb
    have hnear : k.distance c < k.distance a := (distance_le hc).trans_lt hn
    have hseen : c ∈ seen := by
      rcases List.mem_append.mp (ih (by omega) c hc) with hseen | htodo
      · exact hseen
      · have hsorted := (List.pairwise_append.mp h.sorted).2.1
        rcases List.mem_cons.mp htodo with rfl | htodo
        · exact absurd hnear (lt_irrefl _)
        · exact absurd (List.rel_of_pairwise_cons hsorted htodo) (by omega)
    exact h.mem_of_parent hH hk hseen hb

/-- What is appended for a key is one step further away than it. -/
theorem Nearing.distance_of_fresh (hH : IsHierarchy H) (hk : H k) {a p : EventKey}
    (h : Nearing k seen (a :: todo)) (hp : p ∈ fresh (seen ++ a :: todo) a.parents) :
    k.distance p = k.distance a + 1 := by
  obtain ⟨hparent, hnew⟩ := mem_fresh hp
  have ha := mem_generation_distance (h.above a (by simp))
  have hmem : p ∈ k.generation (k.distance a + 1) := List.mem_flatMap.mpr ⟨a, ha, hparent⟩
  refine le_antisymm (distance_le hmem) (Nat.lt_of_not_le fun hle => ?_)
  have hlisted := h.listed hH hk hle p (mem_generation_distance ⟨_, hmem⟩)
  rw [(hasName_iff _ p).mpr ⟨p, hlisted, rfl⟩] at hnew
  cases hnew

theorem Nearing.step (hH : IsHierarchy H) (hk : H k) (seen : List EventKey) (a : EventKey)
    (todo : List EventKey) (h : Nearing k seen (a :: todo)) :
    Nearing k (seen ++ [a]) (todo ++ fresh (seen ++ a :: todo) a.parents) := by
  have hfresh := fun p => h.distance_of_fresh hH hk (p := p)
  obtain ⟨_, htodo, hseen⟩ := List.pairwise_append.mp h.sorted
  -- all that is listed is at most one step further away than `a`
  have hbound : ∀ b ∈ seen ++ a :: todo, k.distance b ≤ k.distance a + 1 := by
    intro b hb
    rcases List.mem_append.mp hb with hb | hb
    · exact (hseen b hb a (by simp)).trans (Nat.le_succ _)
    · exact h.within_step a rfl b hb
  have hnext : ∀ b ∈ todo ++ fresh (seen ++ a :: todo) a.parents,
      k.distance a ≤ k.distance b ∧ k.distance b ≤ k.distance a + 1 := by
    intro b hb
    rcases List.mem_append.mp hb with hb | hb
    · exact ⟨List.rel_of_pairwise_cons htodo hb, hbound b (by simp [hb])⟩
    · have := hfresh b hb
      omega
  refine ⟨h.toClimbing.step, ?_, ?_⟩
  · have hlist : seen ++ [a] ++ (todo ++ fresh (seen ++ a :: todo) a.parents)
        = seen ++ a :: todo ++ fresh (seen ++ a :: todo) a.parents := by simp
    rw [hlist, List.pairwise_append]
    refine ⟨h.sorted, List.pairwise_of_forall_mem_list fun b hb c hc => ?_, fun b hb c hc => ?_⟩
    · exact ((hfresh b hb).trans (hfresh c hc).symm).le
    · exact (hbound b hb).trans (hfresh c hc).ge
  · intro b hb c hc
    have := hnext b (List.mem_of_mem_head? hb)
    have := hnext c hc
    omega

end Hierarchy

/-! ## The theorem -/

/-- Where `any` is not moved, the lineage is what was listed. -/
theorem mem_lineage (k o : EventKey) :
    o ∈ k.lineage ↔ (o ∈ climb [] [k] ∧ o.name ≠ any.name) ∨ o = any := by
  simp [lineage, sameName]

/-- Only ancestors are in a lineage. -/
theorem isSubOf_of_mem_lineage {k o : EventKey} (h : o ∈ k.lineage) : k.isSubOf o = true := by
  rcases (mem_lineage k o).mp h with ⟨ho, -⟩ | rfl
  · obtain ⟨n, hn⟩ := (climbing_climb k).above o (by simpa using ho)
    exact (isSubOf_iff k o).mpr (.inr ⟨n, o, hn, rfl⟩)
  · exact isSubOf_any k

/-- No name is twice in a lineage. -/
theorem nodup_lineage (k : EventKey) : (k.lineage.map name).Nodup := by
  have hnames : ((climb [] [k]).map name).Nodup := by simpa using (climbing_climb k).names
  rw [lineage, List.map_append, List.nodup_append]
  refine ⟨hnames.sublist (List.Sublist.map _ List.filter_sublist), by simp, ?_⟩
  rintro _ hx _ hy rfl
  obtain ⟨a, ha, hname⟩ := List.mem_map.mp hx
  have hneq : a.name ≠ any.name := by simpa [sameName] using (List.mem_filter.mp ha).2
  exact hneq (hname.trans (by simpa using hy))

/-- In a hierarchy the lineage has the names of all ancestors. -/
theorem hasName_lineage {H : EventKey → Prop} (hH : IsHierarchy H) {k : EventKey} (hk : H k)
    (o : EventKey) : hasName k.lineage o = k.isSubOf o := by
  rw [Bool.eq_iff_iff, hasName_iff, isSubOf_iff]
  constructor
  · rintro ⟨a, ha, hname⟩
    have hsub := (isSubOf_iff k a).mp (isSubOf_of_mem_lineage ha)
    rwa [hname] at hsub
  · rintro hsub
    by_cases hany : o.name = any.name
    · exact ⟨any, (mem_lineage k any).mpr (.inr rfl), hany.symm⟩
    · obtain hany' | ⟨n, a, ha, hname⟩ := hsub
      · exact absurd hany' hany
      · exact ⟨a, (mem_lineage k a).mpr (.inl ⟨mem_climb hH hk n a ha, hname ▸ hany⟩), hname⟩

/-- In a hierarchy an ancestor is itself in the lineage. -/
theorem mem_lineage_of_isSubOf {H : EventKey → Prop} (hH : IsHierarchy H) {k o : EventKey}
    (hk : H k) (ho : H o ∨ o = any) (hsub : k.isSubOf o = true) : o ∈ k.lineage := by
  rw [← hasName_lineage hH hk] at hsub
  obtain ⟨a, ha, hname⟩ := (hasName_iff _ o).mp hsub
  rcases (mem_lineage k a).mp ha with ⟨hlisted, hnot⟩ | rfl
  · rcases ho with ho | rfl
    · have hHa := (climbing_climb k).within hH hk a (by simpa using hlisted)
      exact hH.eq_of_name_eq hHa ho hname ▸ ha
    · exact absurd hname hnot
  · rcases ho with ho | rfl
    · -- the hierarchy may have the key above all others among its own
      have hroot := hH.root o ho hname.symm
      obtain ⟨_, _⟩ := o
      obtain rfl : _ = "any" := hname.symm
      obtain rfl : _ = [] := hroot
      exact ha
    · exact ha

/-- In a hierarchy the lineage keeps the order of the distances. -/
theorem lineage_sorted {H : EventKey → Prop} (hH : IsHierarchy H) {k : EventKey} (hk : H k)
    (hnot : k.name ≠ any.name) :
    ∃ between, k.lineage = k :: between ++ [any] ∧
      (∀ a ∈ between, H a ∧ a ∈ k.generation (k.distance a)) ∧
      between.Pairwise fun a b => k.distance a ≤ k.distance b := by
  have hall : Nearing k (climb [] [k]) [] := climb_induction (Nearing.step hH hk) (.start k)
  obtain ⟨rest, hrest⟩ := hall.head
  rw [List.append_nil] at hrest
  refine ⟨rest.filter (fun a => !a.sameName any), ?_, fun a ha => ?_, ?_⟩
  · have hkept : (!k.sameName any) = true := by simpa [sameName] using hnot
    simp [lineage, hrest, hkept]
  · have hmem : a ∈ climb [] [k] ++ [] := by simp [hrest, List.mem_of_mem_filter ha]
    exact ⟨hall.within hH hk a hmem, mem_generation_distance (hall.above a hmem)⟩
  · have hsorted := hall.sorted
    rw [List.append_nil, hrest] at hsorted
    exact (List.pairwise_cons.mp hsorted).2.filter _

/-- **A lineage lists what its key descends from, the nearest first.** Of every
key the lineage repeats no name, ends in `any` and has only ancestors. In a
hierarchy, where a name stands for one key, it has all of them, by their names
and as keys; it begins with the key itself, and what lies between the two ends
is in the order of the shortest path of parents. The hierarchy need not be
finite, a key has finitely many ancestors anyway. -/
theorem lineage_lists_ancestors (k : EventKey) :
    (k.lineage.map name).Nodup ∧ (∃ above, k.lineage = above ++ [any]) ∧
    (∀ o ∈ k.lineage, k.isSubOf o = true) ∧
    ∀ H : EventKey → Prop, IsHierarchy H → H k →
      (∀ o, hasName k.lineage o = k.isSubOf o) ∧
      (∀ o, H o ∨ o = any → (o ∈ k.lineage ↔ k.isSubOf o = true)) ∧
      (k.name = any.name → k.lineage = [any]) ∧
      (k.name ≠ any.name → ∃ between, k.lineage = k :: between ++ [any] ∧
        (∀ a ∈ between, H a ∧ a ∈ k.generation (k.distance a)) ∧
        between.Pairwise fun a b => k.distance a ≤ k.distance b) := by
  refine ⟨nodup_lineage k, ⟨_, rfl⟩, fun o => isSubOf_of_mem_lineage, fun H hH hk => ?_⟩
  refine ⟨hasName_lineage hH hk, fun o ho => ?_, fun hany => ?_, lineage_sorted hH hk⟩
  · exact ⟨isSubOf_of_mem_lineage, mem_lineage_of_isSubOf hH hk ho⟩
  · have hclimb : climb [] [k] = [k] := by simp [climb, hH.root k hk hany, fresh]
    simp [lineage, hclimb, sameName, hany]

/-- Two paths of one length lead to `message`, one through a parent given
twice, and `any` is a parent, too. -/
theorem lineage_lists_ancestors_diamond :
    let message := mk "message" []
    let group := mk "group" [message, message]
    let contact := mk "contact" [any, message]
    let mention := mk "mention" [group, contact]
    IsHierarchy (· ∈ [mention, group, contact, message, any]) ∧
      mention.lineage.map name = ["mention", "group", "contact", "message", "any"] ∧
      (∀ o ∈ [mention, group, contact, message, any], o ∈ mention.lineage) ∧
      message.isSubOf mention = false := by
  intro message group contact mention
  have hkeys : ∀ a ∈ [mention, group, contact, message, any],
      ∀ b ∈ [mention, group, contact, message, any],
        a.name = b.name → a.parents.map name = b.parents.map name := by decide
  have hH : IsHierarchy (· ∈ [mention, group, contact, message, any]) :=
    { parents := by simp [mention, group, contact, message, any, parents]
      one_key := fun a b ha hb => hkeys a ha b hb
      root := by simp [mention, group, contact, message, any, name, parents] }
  have hall := (lineage_lists_ancestors mention).2.2.2 _ hH (by simp)
  refine ⟨hH, ?_, fun o ho => ?_, ?_⟩
  · simp [mention, group, contact, message, any, lineage, climb, fresh, hasName, sameName, name,
      parents]
  · refine (hall.2.1 o (.inl ho)).mpr ?_
    simp only [List.mem_cons, List.not_mem_nil, or_false] at ho
    rcases ho with rfl | rfl | rfl | rfl | rfl <;> decide
  · decide

end EventKey

end Switchboard
