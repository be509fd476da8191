import Mathlib.Data.List.Forall2
import Switchboard.Config.Loader

/-!
# The files of a configuration

Which files are taken is said without the search: there is a first candidate
whose base is there, and then the variants up to it are taken that are there,
and this base; or there is none, and all variants are taken that are there
(`Sources.Takes`).

The search ends with the base it takes, and does not look at the candidates
behind it (`Sources.Looks`).
-/

namespace Switchboard.Config

namespace Surroundings

/-- **Two surroundings show the same at a path**: whether there is something,
and what reading it gives. -/
structure SameAt (w w' : Surroundings) (p : String) : Prop where
  leads : w.leads p = w'.leads p
  content : w.content? p = w'.content? p

/-- What an absolute path leads to is all there is to be seen of it. -/
theorem sameAt_of_resolve {w w' : Surroundings} {p : String} (hp : Path.isAbsolute p = true)
    (h : w.files.resolve [] p = w'.files.resolve [] p) : w.SameAt w' p := by
  have hroot : ∀ (t : FileNode) (d : List String), t.resolve d p = t.resolve [] p := by
    intro t d
    unfold FileNode.resolve
    rw [if_pos hp, if_pos hp]
  constructor
  · rw [Surroundings.leads, Surroundings.leads, FileNode.leads, FileNode.leads,
      hroot w.files, hroot w'.files, h]
  · simp only [content?, hp, if_true, List.findSome?_cons, List.findSome?_nil, h]

end Surroundings

namespace Sources

variable {s : Sources} {w w' : Surroundings} {candidates before : List Candidate}
  {c : Candidate}

/-- The variants of candidates that are there. -/
def variants (w : Surroundings) (candidates : List Candidate) : List String :=
  (candidates.map (·.variant)).filter fun p => w.leads p

theorem variants_append (candidates more : List Candidate) :
    variants w (candidates ++ more) = variants w candidates ++ variants w more := by
  rw [variants, List.map_append, List.filter_append, variants, variants]

/-- The first candidate is passed, or ends the search. -/
theorem selected_cons (c : Candidate) (rest : List Candidate) :
    selected w (c :: rest) =
      variants w [c] ++ if w.leads c.base then [c.base] else selected w rest := by
  rw [selected]
  cases hv : w.leads c.variant <;> simp [variants, hv]

/-- Candidates whose bases are not there are passed. -/
theorem selected_append (h : ∀ b ∈ before, w.leads b.base = false) (rest : List Candidate) :
    selected w (before ++ rest) = variants w before ++ selected w rest := by
  induction before with
  | nil => rfl
  | cons b before ih =>
    obtain ⟨hb, hbefore⟩ := List.forall_mem_cons.mp h
    rw [List.cons_append, selected_cons, if_neg (by simp [hb]), ih hbefore, ← List.append_assoc,
      ← variants_append, List.singleton_append]

/-- A candidate whose base is there ends the search. -/
theorem selected_base (h : w.leads c.base = true) (after : List Candidate) :
    selected w (c :: after) = variants w [c] ++ [c.base] := by
  rw [selected_cons, if_pos h]

/-- **Which files are taken among candidates.** -/
inductive Selects (w : Surroundings) : List Candidate → List String → Prop
  | base {before after : List Candidate} {c : Candidate}
      (earlier : ∀ b ∈ before, w.leads b.base = false) (found : w.leads c.base = true) :
      Selects w (before ++ c :: after) (variants w (before ++ [c]) ++ [c.base])
  | none {candidates : List Candidate} (all : ∀ c ∈ candidates, w.leads c.base = false) :
      Selects w candidates (variants w candidates)

theorem selects_iff {paths : List String} :
    Selects w candidates paths ↔ selected w candidates = paths := by
  constructor
  · intro h
    cases h with
    | @base before after c earlier found =>
      rw [selected_append earlier, selected_base found, variants_append, List.append_assoc]
    | none all => simpa [selected] using selected_append all []
  · rintro rfl
    -- the first candidate whose base is there parts the others into those before and behind it
    cases hfind : candidates.find? fun c => w.leads c.base with
    | none =>
      have hall : ∀ c ∈ candidates, w.leads c.base = false := by simpa using hfind
      have hselected := selected_append hall []
      rw [List.append_nil, selected, List.append_nil] at hselected
      exact hselected ▸ .none hall
    | some c =>
      obtain ⟨found, before, after, rfl, hbefore⟩ := List.find?_eq_some_iff_append.mp hfind
      have hearlier : ∀ b ∈ before, w.leads b.base = false := by simpa using hbefore
      rw [selected_append hearlier, selected_base found, ← List.append_assoc, ← variants_append]
      exact .base hearlier found

/-- **Which files are taken**, or why none can be. -/
inductive Takes (s : Sources) (w : Surroundings) : Except LoadError (List String) → Prop
  | searched {paths : List String} (file : s.file = none)
      (selects : Selects w (s.candidates w) paths) : Takes s w (.ok paths)
  | named {p : String} (file : s.file = some p) (found : w.leads p = true)
      (toml : Path.extension p = "toml") : Takes s w (.ok [p])
  | missing {p : String} (file : s.file = some p) (absent : w.leads p = false) :
      Takes s w (.error (.fileNotFound p))
  | foreign {p : String} (file : s.file = some p) (found : w.leads p = true)
      (other : Path.extension p ≠ "toml") :
      Takes s w (.error (.unsupportedFormat (Path.extension p)))

/-- What is taken is what the loader reads. -/
theorem takes_iff {r : Except LoadError (List String)} : s.Takes w r ↔ s.paths w = r := by
  constructor
  · intro h
    cases h with
    | searched file selects => rw [paths, file, selects_iff.mp selects]
    | named file found toml => rw [paths, file]; simp [found, toml]
    | missing file absent => rw [paths, file]; simp [absent]
    | foreign file found other => rw [paths, file]; simp [found, other]
  · rintro rfl
    unfold paths
    split
    · next file => exact .searched file (selects_iff.mpr rfl)
    · next p file =>
      split
      · next found =>
        split
        · next toml => exact .named file found toml
        · next other => exact .foreign file found other
      · next absent => exact .missing file (by simpa using absent)

/-! ## What is looked at -/

/-- **The search comes to a candidate** if no base of an earlier one is there. -/
inductive ComesTo (w : Surroundings) : List Candidate → Candidate → Prop
  | intro {before after : List Candidate} {c : Candidate}
      (earlier : ∀ b ∈ before, w.leads b.base = false) : ComesTo w (before ++ c :: after) c

theorem comesTo_cons_iff {b : Candidate} :
    ComesTo w (b :: candidates) c ↔ c = b ∨ w.leads b.base = false ∧ ComesTo w candidates c := by
  constructor
  · intro h
    generalize hcons : b :: candidates = all at h
    obtain @⟨before, after, c, earlier⟩ := h
    cases before with
    | nil => exact .inl (List.cons.inj hcons).1.symm
    | cons b' before =>
      obtain ⟨rfl, rfl⟩ := List.cons.inj hcons
      obtain ⟨hb, hbefore⟩ := List.forall_mem_cons.mp earlier
      exact .inr ⟨hb, .intro hbefore⟩
  · rintro (rfl | ⟨hb, h⟩)
    · exact ComesTo.intro (List.forall_mem_nil _)
    · obtain @⟨before, after, c, earlier⟩ := h
      exact ComesTo.intro (List.forall_mem_cons.mpr ⟨hb, earlier⟩)

/-- **The paths that are looked at**: that of the file that is named, or else those
of the candidates that the search comes to. -/
inductive Looks (s : Sources) (w : Surroundings) : String → Prop
  | named {p : String} (file : s.file = some p) : Looks s w p
  | variant {c : Candidate} (file : s.file = none) (comes : ComesTo w (s.candidates w) c) :
      Looks s w c.variant
  | base {c : Candidate} (file : s.file = none) (comes : ComesTo w (s.candidates w) c) :
      Looks s w c.base

/-- The search does not go beyond the candidates it comes to. -/
theorem selected_congr (h : ∀ c, ComesTo w candidates c →
    w.leads c.variant = w'.leads c.variant ∧ w.leads c.base = w'.leads c.base) :
    selected w candidates = selected w' candidates := by
  induction candidates with
  | nil => rfl
  | cons c rest ih =>
    obtain ⟨hvariant, hbase⟩ := h c (comesTo_cons_iff.mpr (.inl rfl))
    have hvariants : variants w [c] = variants w' [c] := by
      simp [variants, List.filter_cons, hvariant]
    rw [selected_cons, selected_cons, hvariants, ← hbase]
    cases hfound : w.leads c.base with
    | true => rfl
    | false => rw [ih fun b hb => h b (comesTo_cons_iff.mpr (.inr ⟨hfound, hb⟩))]

/-- What is taken are files of candidates that the search comes to. -/
theorem comesTo_of_mem_selected {p : String} (hp : p ∈ selected w candidates) :
    ∃ c, ComesTo w candidates c ∧ (p = c.variant ∨ p = c.base) := by
  induction candidates with
  | nil => cases hp
  | cons c rest ih =>
    rw [selected_cons] at hp
    rcases List.mem_append.mp hp with hp | hp
    · have hvariant := List.mem_singleton.mp (List.mem_of_mem_filter hp)
      exact ⟨c, comesTo_cons_iff.mpr (.inl rfl), .inl hvariant⟩
    · split at hp
      · exact ⟨c, comesTo_cons_iff.mpr (.inl rfl), .inr (List.mem_singleton.mp hp)⟩
      · next hbase =>
        obtain ⟨b, hb, hp⟩ := ih hp
        exact ⟨b, comesTo_cons_iff.mpr (.inr ⟨by simpa using hbase, hb⟩), hp⟩

/-- **What is taken is among what is looked at.** -/
theorem looks_of_mem_paths {ps : List String} {p : String} (h : s.paths w = .ok ps) (hp : p ∈ ps) :
    s.Looks w p := by
  cases takes_iff.mpr h with
  | searched file selects =>
    rw [← selects_iff.mp selects] at hp
    obtain ⟨c, hc, rfl | rfl⟩ := comesTo_of_mem_selected hp
    · exact .variant file hc
    · exact .base file hc
  | named file => exact List.mem_singleton.mp hp ▸ .named file

/-- **What is taken hangs on nothing but what is looked at.** -/
theorem paths_congr (hdirectories : s.directories w = s.directories w')
    (h : ∀ p, s.Looks w p → w.leads p = w'.leads p) : s.paths w = s.paths w' := by
  unfold paths
  split
  · next file =>
    have hcandidates : s.candidates w = s.candidates w' := by
      rw [candidates, candidates, hdirectories]
    rw [← hcandidates, selected_congr fun c hc => ⟨h _ (.variant file hc), h _ (.base file hc)⟩]
  · next p file => rw [h p (.named file)]

end Sources

end Switchboard.Config
