import Switchboard.Proofs.Json.Members
import Switchboard.Setting.Basic

/-!
# What layers of settings say

Settings are looked up under chains of names (`Setting.at?`). A layer that says
something on the way to the end of a chain decides what layers below it can
add: nothing at all where it has no table on the way, and otherwise only what
its own value is laid over. A layer that says nothing on the way leaves it to
the layers below (`Setting.Silent`).

So several settings laid over each other have under a chain what the highest
one has there that says something on the way (`Setting.at?_layered`).

Looking up finds the first entry of a name, and laying over goes through all of
them, so the names of a table must be distinct. They are in increasing order in
all settings that are made here (`Setting.Ordered`); what layers are made of
keeps this, and so does laying them over each other.
-/

namespace Switchboard

namespace Setting

open Json (InOrder)

/-! ## Tables in order -/

/-- **The names in every table are in order.** Inside lists they need not be;
nothing is laid over what is there. -/
inductive Ordered : Setting → Prop
  | table {entries : List (String × Setting)} (inOrder : InOrder entries)
      (each : ∀ e ∈ entries, Ordered e.2) : Ordered (table entries)
  | plain {s : Setting} (h : ∀ entries, s ≠ .table entries) : Ordered s

theorem ordered_table_iff {entries : List (String × Setting)} :
    (table entries).Ordered ↔ InOrder entries ∧ ∀ e ∈ entries, Ordered e.2 := by
  constructor
  · intro h
    cases h with
    | table inOrder each => exact ⟨inOrder, each⟩
    | plain h => exact absurd rfl (h entries)
  · exact fun h => .table h.1 h.2

theorem ordered_empty : empty.Ordered := .table .nil (List.forall_mem_nil _)

/-- An entry is put into a table. -/
theorem ordered_insertMember {entries : List (String × Setting)} {s : Setting}
    (h : (table entries).Ordered) (name : String) (hs : s.Ordered) :
    (table (Json.insertMember name s entries)).Ordered := by
  obtain ⟨hin, heach⟩ := ordered_table_iff.mp h
  exact .table (hin.insertMember name s) (Json.forall_insertMember heach name hs)

theorem ordered_member {entries : List (String × Setting)} {name : String} {s : Setting}
    (h : (table entries).Ordered) (hs : Json.member? name entries = some s) : s.Ordered :=
  (ordered_table_iff.mp h).2 _ (Json.mem_of_member? hs)

/-- A setting that is no table takes the place of another one. -/
theorem cover_of_plain {upper : Setting} (h : ∀ es, upper ≠ table es) (lower : Setting) :
    cover upper lower = upper := by
  cases upper with
  | table es => exact absurd rfl (h es)
  | _ => rw [cover]; rintro es fs ⟨⟩

/-- A setting takes the place of one that is no table. -/
theorem cover_plain {lower : Setting} (h : ∀ fs, lower ≠ table fs) (upper : Setting) :
    cover upper lower = upper := by
  rw [cover]
  exact fun es fs _ hfs => h fs hfs

/-- Named settings are laid over others. -/
theorem ordered_coverEntries {es fs : List (String × Setting)} (hfs : (table fs).Ordered)
    (hes : ∀ e ∈ es, e.2.Ordered ∧ ∀ below : Setting, below.Ordered → (cover e.2 below).Ordered) :
    (table (coverEntries es fs)).Ordered := by
  induction es generalizing fs with
  | nil => rwa [coverEntries]
  | cons e es ih =>
    obtain ⟨⟨hs, hcover⟩, hes⟩ := List.forall_mem_cons.mp hes
    rw [coverEntries]
    refine ih (ordered_insertMember hfs e.1 ?_) hes
    split
    · next below hbelow => exact hcover below (ordered_member hfs hbelow)
    · exact hs

/-- **One setting is laid over another one.** -/
theorem Ordered.cover {upper lower : Setting} (hupper : upper.Ordered) (hlower : lower.Ordered) :
    (upper.cover lower).Ordered := by
  induction hupper generalizing lower with
  | plain h => rw [cover_of_plain h]; exact .plain h
  | @table es inOrder each ih =>
    cases hlower with
    | plain h => rw [cover_plain h]; exact .table inOrder each
    | @table fs inOrder' each' =>
      rw [Setting.cover]
      exact ordered_coverEntries (.table inOrder' each') fun e he => ⟨each e he, fun _ => ih e he⟩

/-- Several settings are laid over each other. -/
theorem ordered_layered {layers : List Setting} (h : ∀ s ∈ layers, s.Ordered) :
    (layered layers).Ordered := by
  have key : ∀ (layers : List Setting) (lower : Setting), lower.Ordered →
      (∀ s ∈ layers, s.Ordered) →
      (layers.foldl (fun lower upper => cover upper lower) lower).Ordered := by
    intro layers
    induction layers with
    | nil => exact fun lower hlower _ => hlower
    | cons s layers ih =>
      intro lower hlower hlayers
      obtain ⟨hs, hlayers⟩ := List.forall_mem_cons.mp hlayers
      exact ih _ (hs.cover hlower) hlayers
  exact key layers empty ordered_empty h

/-! ## Looking up -/

/-- **What stands at the end of a chain of names.** -/
def at? : List String → Setting → Option Setting
  | [], s => some s
  | name :: rest, table es => (Json.member? name es).bind (at? rest)
  | _ :: _, _ => none

/-- **A setting says nothing on the way to the end of a chain**: it is a table
there as far as it goes, and does not go to the end. -/
def Silent : List String → Setting → Prop
  | [], _ => False
  | name :: rest, table es => ∀ s, Json.member? name es = some s → Silent rest s
  | _ :: _, _ => False

section LookingUp

variable {es fs : List (String × Setting)} {s : Setting} {name : String} {rest chain : List String}

theorem at?_plain (h : ∀ es, s ≠ table es) (name : String) (rest : List String) :
    s.at? (name :: rest) = none := by
  rw [at?]
  exact h

theorem at?_table (h : Json.member? name es = some s) :
    (table es).at? (name :: rest) = s.at? rest := by
  rw [at?, h, Option.bind_some]

theorem at?_table_of_none (h : Json.member? name es = none) :
    (table es).at? (name :: rest) = none := by
  rw [at?, h, Option.bind_none]

theorem not_silent_of_plain (h : ∀ es, s ≠ table es) : ¬s.Silent chain := by
  cases chain with
  | nil => exact id
  | cons name rest =>
    rw [Silent]
    · exact id
    · exact h

theorem silent_table_iff (h : Json.member? name es = some s) :
    (table es).Silent (name :: rest) ↔ s.Silent rest := by
  rw [Silent, h]
  exact ⟨fun hall => hall s rfl, fun hs t ht => Option.some.inj ht ▸ hs⟩

theorem silent_table_of_none (h : Json.member? name es = none) :
    (table es).Silent (name :: rest) := by
  rw [Silent, h]
  exact fun s hs => nomatch hs

/-- What says nothing on the way has nothing at the end. -/
theorem Silent.at?_eq_none (h : s.Silent chain) : s.at? chain = none := by
  induction chain generalizing s with
  | nil => exact absurd h id
  | cons name rest ih =>
    cases s with
    | table es =>
      cases hname : Json.member? name es with
      | none => exact at?_table_of_none hname
      | some t => rw [at?_table hname, ih ((silent_table_iff hname).mp h)]
    | _ => exact at?_plain (fun es => by rintro ⟨⟩) name rest

/-- **What a setting laid over another one has at the end of a chain**: what the
lower one has there, if the upper one says nothing on the way, and otherwise
what the upper one has there, laid over what the lower one has. -/
theorem at?_cover {upper lower : Setting} (h : upper.Ordered) :
    (upper.Silent chain → (cover upper lower).at? chain = lower.at? chain) ∧
      (¬upper.Silent chain → (cover upper lower).at? chain =
        (upper.at? chain).map fun v => ((lower.at? chain).map (cover v)).getD v) := by
  induction chain generalizing upper lower with
  | nil => exact ⟨fun hs => absurd hs id, fun _ => rfl⟩
  | cons name rest ih =>
    cases h with
    | plain hupper =>
      refine ⟨fun hs => absurd hs (not_silent_of_plain hupper), fun _ => ?_⟩
      rw [cover_of_plain hupper, at?_plain hupper, Option.map_none]
    | @table es inOrder each =>
      by_cases hlower : ∀ fs, lower ≠ table fs
      · -- nothing is left of what is below a table without being one
        rw [cover_plain hlower, at?_plain hlower]
        exact ⟨Silent.at?_eq_none, fun _ => Option.map_id'.symm⟩
      · push Not at hlower
        obtain ⟨fs, rfl⟩ := hlower
        have hmember := member?_coverEntries name es inOrder.nodup fs
        rw [Setting.cover]
        cases hes : Json.member? name es with
        | none =>
          rw [hes] at hmember
          refine ⟨fun _ => ?_, fun hspeaks => absurd (silent_table_of_none hes) hspeaks⟩
          rw [at?, at?, hmember]
        | some s =>
          rw [silent_table_iff hes, at?_table hes]
          cases hfs : Json.member? name fs with
          | none =>
            rw [hes, hfs] at hmember
            rw [at?_table hmember, at?_table_of_none hfs]
            exact ⟨Silent.at?_eq_none, fun _ => Option.map_id'.symm⟩
          | some below =>
            rw [hes, hfs] at hmember
            -- both have the name, and what they have there is laid over each other
            rw [at?_table hmember, at?_table hfs]
            exact ih (each _ (Json.mem_of_member? hes))

/-- **Layers that say nothing on the way** change nothing at the end. -/
theorem at?_foldl_of_silent {layers : List Setting} (lower : Setting)
    (h : ∀ s ∈ layers, s.Ordered ∧ s.Silent chain) :
    (layers.foldl (fun lower upper => cover upper lower) lower).at? chain = lower.at? chain := by
  induction layers generalizing lower with
  | nil => rfl
  | cons s layers ih =>
    obtain ⟨⟨hordered, hsilent⟩, hlayers⟩ := List.forall_mem_cons.mp h
    rw [List.foldl_cons, ih _ hlayers, (at?_cover hordered).1 hsilent]

/-- **The highest layer that says something on the way** to the end of a chain, and
the layers below it. -/
inductive Decides (chain : List String) : List Setting → List Setting → Setting → Prop
  | intro {lower upper : List Setting} {s : Setting} (speaks : ¬s.Silent chain)
      (above : ∀ t ∈ upper, t.Silent chain) : Decides chain (lower ++ s :: upper) lower s

/-- **What a layer has at the end of a chain, laid over what the layers below it
come to there.** -/
def laidOver (lower : List Setting) (chain : List String) (v : Setting) : Setting :=
  (((layered lower).at? chain).map (cover v)).getD v

theorem laidOver_of_plain {v : Setting} (h : ∀ es, v ≠ table es) (lower : List Setting) :
    laidOver lower chain v = v := by
  rw [laidOver]
  cases (layered lower).at? chain with
  | none => rfl
  | some below => exact cover_of_plain h below

/-- **Settings laid over each other have what the highest layer has that says
something on the way**, laid over what the layers below it come to. -/
theorem at?_layered {layers lower : List Setting} (hlayers : ∀ t ∈ layers, t.Ordered)
    (h : Decides chain layers lower s) :
    (layered layers).at? chain = (s.at? chain).map (laidOver lower chain) := by
  cases h with
  | @intro _ upper _ speaks above =>
    obtain ⟨-, hs⟩ := List.forall_mem_append.mp hlayers
    obtain ⟨hs, hupper⟩ := List.forall_mem_cons.mp hs
    rw [layered, List.foldl_append, List.foldl_cons,
      at?_foldl_of_silent _ fun t ht => ⟨hupper t ht, above t ht⟩, (at?_cover hs).2 speaks]
    rfl

/-- Nothing is said where neither of two settings says anything. -/
theorem Silent.cover {upper lower : Setting} (h : upper.Ordered) (hupper : upper.Silent chain)
    (hlower : lower.Silent chain) : (cover upper lower).Silent chain := by
  induction chain generalizing upper lower with
  | nil => exact hupper
  | cons name rest ih =>
    cases h with
    | plain hplain => exact absurd hupper (not_silent_of_plain hplain)
    | @table es inOrder each =>
      cases lower with
      | table fs =>
        have hmember := member?_coverEntries name es inOrder.nodup fs
        rw [Setting.cover]
        cases hes : Json.member? name es with
        | none =>
          rw [hes] at hmember
          rw [Silent, hmember]
          exact hlower
        | some s =>
          rw [silent_table_iff hes] at hupper
          cases hfs : Json.member? name fs with
          | none =>
            rw [hes, hfs] at hmember
            exact (silent_table_iff hmember).mpr hupper
          | some below =>
            rw [hes, hfs] at hmember
            rw [silent_table_iff hfs] at hlower
            exact (silent_table_iff hmember).mpr
              (ih (each _ (Json.mem_of_member? hes)) hupper hlower)
      | _ => exact absurd hlower (not_silent_of_plain fun es => by rintro ⟨⟩)

/-- Settings laid over each other say nothing where none of them says anything. -/
theorem silent_layered {layers : List Setting}
    (h : ∀ s ∈ layers, s.Ordered ∧ s.Silent (name :: rest)) :
    (layered layers).Silent (name :: rest) := by
  have key : ∀ (layers : List Setting) (lower : Setting), lower.Silent (name :: rest) →
      (∀ s ∈ layers, s.Ordered ∧ s.Silent (name :: rest)) →
      (layers.foldl (fun lower upper => Setting.cover upper lower) lower).Silent
        (name :: rest) := by
    intro layers
    induction layers with
    | nil => exact fun lower hlower _ => hlower
    | cons s layers ih =>
      intro lower hlower hlayers
      obtain ⟨⟨hs, hsilent⟩, hlayers⟩ := List.forall_mem_cons.mp hlayers
      exact ih _ (hsilent.cover hs hlower) hlayers
  exact key layers empty (silent_table_of_none rfl) h

/-- What is silent on the way to the end of a chain is silent on the way to a part
of it, or comes to something there that is silent on the rest of the way. -/
theorem Silent.of_append (h : s.Silent (chain ++ rest)) :
    s.Silent chain ∨ ∃ t, s.at? chain = some t ∧ t.Silent rest := by
  induction chain generalizing s with
  | nil => exact .inr ⟨s, rfl, h⟩
  | cons name chain ih =>
    cases s with
    | table es =>
      cases hname : Json.member? name es with
      | none => exact .inl (silent_table_of_none hname)
      | some t =>
        rw [List.cons_append, silent_table_iff hname] at h
        rw [silent_table_iff hname, at?_table hname]
        exact ih h
    | _ => exact absurd h (not_silent_of_plain fun es => by rintro ⟨⟩)

theorem at?_append (s : Setting) (chain rest : List String) :
    s.at? (chain ++ rest) = (s.at? chain).bind (at? rest) := by
  induction chain generalizing s with
  | nil => rfl
  | cons name chain ih =>
    cases s with
    | table es =>
      rw [List.cons_append, at?, at?, Option.bind_assoc]
      exact congrArg _ (funext ih)
    | _ => rfl

theorem Ordered.at? {v : Setting} (h : s.Ordered) (hv : s.at? chain = some v) : v.Ordered := by
  induction chain generalizing s with
  | nil => exact Option.some.inj hv ▸ h
  | cons name chain ih =>
    cases s with
    | table es =>
      obtain ⟨t, ht, hv⟩ := Option.bind_eq_some_iff.mp hv
      exact ih (ordered_member h ht) hv
    | _ => cases hv

end LookingUp

end Setting

end Switchboard
