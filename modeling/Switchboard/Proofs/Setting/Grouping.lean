import Mathlib.Data.List.Induction
import Switchboard.Proofs.Setting.Layers

/-!
# Layers put together first

Layers are laid over each other from the lowest one upwards. If some of them
are put together first, this is not the same in general: a setting that is no
table keeps tables above it from being laid over those below. It is the same
where tables come upon tables (`Setting.Fits`, `Setting.cover_assoc`), so layers
that fit on what is below them may be put together (`Setting.layered_group`).

A layer that fits and has all the names there are below it leaves nothing of what is
below (`Setting.Spans`, `Setting.cover_of_spans`).
-/

namespace Switchboard

namespace Setting

/-- **A setting fits on a lower one**: where the lower one has a table, it has one,
or nothing. -/
inductive Fits : Setting → Setting → Prop
  | onPlain {upper lower : Setting} (h : ∀ fs, lower ≠ table fs) : Fits upper lower
  | onTable {es fs : List (String × Setting)}
      (each : ∀ name s below, Json.member? name es = some s → Json.member? name fs = some below →
        Fits s below) : Fits (table es) (table fs)

variable {upper middle lower : Setting} {es fs : List (String × Setting)} {layers : List Setting}

theorem inOrder_coverEntries (hes : (table es).Ordered) (hfs : (table fs).Ordered) :
    Json.InOrder (coverEntries es fs) := by
  have h := hes.cover hfs
  rw [cover] at h
  exact (ordered_table_iff.mp h).1

/-- **A setting that fits may be covered before it is laid over another one.** -/
theorem cover_assoc (h : Fits middle lower) (hupper : upper.Ordered) (hmiddle : middle.Ordered)
    (hlower : lower.Ordered) :
    cover (cover upper middle) lower = cover upper (cover middle lower) := by
  induction h generalizing upper with
  | onPlain h => rw [cover_plain h, cover_plain h]
  | @onTable es fs each ih =>
    cases hupper with
    | plain h => rw [cover_of_plain h, cover_of_plain h, cover_of_plain h]
    | @table ds inOrder hds =>
      have hupper : (table ds).Ordered := .table inOrder hds
      have hover := hupper.cover hmiddle
      have hunder := hmiddle.cover hlower
      rw [cover] at hover hunder
      rw [cover, cover, cover, cover]
      -- tables in order are equal if their names have the same
      refine congrArg table ((inOrder_coverEntries hover hlower).ext
        (inOrder_coverEntries hupper hunder) fun name => ?_)
      have hes := (ordered_table_iff.mp hmiddle).1.nodup
      rw [member?_coverEntries name _ (inOrder_coverEntries hupper hmiddle).nodup,
        member?_coverEntries name _ inOrder.nodup, member?_coverEntries name _ inOrder.nodup,
        member?_coverEntries name _ hes]
      cases hd : Json.member? name ds with
      | none => cases Json.member? name es <;> cases Json.member? name fs <;> rfl
      | some d =>
        cases he : Json.member? name es with
        | none => cases Json.member? name fs <;> rfl
        | some e =>
          cases hf : Json.member? name fs with
          | none => rfl
          | some f =>
            -- all three have the name, and what the middle one has there fits again
            exact congrArg some (ih name e f he hf (hds _ (Json.mem_of_member? hd))
              (ordered_member hmiddle he) (ordered_member hlower hf))

/-- What fits may be covered by what fits. -/
theorem Fits.cover (hmiddle : Fits middle lower) (hupper : Fits upper lower)
    (hordered : upper.Ordered) : Fits (upper.cover middle) lower := by
  induction hmiddle generalizing upper with
  | onPlain h => exact .onPlain h
  | @onTable es fs each ih =>
    cases hupper with
    | onPlain h => exact absurd rfl (h fs)
    | @onTable ds _ each' =>
      rw [Setting.cover]
      refine .onTable fun name s below hs hbelow => ?_
      rw [member?_coverEntries name _ (ordered_table_iff.mp hordered).1.nodup] at hs
      cases hd : Json.member? name ds with
      | none =>
        rw [hd] at hs
        exact each name s below hs hbelow
      | some d =>
        have hfits := each' name d below hd hbelow
        rw [hd] at hs
        cases he : Json.member? name es with
        | none =>
          rw [he] at hs
          exact Option.some.inj hs ▸ hfits
        | some e =>
          rw [he] at hs
          exact Option.some.inj hs ▸ ih name e below he hbelow hfits (ordered_member hordered hd)

theorem layered_concat (layers : List Setting) (s : Setting) :
    layered (layers ++ [s]) = cover s (layered layers) := by
  rw [layered, List.foldl_append]
  rfl

/-- **Layers that fit may be put together** before they are laid over what is
below. -/
theorem cover_layered (hlower : (table fs).Ordered)
    (h : ∀ s ∈ layers, s.Ordered ∧ s.Fits (table fs)) :
    cover (layered layers) (table fs) =
      layers.foldl (fun lower upper => cover upper lower) (table fs) ∧
      (layered layers).Fits (table fs) := by
  induction layers using List.reverseRecOn with
  | nil => exact ⟨by rw [layered, List.foldl_nil, empty, cover, coverEntries]; rfl,
      .onTable fun name s below hs => nomatch hs⟩
  | append_singleton layers s ih =>
    obtain ⟨hlayers, hs⟩ := List.forall_mem_append.mp h
    obtain ⟨hordered, hfits⟩ := hs s List.mem_cons_self
    obtain ⟨heq, hmiddle⟩ := ih hlayers
    have hmiddleOrdered := ordered_layered fun t ht => (hlayers t ht).1
    rw [layered_concat, cover_assoc hmiddle hordered hmiddleOrdered hlower, heq, List.foldl_append]
    exact ⟨rfl, hmiddle.cover hfits hordered⟩

/-- There is nothing to be seen of nothing. -/
theorem cover_empty (h : upper.Ordered) : cover upper empty = upper := by
  cases h with
  | plain h => exact cover_of_plain h _
  | @table es hin hes =>
    have h : (table es).Ordered := .table hin hes
    rw [empty, cover]
    refine congrArg table ((inOrder_coverEntries h ordered_empty).ext hin fun name => ?_)
    rw [member?_coverEntries name _ hin.nodup]
    cases Json.member? name es <;> rfl

/-- **Layers above the lowest one that fit on it** are as good as one layer. -/
theorem layered_group (hlower : (table fs).Ordered)
    (h : ∀ s ∈ layers, s.Ordered ∧ s.Fits (table fs)) (rest : List Setting) :
    layered ([table fs, layered layers] ++ rest) = layered (table fs :: layers ++ rest) := by
  rw [layered, List.foldl_append, List.foldl_cons, List.foldl_cons, List.foldl_nil,
    cover_empty hlower, (cover_layered hlower h).1, layered, List.foldl_append, List.foldl_cons,
    cover_empty hlower]

/-! ## Layers that say everything -/

/-- **A setting spans a lower one**: it fits on it, and where both have tables it has
all names that the lower one has. -/
inductive Spans : Setting → Setting → Prop
  | onPlain {upper lower : Setting} (h : ∀ fs, lower ≠ table fs) : Spans upper lower
  | onTable {es fs : List (String × Setting)}
      (all : ∀ name, Json.member? name es = none → Json.member? name fs = none)
      (each : ∀ name s below, Json.member? name es = some s → Json.member? name fs = some below →
        Spans s below) : Spans (table es) (table fs)

theorem Spans.fits (h : Spans upper lower) : Fits upper lower := by
  induction h with
  | onPlain h => exact .onPlain h
  | onTable _ _ ih => exact .onTable ih

/-- **A setting that spans a lower one leaves nothing of it.** -/
theorem cover_of_spans (h : Spans upper lower) (hupper : upper.Ordered) (hlower : lower.Ordered) :
    cover upper lower = upper := by
  induction h with
  | onPlain h => exact cover_plain h _
  | @onTable es fs all each ih =>
    have hin := (ordered_table_iff.mp hupper).1
    rw [cover]
    refine congrArg table ((inOrder_coverEntries hupper hlower).ext hin fun name => ?_)
    rw [member?_coverEntries name _ hin.nodup]
    cases hs : Json.member? name es with
    | none => exact all name hs
    | some s =>
      cases hbelow : Json.member? name fs with
      | none => rfl
      | some below =>
        exact congrArg some
          (ih name s below hs hbelow (ordered_member hupper hs) (ordered_member hlower hbelow))

/-! ## Settings from JSON values -/

theorem member?_ofMembers (name : String) (members : List (String × Json)) :
    Json.member? name (ofMembers members) = (Json.member? name members).map ofJson := by
  induction members with
  | nil => rw [ofMembers]; rfl
  | cons m rest ih =>
    obtain ⟨n, v⟩ := m
    rw [ofMembers]
    rw [Json.member?_cons]
    split
    · next h =>
      subst h
      rw [Json.member?_insertMember_self, Option.map_some]
    · next h => rw [Json.member?_insertMember_of_ne (Ne.symm h), ih]

/-- An object spans one with the same names if its values do. -/
theorem spans_obj {members members' : List (String × Json)}
    (h : List.Forall₂ (fun m n => m.1 = n.1 ∧ (ofJson m.2).Spans (ofJson n.2)) members members') :
    (ofJson (.obj members)).Spans (ofJson (.obj members')) := by
  rw [ofJson, ofJson]
  refine .onTable (fun name hs => ?_) fun name s below hs hbelow => ?_
  · rw [member?_ofMembers, Option.map_eq_none_iff] at hs ⊢
    induction h with
    | nil => exact hs
    | @cons m n members members' hmn _ ih =>
      rw [Json.member?_cons] at hs ⊢
      split at hs
      · cases hs
      · next hm => rw [if_neg (hmn.1 ▸ hm), ih hs]
  · rw [member?_ofMembers] at hs hbelow
    obtain ⟨v, hv, rfl⟩ := Option.map_eq_some_iff.mp hs
    obtain ⟨w, hw, rfl⟩ := Option.map_eq_some_iff.mp hbelow
    clear hs hbelow
    induction h with
    | nil => cases hv
    | @cons m n members members' hmn _ ih =>
      obtain ⟨hname, hspans⟩ := hmn
      rw [Json.member?_cons] at hv hw
      by_cases hm : m.1 = name
      · rw [if_pos hm] at hv
        rw [if_pos (hname ▸ hm)] at hw
        exact Option.some.inj hv ▸ Option.some.inj hw ▸ hspans
      · rw [if_neg hm] at hv
        rw [if_neg (hname ▸ hm)] at hw
        exact ih hv hw

end Setting

end Switchboard
