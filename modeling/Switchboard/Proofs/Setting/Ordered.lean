import Mathlib.Data.List.Forall2
import Switchboard.Proofs.Setting.Layers
import Switchboard.Setting.Variables

/-!
# Settings in order

What is made of JSON values, and what is read from variables of the
environment, has the names of its tables in order (`Setting.Ordered`).
-/

namespace Switchboard

/-- What a list comes to of which every item comes to something. -/
theorem mapM_eq_some_iff {α β : Type} {f : α → Option β} {as : List α} {bs : List β} :
    as.mapM f = some bs ↔ List.Forall₂ (fun a b => f a = some b) as bs := by
  induction as generalizing bs with
  | nil =>
    rw [List.mapM_nil, List.forall₂_nil_left_iff, Option.pure_def, Option.some.injEq, eq_comm]
  | cons a as ih =>
    rw [List.mapM_cons, List.forall₂_cons_left_iff]
    simp only [Option.bind_eq_bind, Option.bind_eq_some_iff, Option.pure_def, Option.some.injEq, ih]
    constructor
    · rintro ⟨b, hb, bs, hbs, rfl⟩
      exact ⟨b, bs, hb, hbs, rfl⟩
    · rintro ⟨b, bs, hb, hbs, rfl⟩
      exact ⟨b, hb, bs, hbs, rfl⟩

/-- A list comes to nothing if some item does. -/
theorem mapM_eq_none_iff {α β : Type} {f : α → Option β} {as : List α} :
    as.mapM f = none ↔ ∃ a ∈ as, f a = none := by
  induction as with
  | nil => simp
  | cons a as ih =>
    rw [List.mapM_cons]
    cases ha : f a with
    | none => exact iff_of_true rfl ⟨a, List.mem_cons_self, ha⟩
    | some b =>
      have hrest : (∃ a' ∈ a :: as, f a' = none) ↔ ∃ a' ∈ as, f a' = none := by simp [ha]
      rw [hrest, ← ih]
      cases as.mapM f <;> simp

theorem forall_of_mapM {α β : Type} {f : α → Option β} {P : β → Prop} {as : List α} {bs : List β}
    (h : as.mapM f = some bs) (hP : ∀ a b, f a = some b → P b) : ∀ b ∈ bs, P b := by
  have hflip := (mapM_eq_some_iff.mp h).flip
  exact ((List.forall₂_and_left _ _).mp (hflip.imp fun b a hab => ⟨hP a b hab, hab⟩)).1

/-! ## Readers -/

/-- **What is read from a text, if anything, is of a sort.** -/
def AllRead {α : Type} (P : α → Prop) (r : Option (α × List Char)) : Prop :=
  ∀ a rest, r = some (a, rest) → P a

section AllRead

variable {α β : Type} {P : α → Prop} {Q : β → Prop} {r : Option (α × List Char)}

theorem allRead_none : AllRead P none := fun _ _ h => nomatch h

theorem allRead_some {a : α} {rest : List Char} (h : P a) : AllRead P (some (a, rest)) := by
  rintro b rest' ⟨⟩
  exact h

theorem allRead_true (r : Option (α × List Char)) : AllRead (fun _ => True) r :=
  fun _ _ _ => trivial

theorem allRead_bind {o : Option β} {f : β → Option (α × List Char)}
    (h : ∀ b, o = some b → AllRead P (f b)) : AllRead P (o.bind f) := by
  intro a rest ha
  obtain ⟨b, hb, hf⟩ := Option.bind_eq_some_iff.mp ha
  exact h b hb a rest hf

theorem allRead_map {o : Option β} {f : β → α × List Char} (h : ∀ b, o = some b → P (f b).1) :
    AllRead P (o.map f) := by
  intro a rest ha
  obtain ⟨b, hb, heq⟩ := Option.map_eq_some_iff.mp ha
  have hP := h b hb
  rwa [heq] at hP

theorem AllRead.map {f : β × List Char → α × List Char} {r : Option (β × List Char)}
    (h : AllRead Q r) (hP : ∀ p, Q p.1 → P (f p).1) : AllRead P (r.map f) :=
  allRead_map fun p hp => hP p (h p.1 p.2 hp)

end AllRead

namespace Setting

/-! ## JSON values -/

mutual

/-- **What is made of a JSON value** is in order. -/
theorem ordered_ofJson : (v : Json) → (ofJson v).Ordered
  | .obj members => by rw [ofJson]; exact ordered_ofMembers members
  | .null | .bool _ | .int _ | .float _ | .str _ | .arr _ =>
    .plain fun _ => by rw [ofJson]; rintro ⟨⟩

theorem ordered_ofMembers : (members : List (String × Json)) →
    (table (ofMembers members)).Ordered
  | [] => by rw [ofMembers]; exact ordered_empty
  | (name, v) :: rest => by
    rw [ofMembers]
    exact ordered_insertMember (ordered_ofMembers rest) name (ordered_ofJson v)

end

/-! ## Variables -/

/-- A setting under a chain of names is in order as it is. -/
theorem ordered_nested {s : Setting} (h : s.Ordered) (chain : List String) :
    (nested chain s).Ordered := by
  induction chain with
  | nil => exact h
  | cons name rest ih =>
    rw [nested]
    exact .table (List.pairwise_singleton _ _) (List.forall_mem_singleton.mpr ih)

/-- A word stands for no table. -/
theorem ordered_ofWord (cs : List Char) : (ofWord cs).Ordered := by
  refine .plain fun es => ?_
  dsimp only [ofWord]
  split
  · rintro ⟨⟩
  · split
    · split
      · rintro ⟨⟩
      · split <;> rintro ⟨⟩
    · rintro ⟨⟩

/-- **What is read from a text** is in order, and so is every entry of a table
that is read. -/
theorem ordered_readValue (fuel : Nat) :
    (∀ cs, AllRead Ordered (readValue fuel cs)) ∧
      ∀ cs, AllRead (fun es => ∀ e ∈ es, e.2.Ordered) (readEntriesOf fuel cs) := by
  induction fuel with
  | zero => exact ⟨fun cs => allRead_none, fun cs => allRead_none⟩
  | succ fuel ih =>
    obtain ⟨ihValue, ihEntries⟩ := ih
    constructor
    · intro cs
      unfold readValue
      refine AllRead.map (P := Ordered) ?_ fun _ h => h
      -- what is in braces is a table, and nothing else is
      split
      · exact allRead_some (.plain nofun)
      · exact allRead_some (.plain nofun)
      · split
        · exact (allRead_true _).map fun p _ => .plain nofun
        · exact (ihEntries _).map fun p hp => .table (Json.ordered_inOrder p.1).1
            fun e he => hp e ((Json.ordered_inOrder p.1).2 e he)
        · exact (allRead_true _).map fun p _ => .plain nofun
        · exact allRead_some (.plain nofun)
        · exact allRead_none
        · exact allRead_some (ordered_ofWord _)
    · intro cs
      unfold readEntriesOf
      split
      · exact allRead_some (List.forall_mem_nil _)
      · dsimp only
        split
        · split
          · exact allRead_none
          · next hvalue =>
            exact (ihEntries _).map fun p hp =>
              List.forall_mem_cons.mpr ⟨ihValue _ _ _ hvalue, hp⟩
          · next hvalue => exact allRead_some (List.forall_mem_singleton.mpr (ihValue _ _ _ hvalue))
          · exact allRead_none
        · exact allRead_none

theorem ordered_ofText (s : String) : (ofText s).Ordered := by
  unfold ofText
  split
  · next h => exact (ordered_readValue _).1 _ _ _ h
  · exact .plain nofun

theorem ordered_ofVariable {name : List Char} {value : String} {s : Setting}
    (h : ofVariable? name value = some s) : s.Ordered := by
  have hnested := ordered_nested (ordered_ofText value) (chainOf name)
  unfold ofVariable? at h
  split at h
  · next hsame =>
    obtain rfl := Option.some.inj h
    rwa [hsame] at hnested
  · cases h

/-- **What variables say** is in order. -/
theorem ordered_ofVariables {r : VariableRule} {environment : List (String × String)} {s : Setting}
    (h : ofVariables? r environment = some s) : s.Ordered := by
  unfold ofVariables? at h
  obtain ⟨layers, hlayers, rfl⟩ := Option.map_eq_some_iff.mp h
  exact ordered_layered (forall_of_mapM hlayers fun _ _ => ordered_ofVariable)

end Setting

end Switchboard
