import Mathlib.Data.List.Sort
import Switchboard.Json.Value

/-!
# Members in the order of their names

The members of an object have distinct names, and their order says nothing. So
they are kept in the increasing order of the names (`Json.InOrder`), and what the
names have says what the members are (`Json.InOrder.ext`).
-/

namespace Switchboard

namespace Json

variable {α : Type}

/-- The names of members are in strictly increasing order. -/
def InOrder (members : List (String × α)) : Prop := members.Pairwise fun m n => m.1 < n.1

/-- Members are in order if their names are. -/
theorem inOrder_of_names {members : List (String × α)} {names : List String}
    (hnames : names.Pairwise (· < ·)) (h : members.map (·.1) = names) : InOrder members := by
  subst h
  exact List.pairwise_map.mp hnames

/-! ## Looking up -/

theorem member?_cons (name : String) (m : String × α) (members : List (String × α)) :
    member? name (m :: members) = if m.1 = name then some m.2 else member? name members := by
  by_cases h : m.1 = name <;> simp [member?, h]

theorem mem_of_member? {name : String} {v : α} {members : List (String × α)}
    (h : member? name members = some v) : (name, v) ∈ members := by
  obtain ⟨m, hm, rfl⟩ := Option.map_eq_some_iff.mp h
  have hname : m.1 = name := by simpa using List.find?_some hm
  exact hname ▸ List.mem_of_find?_eq_some hm

theorem InOrder.nodup {members : List (String × α)} (h : InOrder members) :
    (members.map (·.1)).Nodup := by
  rw [List.Nodup, List.pairwise_map]
  refine h.imp fun {m n} hlt heq => ?_
  rw [heq] at hlt
  exact String.lt_irrefl n.1 hlt

/-- No later member has the name of the first one. -/
theorem InOrder.ne_of_mem {m n : String × α} {members : List (String × α)}
    (h : InOrder (m :: members)) (hn : n ∈ members) : m.1 ≠ n.1 :=
  (List.pairwise_cons.mp (List.pairwise_map.mp h.nodup)).1 n hn

theorem InOrder.mem_iff {members : List (String × α)} (h : InOrder members) {m : String × α} :
    m ∈ members ↔ member? m.1 members = some m.2 := by
  refine ⟨fun hm => ?_, mem_of_member?⟩
  induction members with
  | nil => cases hm
  | cons n rest ih =>
    rw [member?_cons]
    rcases List.mem_cons.mp hm with rfl | hm
    · exact if_pos rfl
    · rw [if_neg (h.ne_of_mem hm)]
      exact ih (List.pairwise_cons.mp h).2 hm

/-- Members in order are what their names have. -/
theorem InOrder.ext {members members' : List (String × α)} (h : InOrder members)
    (h' : InOrder members') (heq : ∀ name, member? name members = member? name members') :
    members = members' := by
  have hnodup : ∀ {ms : List (String × α)}, InOrder ms → ms.Nodup := fun h => h.nodup.of_map
  have hperm : members.Perm members' := by
    rw [List.perm_ext_iff_of_nodup (hnodup h) (hnodup h')]
    intro m
    rw [h.mem_iff, h'.mem_iff, heq]
  exact hperm.eq_of_pairwise (fun m n _ _ hmn hnm => absurd hnm (String.lt_asymm hmn)) h h'

/-! ## Putting in order -/

theorem eq_or_mem_of_mem_insertMember {name : String} {v : α} {m : String × α}
    {members : List (String × α)} (h : m ∈ insertMember name v members) :
    m = (name, v) ∨ m ∈ members := by
  induction members with
  | nil => exact .inl (List.mem_singleton.mp h)
  | cons n rest ih =>
    rw [insertMember] at h
    split at h
    · exact List.mem_cons.mp h
    · split at h
      · exact (List.mem_cons.mp h).imp_right (List.mem_cons_of_mem _)
      · rcases List.mem_cons.mp h with rfl | h
        · exact .inr List.mem_cons_self
        · exact (ih h).imp_right (List.mem_cons_of_mem _)

theorem forall_insertMember {P : α → Prop} {v : α} {members : List (String × α)}
    (h : ∀ m ∈ members, P m.2) (name : String) (hv : P v) :
    ∀ m ∈ insertMember name v members, P m.2 := by
  intro m hm
  rcases eq_or_mem_of_mem_insertMember hm with rfl | hm
  · exact hv
  · exact h m hm

/-- A member is put where its name belongs. -/
theorem InOrder.insertMember {members : List (String × α)} (h : InOrder members) (name : String)
    (v : α) : InOrder (insertMember name v members) := by
  induction members with
  | nil => exact List.pairwise_singleton _ _
  | cons m rest ih =>
    obtain ⟨hm, hrest⟩ := List.pairwise_cons.mp h
    rw [Json.insertMember]
    split
    · next hlt =>
      refine List.pairwise_cons.mpr ⟨fun n hn => ?_, h⟩
      rcases List.mem_cons.mp hn with rfl | hn
      · exact hlt
      · exact String.lt_trans hlt (hm n hn)
    · next hnot =>
      split
      · next heq => exact List.pairwise_cons.mpr ⟨fun n hn => heq ▸ hm n hn, hrest⟩
      · next hne =>
        refine List.pairwise_cons.mpr ⟨fun n hn => ?_, ih hrest⟩
        rcases eq_or_mem_of_mem_insertMember hn with rfl | hn
        · exact Std.lt_of_le_of_ne (String.not_lt.mp hnot) (Ne.symm hne)
        · exact hm n hn

/-- Members are put in order, and none is made up. -/
theorem ordered_inOrder (members : List (String × α)) :
    InOrder (ordered members) ∧ ∀ m ∈ ordered members, m ∈ members := by
  have key : ∀ (members acc : List (String × α)), InOrder acc →
      InOrder (members.foldl (fun acc m => insertMember m.1 m.2 acc) acc) ∧
        ∀ m ∈ members.foldl (fun acc m => insertMember m.1 m.2 acc) acc, m ∈ acc ∨ m ∈ members := by
    intro members
    induction members with
    | nil => exact fun acc hacc => ⟨hacc, fun m hm => .inl hm⟩
    | cons m members ih =>
      intro acc hacc
      obtain ⟨hin, hmem⟩ := ih _ (hacc.insertMember m.1 m.2)
      refine ⟨hin, fun n hn => ?_⟩
      rcases hmem n hn with hn | hn
      · rcases eq_or_mem_of_mem_insertMember hn with rfl | hn
        · exact .inr List.mem_cons_self
        · exact .inl hn
      · exact .inr (List.mem_cons_of_mem _ hn)
  obtain ⟨hin, hmem⟩ := key members [] .nil
  exact ⟨hin, fun m hm => (hmem m hm).resolve_left List.not_mem_nil⟩

/-- A member comes first whose name is less than all others. -/
theorem insertMember_of_forall_lt {name : String} {v : α} {members : List (String × α)}
    (h : ∀ m ∈ members, name < m.1) : insertMember name v members = (name, v) :: members := by
  cases members with
  | nil => rfl
  | cons m rest => rw [insertMember, if_pos (h m List.mem_cons_self)]

/-- A member comes last whose name is greater than all others. -/
theorem insertMember_of_lt {name : String} {v : α} {members : List (String × α)}
    (h : ∀ m ∈ members, m.1 < name) : insertMember name v members = members ++ [(name, v)] := by
  induction members with
  | nil => rfl
  | cons m rest ih =>
    obtain ⟨hm, hrest⟩ := List.forall_mem_cons.mp h
    have hne : ¬name = m.1 := fun heq => String.lt_irrefl m.1 (heq ▸ hm)
    rw [insertMember, if_neg (String.lt_asymm hm), if_neg hne, ih hrest, List.cons_append]

/-- Members in order stay as they are. -/
theorem InOrder.ordered_eq {members : List (String × α)} (h : InOrder members) :
    ordered members = members := by
  have key : ∀ (members acc : List (String × α)), InOrder (acc ++ members) →
      members.foldl (fun acc m => Json.insertMember m.1 m.2 acc) acc = acc ++ members := by
    intro members
    induction members with
    | nil => exact fun acc _ => (List.append_nil acc).symm
    | cons m members ih =>
      intro acc hacc
      have hlt : ∀ n ∈ acc, n.1 < m.1 := fun n hn =>
        (List.pairwise_append.mp hacc).2.2 n hn m List.mem_cons_self
      rw [List.foldl_cons, insertMember_of_lt hlt]
      have hassoc : acc ++ m :: members = acc ++ [m] ++ members := by simp
      rw [hassoc] at hacc ⊢
      exact ih _ hacc
  exact key members [] h

end Json

end Switchboard
