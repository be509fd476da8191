import Switchboard.Proofs.Json.Members
import Switchboard.Setting.Reading

/-!
# Reading what was said

A setting is made of typed data by way of its JSON form, and read back as this data.
There is a lemma for each way of reading: a truth value and a path are read back as
they are, a list and a table if their items are, and a record by filling it from
the members of an object one by one.

The names of a table must be in order. A table is made by putting its entries where
their names belong, and of two entries with one name only one would be left.
-/

namespace Switchboard.Setting

open Json (InOrder)

variable {α : Type} {read : Setting → Read α} {toJson : α → Json}

/-- An object in order is a table as it is. -/
theorem ofMembers_eq_map {members : List (String × Json)} (h : InOrder members) :
    ofMembers members = members.map fun m => (m.1, ofJson m.2) := by
  induction members with
  | nil => rfl
  | cons m rest ih =>
    obtain ⟨hm, hrest⟩ := List.pairwise_cons.mp h
    rw [ofMembers, ih hrest, List.map_cons]
    exact Json.insertMember_of_forall_lt (List.forall_mem_map.mpr hm)

@[simp] theorem bool_ofJson (b : Bool) : reading.bool (ofJson (.bool b)) = .ok b := rfl

@[simp] theorem path_ofJson (p : String) : reading.path (ofJson (.str p)) = .ok p := rfl

@[simp] theorem optional_ofJson (p : Option String) :
    reading.optional reading.path (ofJson (Json.ofText? p)) = .ok p := by
  cases p <;> rfl

/-- A list is read back if its items are. -/
theorem list_ofJson (h : ∀ a, read (ofJson (toJson a)) = .ok a) (as : List α) :
    reading.list read (ofJson (.arr (as.map toJson))) = .ok as := by
  have hitems : ∀ i, readItems read i (ofItems (as.map toJson)) = .ok as := by
    induction as with
    | nil => exact fun i => rfl
    | cons a as ih =>
      intro i
      rw [List.map_cons, ofItems, readItems, h, ih]
      rfl
  exact hitems 0

/-- A table is read back if its names are in order and its values are read back. -/
theorem table_ofJson (h : ∀ a, read (ofJson (toJson a)) = .ok a) {as : List (String × α)}
    (has : InOrder as) :
    reading.table read (ofJson (.obj (as.map fun m => (m.1, toJson m.2)))) = .ok as := by
  have hentries : readEntries read (as.map fun m => (m.1, ofJson (toJson m.2))) = .ok as := by
    clear has
    induction as with
    | nil => rfl
    | cons a as ih =>
      rw [List.map_cons, readEntries, h, ih]
      rfl
  have hin : InOrder (as.map fun m => (m.1, toJson m.2)) := List.pairwise_map.mpr has
  show readEntries read (ofMembers _) = .ok as
  rw [ofMembers_eq_map hin, List.map_map]
  exact hentries

/-- A record is filled from the members of an object, in the order of their names. -/
theorem record_ofJson {members : List (String × Json)} (h : InOrder members) (title : String)
    (fields : List String) (start : α) (set : String → Setting → α → Read α) :
    reading.record title fields start set (ofJson (.obj members)) =
      fillByName set fields (members.map fun m => (m.1, ofJson m.2)) start := by
  show fillByName set fields (ofMembers members) start = _
  rw [ofMembers_eq_map h]

@[simp] theorem readAt_ok (name : String) (a : α) : readAt name (.ok a) = .ok a := rfl

@[simp] theorem fillByName_nil (set : String → Setting → α → Read α) (fields : List String)
    (a : α) : fillByName set fields [] a = .ok a := rfl

/-- A field is set from the first entry, and the record is filled from what follows. -/
theorem fillByName_cons {set : String → Setting → α → Read α} {fields : List String}
    {name : String} (hname : name ∈ fields) (s : Setting) (es : List (String × Setting)) (a : α) :
    fillByName set fields ((name, s) :: es) a =
      (readAt name (set name s a)).bind (fillByName set fields es) := by
  rw [fillByName, if_pos (List.contains_iff_mem.mpr hname)]
  rfl

end Switchboard.Setting
