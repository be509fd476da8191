import Mathlib
import Switchboard.Message
import Switchboard.Proofs.Json.Integers

/-!
# The grammar of messages

Which texts are messages is said here without the decoder: an element of the
array **reads as** a segment (`Segment.ReadsAs`) if one member named `type`
names its kind and one member gives its field, whatever else the object holds
and in whatever order; or if it is the array of these two. The decoder accepts
exactly the arrays whose elements all read as segments (`ofJsonText_grammar`).

The decoder takes the members in one pass, before it knows the kind, and then
looks for the field among those it has put aside. Both passes come down to
counting members of one name: `splitMembers_none` for the kind and
`readField_none` for the field. A document is **readable** where it can be read
as a plain value; the decoder wants that of every part, also of those it does
not use, so the texts it accepts are JSON as a whole.
-/

namespace Switchboard

open Json

/-! ## Readable documents -/

namespace Json.Document

/-- A document is a plain value, with so much room for nesting. -/
def Readable (room : Nat) (d : Document) : Prop := ∃ v, d.whole room = .ok v

/-- The values of the members of some name. -/
def valuesOf (name : String) (ms : List (Except Fault String × Document)) : List Document :=
  (ms.filter fun m => m.1.toOption == some name).map Prod.snd

variable {room : Nat}

/-- Items are read if each of them is. -/
theorem wholeItems_ok_iff (ds : List Document) :
    (∃ vs, wholeItems room ds = .ok vs) ↔ ∀ d ∈ ds, d.Readable room := by
  induction ds with
  | nil => simp [wholeItems]
  | cons d ds ih =>
    rw [List.forall_mem_cons, ← ih]
    simp only [wholeItems, Readable]
    cases d.whole room with
    | error f => simp
    | ok v => cases wholeItems room ds <;> simp

/-- Members are read if the name and the value of each of them are. -/
theorem wholeMembers_ok_iff (ms : List (Except Fault String × Document)) :
    (∃ vs, wholeMembers room ms = .ok vs) ↔
      ∀ m ∈ ms, (∃ n, m.1 = .ok n) ∧ m.2.Readable room := by
  induction ms with
  | nil => simp [wholeMembers]
  | cons m ms ih =>
    obtain ⟨name, d⟩ := m
    rw [List.forall_mem_cons, ← ih]
    simp only [Readable]
    cases name with
    | error f => simp [wholeMembers]
    | ok n =>
      simp only [wholeMembers]
      cases d.whole room with
      | error f => simp
      | ok v => cases wholeMembers room ms <;> simp

theorem readable_arr {items : List Document} {fault : Option Fault} :
    (Document.arr items fault).Readable (room + 1) ↔
      fault = none ∧ ∀ d ∈ items, d.Readable room := by
  rw [← wholeItems_ok_iff]
  simp only [Readable, whole, Nat.add_one_ne_zero, if_false, Nat.add_sub_cancel]
  cases wholeItems room items <;> cases fault <;> simp

theorem readable_obj {ms : List (Except Fault String × Document)} {stray : Option Document} :
    (Document.obj ms stray).Readable (room + 1) ↔
      stray = none ∧ ∀ m ∈ ms, (∃ n, m.1 = .ok n) ∧ m.2.Readable room := by
  rw [← wholeMembers_ok_iff]
  simp only [Readable, whole, Nat.add_one_ne_zero, if_false, Nat.add_sub_cancel]
  cases wholeMembers room ms <;> cases stray <;> simp

/-- Without room no container is read. -/
theorem not_readable_arr {items : List Document} {fault : Option Fault} :
    ¬(Document.arr items fault).Readable 0 := by simp [Readable, whole]

theorem not_readable_obj {ms : List (Except Fault String × Document)} {stray : Option Document} :
    ¬(Document.obj ms stray).Readable 0 := by simp [Readable, whole]

theorem valuesOf_cons {n name : String} {d : Document}
    {ms : List (Except Fault String × Document)} :
    valuesOf name ((.ok n, d) :: ms) = if n = name then d :: valuesOf name ms
      else valuesOf name ms := by
  by_cases h : n = name <;> simp [valuesOf, Except.toOption, h]

/-- The order of members is left in the order of the values at most. -/
theorem valuesOf_perm {name : String} {ms ms' : List (Except Fault String × Document)}
    (h : ms.Perm ms') : (valuesOf name ms).Perm (valuesOf name ms') :=
  (h.filter _).map _

/-- One value is the only one in whatever order the members stand. -/
theorem valuesOf_eq_singleton_of_perm {name : String} {d : Document}
    {ms ms' : List (Except Fault String × Document)} (h : ms.Perm ms')
    (hd : valuesOf name ms = [d]) : valuesOf name ms' = [d] :=
  List.perm_singleton.mp ((valuesOf_perm h).symm.trans (.of_eq hd))

end Json.Document

open Json.Document

/-! ## What is read as an identifier and as a segment -/

/-- **A value that gives an identifier**: its text, or an integer of 64 bits,
signed or unsigned, whose decimal text it is. -/
inductive Id.IsGivenBy (id : Id) : Document → Prop
  | text : IsGivenBy id (.str id.text)
  | number {n : Int} (hfits : Number.fitsInt64 n = true ∨ Number.fitsUInt64 n = true)
      (htext : id.text = Number.intText n) : IsGivenBy id (.int n)

namespace Segment

/-- The name of the member that gives the field of a segment. -/
def fieldName : Segment → Option String
  | text _ => some "text"
  | mention _ => some "target"
  | mentionAll => none
  | face _ => some "id"
  | emoji _ => some "id"
  | image _ => some "id"

/-- **A value that gives the field of a segment.** -/
inductive HasField : Segment → Document → Prop
  | text (s : String) : HasField (.text s) (.str s)
  | mention {id : Id} {d : Document} (h : id.IsGivenBy d) : HasField (.mention id) d
  | face {id : Id} {d : Document} (h : id.IsGivenBy d) : HasField (.face id) d
  | emoji {id : Id} {d : Document} (h : id.IsGivenBy d) : HasField (.emoji id) d
  | image {id : Id} {d : Document} (h : id.IsGivenBy d) : HasField (.image id) d

/-- **The grammar of an element.** In an object one member named `type` names
the kind, and one member of the kind's own name gives the field, unless the
segment mentions everyone. An array lists these values. -/
inductive ReadsAs : Document → Segment → Prop
  | members {ms : List (Except Fault String × Document)} {s : Segment}
      (htype : valuesOf "type" ms = [.str s.kind])
      (hfield : ∀ name ∈ s.fieldName, ∃ d, valuesOf name ms = [d] ∧ s.HasField d) :
      ReadsAs (.obj ms none) s
  | items {s : Segment} {d : Document} (hfield : s.HasField d) :
      ReadsAs (.arr [.str s.kind, d] none) s
  | mentionAllItem : ReadsAs (.arr [.str mentionAll.kind] none) .mentionAll

end Segment

/-- An identifier is read from what gives it. -/
theorem Id.read_ok_iff {d : Document} (hd : d.Fits) (room : Nat) (id : Id) :
    Id.read ⟨d, room⟩ = .ok id ↔ id.IsGivenBy d := by
  constructor
  · intro h
    cases hd with
    | str s =>
      simp only [Id.read] at h
      split at h
      next hlit =>
        cases h
        exact text_of_literal hlit ▸ .text
      next => cases h
    | int hfits =>
      cases h
      exact .number hfits rfl
    | bool b => cases b <;> cases h
    | null | float | arr | obj | broken => cases h
  · intro h
    cases h with
    | text => simp only [Id.read, (literal_eq_ok_iff id.text id).mpr rfl]
    | number _ htext =>
      obtain ⟨_, _⟩ := id
      cases htext
      rfl

namespace Segment

/-- **How the field of a kind is read**, for every kind but the mention of
everyone: from the member of one name, by its value. -/
structure Reader (kind name : String) (read : View → Decoded Segment) : Prop where
  not_type : name ≠ "type"
  name_eq : ∀ {s : Segment}, s.kind = kind → s.fieldName = some name
  read_ok_iff : ∀ {d : Document}, d.Fits → ∀ room s,
    read ⟨d, room⟩ = .ok s ↔ s.kind = kind ∧ s.HasField d

/-- The field of a text is read from a text. -/
theorem Reader.text : Reader "text" "text" (fun v => v.text.map Segment.text) where
  not_type := by decide
  name_eq {s} h := by cases s <;> first | rfl | exact absurd h (by simp [kind])
  read_ok_iff {d} _ room s := by
    constructor
    · intro h
      cases d with
      | str t =>
        cases h
        exact ⟨rfl, .text t⟩
      | bool b => cases b <;> cases h
      | null | int | float | arr | obj | broken => cases h
    · rintro ⟨hkind, h⟩
      cases h with
      | text t => rfl
      | mention | face | emoji | image => exact absurd hkind (by simp [kind])

/-- The field of any other kind is read as an identifier. -/
theorem Reader.id {kind name : String} {wrap : Id → Segment} (hname : name ≠ "type")
    (hkind : ∀ {s : Segment}, s.kind = kind ↔ ∃ id, s = wrap id)
    (hfield : ∀ id, (wrap id).fieldName = some name)
    (hgiven : ∀ {id d}, (wrap id).HasField d ↔ id.IsGivenBy d) :
    Reader kind name (fun v => (Id.read v).map wrap) where
  not_type := hname
  name_eq h := by
    obtain ⟨id, rfl⟩ := hkind.mp h
    exact hfield id
  read_ok_iff {d} hd room s := by
    constructor
    · intro h
      cases hread : Id.read ⟨d, room⟩ with
      | error e => rw [hread] at h; cases h
      | ok id =>
        rw [hread] at h
        cases h
        exact ⟨hkind.mpr ⟨id, rfl⟩, hgiven.mpr ((Id.read_ok_iff hd room id).mp hread)⟩
    · rintro ⟨hs, h⟩
      obtain ⟨id, rfl⟩ := hkind.mp hs
      rw [(Id.read_ok_iff hd room id).mpr (hgiven.mp h)]
      rfl

/-- Every kind has a reader of its field, or it is the mention of everyone. -/
theorem fieldReader_of_mem {k : String} (h : k ∈ kinds) :
    (k = mentionAll.kind ∧ fieldReader k = none) ∨
      ∃ name title read, fieldReader k = some (name, title, read) ∧ Reader k name read := by
  simp only [kinds, List.mem_cons, List.not_mem_nil, or_false] at h
  rcases h with rfl | rfl | rfl | rfl | rfl | rfl
  · exact .inr ⟨_, _, _, rfl, .text⟩
  · refine .inr ⟨_, _, _, rfl, .id (by decide) ?_ (fun _ => rfl) ?_⟩
    · intro s; cases s <;> simp [kind]
    · exact ⟨fun h => by cases h; assumption, .mention⟩
  · exact .inl ⟨rfl, rfl⟩
  · refine .inr ⟨_, _, _, rfl, .id (by decide) ?_ (fun _ => rfl) ?_⟩
    · intro s; cases s <;> simp [kind]
    · exact ⟨fun h => by cases h; assumption, .face⟩
  · refine .inr ⟨_, _, _, rfl, .id (by decide) ?_ (fun _ => rfl) ?_⟩
    · intro s; cases s <;> simp [kind]
    · exact ⟨fun h => by cases h; assumption, .emoji⟩
  · refine .inr ⟨_, _, _, rfl, .id (by decide) ?_ (fun _ => rfl) ?_⟩
    · intro s; cases s <;> simp [kind]
    · exact ⟨fun h => by cases h; assumption, .image⟩

/-- A segment is of one of the kinds. -/
theorem kind_mem_kinds (s : Segment) : s.kind ∈ kinds := by
  cases s <;> simp [kind, kinds]

/-- Only the mention of everyone is of its kind. -/
theorem eq_mentionAll_of_kind {s : Segment} (h : s.kind = mentionAll.kind) : s = .mentionAll := by
  cases s <;> first | rfl | exact absurd h (by simp [kind])

/-! ## The two passes over the members -/

/-- The members with other names than that of the kind. -/
def untyped : List (Except Fault String × Document) → List (String × Document)
  | [] => []
  | (.error _, _) :: ms => untyped ms
  | (.ok n, d) :: ms => if n = "type" then untyped ms else (n, d) :: untyped ms

/-- The kind is the name of one of the options. -/
theorem optionName_ok_iff (d : Document) (room : Nat) (k : String) :
    View.optionName kinds ⟨d, room⟩ = .ok k ↔ d = .str k ∧ k ∈ kinds := by
  constructor
  · intro h
    cases d with
    | str s =>
      simp only [View.optionName] at h
      split at h
      next hmem =>
        cases h
        exact ⟨rfl, List.contains_iff_mem.mp hmem⟩
      next => cases h
    | bool b => cases b <;> cases h
    | null | int | float | arr | obj | broken => cases h
  · rintro ⟨rfl, hmem⟩
    simp [View.optionName, hmem]

variable {room : Nat}

/-- A member of another name is put aside if its value is readable. -/
theorem splitMembers_cons_of_ne {kind : Option String} {n : String} (hn : n ≠ "type")
    (d : Document) (ms : List (Except Fault String × Document))
    (found : Option String) (others : List (String × Document)) :
    splitMembers room kind ((.ok n, d) :: ms) = .ok (found, others) ↔
      d.Readable room ∧ ∃ rest, others = (n, d) :: rest ∧
        splitMembers room kind ms = .ok (found, rest) := by
  simp only [splitMembers, View.nameOf, bind, Except.bind, hn, if_false, Readable]
  cases d.whole room with
  | error f => simp
  | ok v =>
    cases splitMembers room kind ms with
    | error e => simp
    | ok r =>
      constructor
      · intro h
        cases h
        exact ⟨⟨v, rfl⟩, r.2, rfl, rfl⟩
      · rintro ⟨-, _, rfl, h⟩
        cases h
        rfl

/-- Where a name cannot be read, nothing is. -/
theorem splitMembers_cons_error (kind : Option String) (f : Fault) (d : Document)
    (ms : List (Except Fault String × Document)) :
    splitMembers room kind ((.error f, d) :: ms) = .error (.grammar f) := rfl

/-- **Behind the member with the kind** there must be no other. -/
theorem splitMembers_some (k : String) (ms : List (Except Fault String × Document))
    (found : Option String) (others : List (String × Document)) :
    splitMembers room (some k) ms = .ok (found, others) ↔
      (∀ m ∈ ms, (∃ n, m.1 = .ok n) ∧ m.2.Readable room) ∧
        valuesOf "type" ms = [] ∧ found = some k ∧ others = untyped ms := by
  induction ms generalizing others with
  | nil => simp [splitMembers, valuesOf, untyped, eq_comm]
  | cons m ms ih =>
    obtain ⟨_ | n, d⟩ := m
    · simp [splitMembers_cons_error]
    by_cases hn : n = "type"
    · subst hn
      simp [splitMembers, View.nameOf, bind, Except.bind, valuesOf_cons]
    · rw [splitMembers_cons_of_ne hn, List.forall_mem_cons]
      simp only [ih, valuesOf_cons, untyped, hn, if_false, Except.ok.injEq, exists_eq', true_and]
      constructor
      · rintro ⟨hd, rest, rfl, hms, htype, hfound, rfl⟩
        exact ⟨⟨hd, hms⟩, htype, hfound, rfl⟩
      · rintro ⟨⟨hd, hms⟩, htype, hfound, hothers⟩
        exact ⟨hd, _, hothers, hms, htype, hfound, rfl⟩

/-- **The first pass** wants all members readable and the kind given at most
once, by a name of a kind. -/
theorem splitMembers_none (ms : List (Except Fault String × Document))
    (found : Option String) (others : List (String × Document)) :
    splitMembers room none ms = .ok (found, others) ↔
      (∀ m ∈ ms, (∃ n, m.1 = .ok n) ∧ m.2.Readable room) ∧ others = untyped ms ∧
        (found = none ∧ valuesOf "type" ms = [] ∨
          ∃ k ∈ kinds, found = some k ∧ valuesOf "type" ms = [.str k]) := by
  induction ms generalizing others with
  | nil => simp [splitMembers, valuesOf, untyped, eq_comm, and_comm]
  | cons m ms ih =>
    obtain ⟨_ | n, d⟩ := m
    · simp [splitMembers_cons_error]
    by_cases hn : n = "type"
    · subst hn
      have hstep : splitMembers room none ((.ok "type", d) :: ms) = .ok (found, others) ↔
          ∃ k, View.optionName kinds ⟨d, room⟩ = .ok k ∧
            splitMembers room (some k) ms = .ok (found, others) := by
        simp only [splitMembers, View.nameOf, bind, Except.bind, if_true, Option.isSome_none,
          Bool.false_eq_true, if_false]
        cases View.optionName kinds ⟨d, room⟩ <;> simp
      simp only [hstep, optionName_ok_iff, splitMembers_some, valuesOf_cons, untyped, if_true,
        List.forall_mem_cons]
      constructor
      · rintro ⟨k, ⟨rfl, hk⟩, hms, htype, hfound, hothers⟩
        exact ⟨⟨⟨⟨_, rfl⟩, _, rfl⟩, hms⟩, hothers, .inr ⟨k, hk, hfound, by rw [htype]⟩⟩
      · rintro ⟨⟨-, hms⟩, hothers, ⟨-, hnone⟩ | ⟨k, hk, hfound, hkind⟩⟩
        · cases hnone
        · obtain ⟨rfl, htype⟩ := List.cons.inj hkind
          exact ⟨k, ⟨rfl, hk⟩, hms, htype, hfound, hothers⟩
    · rw [splitMembers_cons_of_ne hn, List.forall_mem_cons]
      simp only [ih, valuesOf_cons, untyped, hn, if_false, Except.ok.injEq, exists_eq', true_and]
      constructor
      · rintro ⟨hd, rest, rfl, hms, rfl, hkind⟩
        exact ⟨⟨hd, hms⟩, rfl, hkind⟩
      · rintro ⟨⟨hd, hms⟩, hothers, hkind⟩
        exact ⟨hd, _, hothers, hms, rfl, hkind⟩

/-- Where all names are readable, the values of a name are among what was put
aside. -/
theorem valuesOf_untyped {name : String} (hname : name ≠ "type")
    (ms : List (Except Fault String × Document)) :
    ((untyped ms).filter (·.1 == name)).map Prod.snd = valuesOf name ms := by
  induction ms with
  | nil => rfl
  | cons m ms ih =>
    obtain ⟨_ | n, d⟩ := m
    · exact ih
    · rw [valuesOf_cons, untyped]
      by_cases hn : n = "type"
      · subst hn
        rw [if_pos rfl, if_neg hname.symm, ih]
      · rw [if_neg hn]
        by_cases heq : n = name <;> simp [heq, ih]

/-- Behind the member with the field there must be no other. -/
theorem readField_some (name : String) (reader : View → Decoded Segment) (s s' : Segment)
    (others : List (String × Document)) :
    readField name reader room (some s') others = .ok s ↔
      (others.filter (·.1 == name)).map Prod.snd = [] ∧ s = s' := by
  induction others with
  | nil => simp [readField, eq_comm]
  | cons m others ih =>
    obtain ⟨n, d⟩ := m
    by_cases hn : n = name
    · simp [readField, hn]
    · simpa [readField, hn] using ih

/-- **The second pass** wants one member of the field's name, and reads the
segment from its value. -/
theorem readField_none (name : String) (reader : View → Decoded Segment) (s : Segment)
    (others : List (String × Document)) :
    readField name reader room none others = .ok s ↔
      ∃ d, (others.filter (·.1 == name)).map Prod.snd = [d] ∧ reader ⟨d, room⟩ = .ok s := by
  induction others with
  | nil => simp [readField]
  | cons m others ih =>
    obtain ⟨n, d⟩ := m
    by_cases hn : n = name
    · subst hn
      cases hread : reader ⟨d, room⟩ with
      | error e => simp [readField, hread]
      | ok s' =>
        rw [List.filter_cons_of_pos (by simp), List.map_cons]
        simp only [readField, if_true, Option.isSome_none, Bool.false_eq_true, if_false, hread,
          readField_some]
        constructor
        · rintro ⟨hnone, rfl⟩
          exact ⟨d, by rw [hnone], hread⟩
        · rintro ⟨d', hvalues, hread'⟩
          obtain ⟨rfl, hnone⟩ := List.cons.inj hvalues
          rw [hread] at hread'
          cases hread'
          exact ⟨hnone, rfl⟩
    · simpa [readField, hn] using ih

/-! ## An element -/

theorem readsAs_obj_iff {ms : List (Except Fault String × Document)} {stray : Option Document}
    {s : Segment} :
    ReadsAs (.obj ms stray) s ↔ stray = none ∧ valuesOf "type" ms = [.str s.kind] ∧
      ∀ name ∈ s.fieldName, ∃ d, valuesOf name ms = [d] ∧ s.HasField d := by
  constructor
  · intro h
    cases h with | members htype hfield => exact ⟨rfl, htype, hfield⟩
  · rintro ⟨rfl, htype, hfield⟩
    exact .members htype hfield

/-- **An object is read by the grammar.** -/
theorem read_obj_ok_iff {ms : List (Except Fault String × Document)} {stray : Option Document}
    (hfits : ∀ m ∈ ms, m.2.Fits) (s : Segment) :
    read ⟨.obj ms stray, room + 1⟩ = .ok s ↔
      (Document.obj ms stray).Readable (room + 1) ∧ ReadsAs (.obj ms stray) s := by
  rw [readable_obj, readsAs_obj_iff]
  simp only [read, View.enter, Nat.add_one_ne_zero, if_false, Nat.add_sub_cancel, bind,
    Except.bind]
  cases hsplit : splitMembers room none ms with
  | error e =>
    refine ⟨fun h => (by cases h), ?_⟩
    rintro ⟨⟨-, hms⟩, -, htype, -⟩
    have hok := (splitMembers_none ms (some s.kind) (untyped ms)).mpr
      ⟨hms, rfl, .inr ⟨_, s.kind_mem_kinds, rfl, htype⟩⟩
    rw [hsplit] at hok
    cases hok
  | ok r =>
    obtain ⟨found, others⟩ := r
    obtain ⟨hms, rfl, hkind⟩ := (splitMembers_none ms found others).mp hsplit
    cases stray with
    | some d => simp [View.check]
    | none =>
      simp only [View.check, Option.map_none, true_and]
      rcases hkind with ⟨rfl, hnone⟩ | ⟨k, hk, rfl, hsome⟩
      · simp [hnone]
      · rw [hsome]
        have hkind : ([Document.str k] = [.str s.kind]) ↔ s.kind = k := by simp [eq_comm]
        rcases fieldReader_of_mem hk with ⟨rfl, hreader⟩ | ⟨name, title, reader, hreader, hr⟩
        · simp only [hreader, hkind]
          constructor
          · intro h
            cases h
            exact ⟨hms, rfl, fun name h => absurd h (by simp [fieldName])⟩
          · rintro ⟨-, hs, -⟩
            rw [eq_mentionAll_of_kind hs]
            rfl
        · simp only [hreader, hkind, readField_none, valuesOf_untyped hr.not_type]
          have hmem : ∀ {d}, valuesOf name ms = [d] → d.Fits := by
            intro d hd
            obtain ⟨m, hm, rfl⟩ := List.mem_map.mp (hd ▸ List.mem_singleton_self d)
            exact hfits m ((List.mem_filter.mp hm).1)
          constructor
          · rintro ⟨d, hd, hread⟩
            obtain ⟨hs, hfield⟩ := (hr.read_ok_iff (hmem hd) room s).mp hread
            refine ⟨hms, hs, fun n hn => ?_⟩
            rw [hr.name_eq hs] at hn
            cases hn
            exact ⟨d, hd, hfield⟩
          · rintro ⟨-, hs, hfield⟩
            obtain ⟨d, hd, hfield⟩ := hfield name (hr.name_eq hs)
            exact ⟨d, hd, (hr.read_ok_iff (hmem hd) room s).mpr ⟨hs, hfield⟩⟩

/-- What stands behind the kind in an array is read by the kind. -/
theorem readPositional_ok_iff {k : String} (hk : k ∈ kinds) {rest : List Document}
    (hfits : ∀ d ∈ rest, d.Fits) (s : Segment) :
    readPositional k room rest = .ok s ↔
      s.kind = k ∧ (s = .mentionAll ∧ rest = [] ∨ ∃ d, rest = [d] ∧ s.HasField d) := by
  rcases fieldReader_of_mem hk with ⟨rfl, hreader⟩ | ⟨name, title, reader, hreader, hr⟩
  · cases rest with
    | nil =>
      simp only [readPositional, hreader]
      constructor
      · intro h
        cases h
        exact ⟨rfl, .inl ⟨rfl, trivial⟩⟩
      · rintro ⟨hs, -⟩
        rw [eq_mentionAll_of_kind hs]
    | cons d rest =>
      simp only [readPositional, hreader]
      refine ⟨fun h => (by cases h), ?_⟩
      rintro ⟨hs, ⟨-, hrest⟩ | ⟨d', -, hfield⟩⟩
      · cases hrest
      · rw [eq_mentionAll_of_kind hs] at hfield
        cases hfield
  · -- this kind has a field
    have hnot : ∀ {s : Segment}, s.kind = k → s ≠ .mentionAll := by
      rintro _ hs rfl
      exact absurd (hr.name_eq hs) (by simp [fieldName])
    cases rest with
    | nil =>
      simp only [readPositional, hreader]
      refine ⟨fun h => (by cases h), ?_⟩
      rintro ⟨hs, ⟨hall, -⟩ | ⟨d', hrest, -⟩⟩
      · exact absurd hall (hnot hs)
      · cases hrest
    | cons d rest =>
      have hd := hr.read_ok_iff (hfits d (List.mem_cons_self)) room
      simp only [readPositional, hreader]
      constructor
      · intro h
        cases hread : reader ⟨d, room⟩ with
        | error e => rw [hread] at h; cases h
        | ok s' =>
          cases rest with
          | nil =>
            rw [hread] at h
            cases h
            obtain ⟨hs, hfield⟩ := (hd s).mp hread
            exact ⟨hs, .inr ⟨d, rfl, hfield⟩⟩
          | cons => rw [hread] at h; cases h
      · rintro ⟨hs, ⟨hall, -⟩ | ⟨d', hrest, hfield⟩⟩
        · exact absurd hall (hnot hs)
        · obtain ⟨rfl, rfl⟩ := List.cons.inj hrest
          rw [(hd s).mpr ⟨hs, hfield⟩]
          rfl

theorem readsAs_arr_iff {items : List Document} {fault : Option Fault} {s : Segment} :
    ReadsAs (.arr items fault) s ↔ fault = none ∧ ∃ rest, items = .str s.kind :: rest ∧
      (s = .mentionAll ∧ rest = [] ∨ ∃ d, rest = [d] ∧ s.HasField d) := by
  constructor
  · intro h
    cases h with
    | items hfield => exact ⟨rfl, _, rfl, .inr ⟨_, rfl, hfield⟩⟩
    | mentionAllItem => exact ⟨rfl, _, rfl, .inl ⟨rfl, rfl⟩⟩
  · rintro ⟨rfl, rest, rfl, ⟨rfl, rfl⟩ | ⟨d, rfl, hfield⟩⟩
    · exact .mentionAllItem
    · exact .items hfield

/-- **An array is read by the grammar.** -/
theorem read_arr_ok_iff {items : List Document} {fault : Option Fault}
    (hfits : ∀ d ∈ items, d.Fits) (s : Segment) :
    read ⟨.arr items fault, room + 1⟩ = .ok s ↔
      (Document.arr items fault).Readable (room + 1) ∧ ReadsAs (.arr items fault) s := by
  rw [readable_arr, readsAs_arr_iff]
  cases items with
  | nil =>
    refine ⟨fun h => ?_, ?_⟩
    · cases fault <;> cases h
    · rintro ⟨-, -, rest, hitems, -⟩
      cases hitems
  | cons d rest =>
    simp only [read, View.enter, Nat.add_one_ne_zero, if_false, Nat.add_sub_cancel, bind,
      Except.bind]
    cases hkind : View.optionName kinds ⟨d, room⟩ with
    | error e =>
      refine ⟨fun h => (by cases h), ?_⟩
      rintro ⟨-, -, rest, hitems, -⟩
      obtain ⟨rfl, -⟩ := List.cons.inj hitems
      rw [(optionName_ok_iff _ room s.kind).mpr ⟨rfl, s.kind_mem_kinds⟩] at hkind
      cases hkind
    | ok k =>
      obtain ⟨rfl, hk⟩ := (optionName_ok_iff d room k).mp hkind
      have hpos : readPositional k room rest = .ok s ↔ _ := readPositional_ok_iff hk
        (fun d hd => hfits d (List.mem_cons_of_mem _ hd)) s
      cases hwhole : wholeItems room rest with
      | error f =>
        refine ⟨fun h => (by cases h), ?_⟩
        rintro ⟨⟨-, hall⟩, -⟩
        obtain ⟨vs, hvs⟩ := (wholeItems_ok_iff rest).mpr
          fun d hd => hall d (List.mem_cons_of_mem _ hd)
        rw [hwhole] at hvs
        cases hvs
      | ok vs =>
        have hrest := (wholeItems_ok_iff rest).mp ⟨vs, hwhole⟩
        cases fault with
        | some f => simp [View.check]
        | none =>
          simp only [View.check, hpos, true_and]
          constructor
          · rintro ⟨rfl, hvalues⟩
            exact ⟨List.forall_mem_cons.mpr ⟨⟨_, rfl⟩, hrest⟩, rest, rfl, hvalues⟩
          · rintro ⟨-, rest', hitems, hvalues⟩
            cases hitems
            exact ⟨rfl, hvalues⟩

/-- **An element is read by the grammar.** -/
theorem read_ok_iff {d : Document} (hd : d.Fits) (room : Nat) (s : Segment) :
    read ⟨d, room⟩ = .ok s ↔ d.Readable room ∧ ReadsAs d s := by
  cases hd with
  | obj hfits =>
    cases room with
    | zero => simp [read, View.enter, bind, Except.bind, not_readable_obj]
    | succ room => exact read_obj_ok_iff hfits s
  | arr hfits =>
    cases room with
    | zero => simp [read, View.enter, bind, Except.bind, not_readable_arr]
    | succ room => exact read_arr_ok_iff hfits s
  | bool b =>
    refine ⟨fun h => ?_, fun ⟨_, h⟩ => (by cases h)⟩
    cases b <;> cases h
  | null | int | float | str | broken =>
    exact ⟨fun h => (by cases h), fun ⟨_, h⟩ => (by cases h)⟩

end Segment

/-! ## A message -/

section Lists

variable {α : Type} {P : Document → Prop} {R : Document → α → Prop}

/-- Items are read one by one. -/
theorem Json.View.mapM_ok_iff {f : Document → Decoded α} {ds : List Document}
    (h : ∀ d ∈ ds, ∀ a, f d = .ok a ↔ P d ∧ R d a) (as : List α) :
    ds.mapM f = .ok as ↔ (∀ d ∈ ds, P d) ∧ List.Forall₂ R ds as := by
  induction ds generalizing as with
  | nil => simp [pure, Except.pure, eq_comm]
  | cons d ds ih =>
    obtain ⟨hd, hds⟩ := List.forall_mem_cons.mp h
    have ih := ih hds
    rw [List.mapM_cons, List.forall_mem_cons, List.forall₂_cons_left_iff]
    constructor
    · intro hread
      cases hfirst : f d with
      | error e => rw [hfirst] at hread; cases hread
      | ok a =>
        cases hrest : ds.mapM f with
        | error e => rw [hfirst, hrest] at hread; cases hread
        | ok as' =>
          rw [hfirst, hrest] at hread
          cases hread
          obtain ⟨hP, hR⟩ := (hd a).mp hfirst
          obtain ⟨hPs, hRs⟩ := (ih as').mp hrest
          exact ⟨⟨hP, hPs⟩, a, as', hR, hRs, rfl⟩
    · rintro ⟨⟨hP, hPs⟩, a, as', hR, hRs, rfl⟩
      rw [(hd a).mpr ⟨hP, hR⟩, (ih as').mpr ⟨hPs, hRs⟩]
      rfl

/-- A list is read from an array whose items are. -/
theorem Json.View.list_ok_iff {f : View → Decoded α} {d : Document} {room : Nat} {as : List α} :
    View.list f ⟨d, room + 1⟩ = .ok as ↔
      ∃ items, d = .arr items none ∧ items.mapM (fun d => f ⟨d, room⟩) = .ok as := by
  cases d with
  | arr items fault =>
    simp only [View.list, View.enter, Nat.add_one_ne_zero, if_false, Nat.add_sub_cancel, bind,
      Except.bind]
    cases hread : items.mapM (fun d => f ⟨d, room⟩) with
    | error e => simp [hread]
    | ok as' => cases fault <;> simp [View.check, hread, pure, Except.pure]
  | bool b =>
    refine ⟨fun h => ?_, fun ⟨_, h, _⟩ => (by cases h)⟩
    cases b <;> cases h
  | null | int | float | str | obj | broken =>
    exact ⟨fun h => (by cases h), fun ⟨_, h, _⟩ => (by cases h)⟩

/-- Where every item is read as something, all are. -/
theorem exists_forall₂_of_forall_mem {ds : List Document} (h : ∀ d ∈ ds, ∃ a, R d a) :
    ∃ as, List.Forall₂ R ds as := by
  induction ds with
  | nil => exact ⟨[], .nil⟩
  | cons d ds ih =>
    obtain ⟨⟨a, ha⟩, hds⟩ := List.forall_mem_cons.mp h
    obtain ⟨as, has⟩ := ih hds
    exact ⟨a :: as, .cons ha has⟩

/-- What is read from an item is there. -/
theorem exists_of_mem_forall₂ {ds : List Document} {as : List α} (h : List.Forall₂ R ds as)
    {d : Document} (hd : d ∈ ds) : ∃ a, R d a := by
  induction h with
  | nil => cases hd
  | cons hR _ ih =>
    rcases List.mem_cons.mp hd with rfl | hd
    · exact ⟨_, hR⟩
    · exact ih hd

end Lists

/-- A text is a plain value if its document is one and nothing follows. -/
theorem Json.ofText_ok_iff (t : String) :
    (∃ v, Json.ofText t = .ok v) ↔
      (Document.ofText t).1.Readable 127 ∧ (Document.ofText t).2 = none := by
  unfold Json.ofText Readable
  obtain ⟨d, trailing⟩ := Document.ofText t
  simp only
  cases d.whole 127 <;> cases trailing <;> simp

namespace Segment

/-- Only objects and arrays are read as segments. -/
theorem ReadsAs.container {d : Document} {s : Segment} (h : ReadsAs d s) :
    (∃ ms, d = .obj ms none) ∨ ∃ items, d = .arr items none := by
  cases h with
  | members => exact .inl ⟨_, rfl⟩
  | items | mentionAllItem => exact .inr ⟨_, rfl⟩

/-- **The order of the members does not matter.** -/
theorem ReadsAs.perm {ms ms' : List (Except Fault String × Document)} {s : Segment}
    (h : ReadsAs (.obj ms none) s) (hperm : ms.Perm ms') : ReadsAs (.obj ms' none) s := by
  obtain ⟨-, htype, hfield⟩ := readsAs_obj_iff.mp h
  refine .members (valuesOf_eq_singleton_of_perm hperm htype) fun name hname => ?_
  obtain ⟨d, hd, hvalue⟩ := hfield name hname
  exact ⟨d, valuesOf_eq_singleton_of_perm hperm hd, hvalue⟩

/-- **Members with other names do not matter.** -/
theorem readsAs_other_iff {pre post : List (Except Fault String × Document)} {name : String}
    {d : Document} {s : Segment} (htype : name ≠ "type") (hfield : name ∉ s.fieldName) :
    ReadsAs (.obj (pre ++ (.ok name, d) :: post) none) s ↔ ReadsAs (.obj (pre ++ post) none) s := by
  have hsame : ∀ {n}, name ≠ n →
      valuesOf n (pre ++ (.ok name, d) :: post) = valuesOf n (pre ++ post) := by
    intro n hn
    simp [valuesOf, Except.toOption, hn]
  have hnames : ∀ n ∈ s.fieldName, name ≠ n := fun n hn heq => hfield (heq ▸ hn)
  rw [readsAs_obj_iff, readsAs_obj_iff, hsame htype]
  refine and_congr_right fun _ => and_congr_right fun _ => forall₂_congr fun n hn => ?_
  rw [hsame (hnames n hn)]

end Segment

namespace Message

/-- A document is read as a message if it is an array of segments. -/
theorem read_ok_iff {d : Document} (hd : d.Fits) (room : Nat) (m : Message) :
    read ⟨d, room + 1⟩ = .ok m ↔ d.Readable (room + 1) ∧
      ∃ items, d = .arr items none ∧ List.Forall₂ Segment.ReadsAs items m.segments := by
  have hmap : read ⟨d, room + 1⟩ = .ok m ↔
      View.list Segment.read ⟨d, room + 1⟩ = .ok m.segments := by
    rw [read]
    cases View.list Segment.read ⟨d, room + 1⟩ with
    | error e => simp [Except.map]
    | ok ss => cases m; simp [Except.map]
  have hitems : ∀ {items}, d = .arr items none →
      (items.mapM (fun d => Segment.read ⟨d, room⟩) = .ok m.segments ↔
        d.Readable (room + 1) ∧ List.Forall₂ Segment.ReadsAs items m.segments) := by
    rintro items rfl
    cases hd with | arr hfits =>
    rw [View.mapM_ok_iff fun d hd s => Segment.read_ok_iff (hfits d hd) room s, readable_arr]
    simp
  rw [hmap, View.list_ok_iff]
  constructor
  · rintro ⟨items, harr, hread⟩
    obtain ⟨hreadable, hall⟩ := (hitems harr).mp hread
    exact ⟨hreadable, items, harr, hall⟩
  · rintro ⟨hreadable, items, harr, hall⟩
    exact ⟨items, harr, (hitems harr).mpr ⟨hreadable, hall⟩⟩

/-- **A text is a message** if it is JSON and an array of segments. -/
theorem ofJsonText_ok_iff (t : String) (m : Message) :
    ofJsonText t = .ok m ↔ (∃ v, Json.ofText t = .ok v) ∧
      ∃ items, (Document.ofText t).1 = .arr items none ∧
        List.Forall₂ Segment.ReadsAs items m.segments := by
  have hread := read_ok_iff (fits_ofText t) 126 m
  rw [Json.ofText_ok_iff, and_right_comm, ← hread]
  unfold ofJsonText Json.decode
  obtain ⟨d, trailing⟩ := Document.ofText t
  simp only [bind, Except.bind]
  cases read ⟨d, 127⟩ with
  | error e => simp
  | ok m' => cases trailing <;> simp [View.check, pure, Except.pure]

/-- **Exactly the grammar is accepted**, whole or not at all. A text is read as
a message if it is JSON, nested less deep than the reader allows, and an array
whose elements read as segments, one for one; any other text that is JSON is
refused, though all elements but one be segments. What an object reads as does
not depend on the order of its members, nor on those with other names than
`type` and that of the field, and nothing but objects and arrays reads as a
segment. -/
theorem ofJsonText_grammar :
    (∀ (t : String) (m : Message), ofJsonText t = .ok m ↔ (∃ v, Json.ofText t = .ok v) ∧
      ∃ items, (Document.ofText t).1 = .arr items none ∧
        List.Forall₂ Segment.ReadsAs items m.segments) ∧
    (∀ (t : String) (v : Json), Json.ofText t = .ok v →
      ((∃ e, ofJsonText t = .error e) ↔ ∀ items, (Document.ofText t).1 = .arr items none →
        ∃ d ∈ items, ∀ s, ¬Segment.ReadsAs d s)) ∧
    (∀ ms ms' s, ms.Perm ms' →
      (Segment.ReadsAs (.obj ms none) s ↔ Segment.ReadsAs (.obj ms' none) s)) ∧
    (∀ pre post name d s, name ≠ "type" → name ∉ Segment.fieldName s →
      (Segment.ReadsAs (.obj (pre ++ (.ok name, d) :: post) none) s ↔
        Segment.ReadsAs (.obj (pre ++ post) none) s)) ∧
    (∀ d s, Segment.ReadsAs d s → (∃ ms, d = .obj ms none) ∨ ∃ items, d = .arr items none) := by
  refine ⟨ofJsonText_ok_iff, fun t v hv => ?_, fun ms ms' s hperm => ?_, ?_, fun d s => ?_⟩
  · constructor
    · rintro ⟨e, he⟩ items harr
      by_contra hall
      push Not at hall
      obtain ⟨ss, hss⟩ := exists_forall₂_of_forall_mem hall
      rw [(ofJsonText_ok_iff t ⟨ss⟩).mpr ⟨⟨v, hv⟩, items, harr, hss⟩] at he
      cases he
    · intro hall
      cases hread : ofJsonText t with
      | error e => exact ⟨e, rfl⟩
      | ok m =>
        obtain ⟨-, items, harr, hss⟩ := (ofJsonText_ok_iff t m).mp hread
        obtain ⟨d, hd, hnone⟩ := hall items harr
        obtain ⟨s, hs⟩ := exists_of_mem_forall₂ hss hd
        exact absurd hs (hnone s)
  · exact ⟨fun h => h.perm hperm, fun h => h.perm hperm.symm⟩
  · exact fun pre post name d s => Segment.readsAs_other_iff
  · exact Segment.ReadsAs.container

/-- The largest integer as an identifier, behind a name that no segment has,
and a list in the place of an object. -/
theorem ofJsonText_grammar_reordered :
    ∃ (t : String) (items : List Document), (∃ v, Json.ofText t = .ok v) ∧
      (Document.ofText t).1 = .arr items none ∧
      List.Forall₂ Segment.ReadsAs items [.face (Id.ofInt 18446744073709551615), .mentionAll] := by
  have hread : ofJsonText
      "[\x7b\"x\": 0, \"id\": 18446744073709551615, \"type\": \"face\"\x7d, [\"at_all\"]]"
      = .ok ⟨[.face (Id.ofInt 18446744073709551615), .mentionAll]⟩ := by cbv
  obtain ⟨hv, items, harr, hall⟩ := (ofJsonText_grammar.1 _ _).mp hread
  exact ⟨_, items, hv, harr, hall⟩

end Message

end Switchboard
