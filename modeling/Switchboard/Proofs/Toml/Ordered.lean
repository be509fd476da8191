import Switchboard.Proofs.Setting.Ordered
import Switchboard.Toml.Reader

/-!
# TOML documents in order

A draft has the entries of each of its tables in the order of their names, and
everything that adds to a draft keeps it so. What becomes of it then has the
names of its tables in order (`Toml.ordered_read`).

Lists of tables are lists in the end, and nothing is laid over what is inside a
list, so nothing is asked of them.
-/

namespace Switchboard.Toml

open Json (InOrder)

namespace Draft

/-- The names in every table of a draft are in order. -/
inductive Ordered : Draft → Prop
  | value {s : Setting} (h : s.Ordered) : Ordered (value s)
  | table {standing : Standing} {entries : List (String × Draft)} (inOrder : InOrder entries)
      (each : ∀ e ∈ entries, Ordered e.2) : Ordered (table standing entries)
  | tables {latest : Draft} {earlier : List Draft} : Ordered (tables latest earlier)

theorem ordered_empty : Draft.empty.Ordered := .table .nil (List.forall_mem_nil _)

theorem ordered_table_iff {standing : Standing} {entries : List (String × Draft)} :
    (table standing entries).Ordered ↔ InOrder entries ∧ ∀ e ∈ entries, Ordered e.2 := by
  constructor
  · intro h
    cases h with
    | table inOrder each => exact ⟨inOrder, each⟩
  · exact fun h => .table h.1 h.2

/-- An entry is put into a table. -/
theorem ordered_insertMember {standing : Standing} {entries : List (String × Draft)} {d : Draft}
    (h : (table standing entries).Ordered) (name : String) (hd : d.Ordered) :
    (table standing (Json.insertMember name d entries)).Ordered := by
  obtain ⟨hin, heach⟩ := ordered_table_iff.mp h
  exact .table (hin.insertMember name d) (Json.forall_insertMember heach name hd)

theorem ordered_member {standing : Standing} {entries : List (String × Draft)} {name : String}
    {d : Draft} (h : (table standing entries).Ordered) (hd : Json.member? name entries = some d) :
    d.Ordered :=
  (ordered_table_iff.mp h).2 _ (Json.mem_of_member? hd)

/-- What keeps drafts in order. -/
def Keeps (f : Draft → Option Draft) : Prop := ∀ d d', d.Ordered → f d = some d' → d'.Ordered

/-- **A change at the end of a chain of names** keeps a draft in order if it
keeps what stands there in order. -/
theorem keeps_change {f : Draft → Option Draft} (hf : Keeps f) (made : Standing)
    (names : List String) : Keeps (change made f names) := by
  induction names with
  | nil =>
    intro d d' hd h
    rw [change] at h
    exact hf d d' hd h
  | cons name names ih =>
    intro d d' hd h
    cases d with
    | value s => rw [change] at h; cases h
    | tables latest earlier =>
      rw [change] at h
      obtain ⟨l, -, rfl⟩ := Option.map_eq_some_iff.mp h
      exact .tables
    | table standing entries =>
      rw [change] at h
      obtain ⟨-, h⟩ := Option.ite_none_right_eq_some.mp h
      obtain ⟨below, hbelow, rfl⟩ := Option.map_eq_some_iff.mp h
      refine ordered_insertMember hd name (ih _ below ?_ hbelow)
      cases hname : Json.member? name entries with
      | none => exact .table .nil (List.forall_mem_nil _)
      | some d => exact ordered_member hd hname

theorem keeps_addEntry (name : String) {s : Setting} (hs : s.Ordered) (isDotted : Bool) :
    Keeps (addEntry name s isDotted) := by
  intro d d' hd h
  unfold addEntry at h
  split at h
  · split at h
    · cases h
    · split at h
      · cases h
      · obtain rfl := Option.some.inj h
        exact ordered_insertMember hd name (.value hs)
  · split at h
    · cases h
    · split at h
      · cases h
      · obtain rfl := Option.some.inj h
        exact .tables
  · cases h

/-- **Giving a value to a dotted name** keeps a draft in order. -/
theorem keeps_assign (path : List String) {s : Setting} (hs : s.Ordered) :
    Keeps (assign path s) := by
  intro d d' hd h
  unfold assign at h
  split at h
  · cases h
  · exact keeps_change (keeps_addEntry _ hs _) _ _ d d' hd h

theorem keeps_defineTable (name : String) : Keeps (defineTable name) := by
  intro d d' hd h
  cases d with
  | value s => rw [defineTable] at h; cases h
  | tables latest earlier =>
    rw [defineTable] at h
    obtain ⟨l, -, rfl⟩ := Option.map_eq_some_iff.mp h
    exact .tables
  | table standing entries =>
    rw [defineTable] at h
    obtain ⟨below, hbelow, rfl⟩ := Option.map_eq_some_iff.mp h
    refine ordered_insertMember hd name ?_
    split at hbelow
    · exact Option.some.inj hbelow ▸ ordered_empty
    · next es hname =>
      obtain rfl := Option.some.inj hbelow
      have hbelow := ordered_member hd hname
      exact ordered_table_iff.mpr (ordered_table_iff.mp hbelow)
    · cases hbelow

theorem keeps_defineItem (name : String) : Keeps (defineItem name) := by
  intro d d' hd h
  cases d with
  | value s => rw [defineItem] at h; cases h
  | tables latest earlier =>
    rw [defineItem] at h
    obtain ⟨l, -, rfl⟩ := Option.map_eq_some_iff.mp h
    exact .tables
  | table standing entries =>
    rw [defineItem] at h
    obtain ⟨below, hbelow, rfl⟩ := Option.map_eq_some_iff.mp h
    refine ordered_insertMember hd name ?_
    split at hbelow
    · exact Option.some.inj hbelow ▸ .tables
    · exact Option.some.inj hbelow ▸ .tables
    · cases hbelow

/-- **Opening a table** keeps a draft in order. -/
theorem keeps_openTable (isItem : Bool) (path : List String) : Keeps (openTable isItem path) := by
  intro d d' hd h
  unfold openTable at h
  split at h
  · cases h
  · refine keeps_change ?_ _ _ d d' hd h
    cases isItem with
    | false => exact keeps_defineTable _
    | true => exact keeps_defineItem _

theorem entrySettings_eq_map (entries : List (String × Draft)) :
    entrySettings entries = entries.map fun e => (e.1, e.2.setting) := by
  induction entries with
  | nil => rw [entrySettings]; rfl
  | cons e entries ih => rw [entrySettings, ih]; rfl

/-- **What becomes of a draft** is in order. -/
theorem Ordered.setting {d : Draft} (h : d.Ordered) : d.setting.Ordered := by
  induction h with
  | value h => rwa [Draft.setting]
  | tables => rw [Draft.setting]; exact .plain nofun
  | @table standing entries inOrder each ih =>
    rw [Draft.setting, entrySettings_eq_map]
    refine .table (List.pairwise_map.mpr inOrder) fun e he => ?_
    obtain ⟨d, hd, rfl⟩ := List.mem_map.mp he
    exact ih d hd

end Draft

/-! ## Values -/

/-- A number is no table. -/
theorem ordered_readNumber (cs : List Char) : AllRead Setting.Ordered (readNumber cs) := by
  have hint : ∀ n rest, AllRead Setting.Ordered (integerOf n rest) := by
    intro n rest
    unfold integerOf
    split
    · exact allRead_some (.plain nofun)
    · exact allRead_none
  have hfloat : ∀ negative whole places e rest,
      AllRead Setting.Ordered (floatOf negative whole places e rest) := by
    intro negative whole places e rest
    unfold floatOf
    split
    · exact allRead_none
    · exact allRead_some (.plain nofun)
  have hbase : ∀ base cs, AllRead Setting.Ordered (readInBase base cs) :=
    fun base cs => allRead_bind fun _ _ => hint _ _
  have hdecimal : ∀ cs, AllRead Setting.Ordered (readDecimal cs) := by
    intro cs
    dsimp only [readDecimal]
    split
    · exact allRead_none
    · split
      · exact allRead_none
      · split
        · exact allRead_bind fun _ _ => hfloat _ _ _ _ _
        · exact hfloat _ _ _ _ _
      · exact hfloat _ _ _ _ _
    · split
      · exact allRead_bind fun _ _ => hfloat _ _ _ _ _
      · exact hint _ _
    · exact hint _ _
  dsimp only [readNumber]
  split
  · exact allRead_some (.plain nofun)
  · exact allRead_some (.plain nofun)
  · split
    · exact hbase 16 _
    · exact hbase 8 _
    · exact hbase 2 _
    · exact hdecimal _

/-- A date or a time is a table with one entry. -/
theorem ordered_moment (cs : List Char) : (moment cs).Ordered :=
  .table (List.pairwise_singleton _ _) (List.forall_mem_singleton.mpr (.plain nofun))

theorem ordered_readMoment (cs : List Char) : AllRead Setting.Ordered (readMoment cs) := by
  unfold readMoment
  split
  · exact (allRead_true _).map fun p _ => ordered_moment p.1
  · refine allRead_bind fun ⟨date, cs⟩ _ => ?_
    dsimp only
    split
    · exact allRead_bind fun _ _ => allRead_bind fun _ _ => allRead_some (ordered_moment _)
    · exact allRead_some (ordered_moment _)

theorem ordered_readScalar (cs : List Char) : AllRead Setting.Ordered (readScalar cs) := by
  have hword : ∀ word b cs, AllRead Setting.Ordered (readWord word (.bool b) cs) :=
    fun word b cs => allRead_map fun _ _ => .plain nofun
  unfold readScalar
  split
  · exact allRead_none
  · split
    · exact (allRead_true _).map fun p _ => .plain nofun
    · split
      · exact hword _ _ _
      · split
        · exact hword _ _ _
        · split
          · unfold readNumberOrMoment
            split
            · exact ordered_readMoment _
            · exact ordered_readNumber _
          · exact allRead_none

/-- A list is no table. -/
theorem ordered_readItems (fuel depth : Nat) (cs : List Char) :
    AllRead Setting.Ordered (readItems fuel depth cs) := by
  cases fuel with
  | zero => exact allRead_none
  | succ fuel =>
    unfold readItems
    split
    · exact allRead_some (.plain nofun)
    · refine allRead_bind fun ⟨s, cs⟩ _ => ?_
      dsimp only
      split
      · refine allRead_bind fun items _ => ?_
        split
        · exact allRead_some (.plain nofun)
        · exact allRead_none
      · exact allRead_some (.plain nofun)
      · exact allRead_none

/-- **Every value that is read** is in order, also inside others. -/
theorem ordered_readValue (fuel : Nat) :
    (∀ depth cs, AllRead Setting.Ordered (readValue fuel depth cs)) ∧
      ∀ depth d cs, d.Ordered → AllRead Setting.Ordered (readEntries fuel depth d cs) := by
  induction fuel with
  | zero => exact ⟨fun _ _ => allRead_none, fun _ _ _ _ => allRead_none⟩
  | succ fuel ih =>
    obtain ⟨ihValue, ihEntries⟩ := ih
    constructor
    · intro depth cs
      unfold readValue
      split
      · split
        · exact ordered_readItems _ _ _
        · exact allRead_none
      · split
        · split
          · exact allRead_some Setting.ordered_empty
          · exact ihEntries _ _ _ Draft.ordered_empty
        · exact allRead_none
      · exact ordered_readScalar _
    · intro depth d cs hd
      unfold readEntries
      -- an entry is assigned to the draft so far, and the others go into the new draft
      refine allRead_bind fun name _ => allRead_bind fun cs _ => allRead_bind fun value hvalue =>
        allRead_bind fun d' hd' => ?_
      have hd' := Draft.keeps_assign _ (ihValue _ _ _ _ hvalue) d d' hd hd'
      split
      · exact ihEntries _ _ _ hd'
      · exact allRead_some hd'.setting
      · exact allRead_none

/-! ## Documents -/

/-- A line keeps a document in order. -/
theorem ordered_readLine {p : Progress} (hp : p.draft.Ordered) (cs : List Char) :
    AllRead (fun q : Progress => q.draft.Ordered) (readLine p cs) := by
  have hopen : ∀ isItem name rest, AllRead (fun q : Progress => q.draft.Ordered)
      ((p.openTable isItem name).map fun p => (p, rest)) := by
    refine fun isItem name rest => allRead_map fun q hq => ?_
    obtain ⟨d, hd, rfl⟩ := Option.map_eq_some_iff.mp hq
    exact Draft.keeps_openTable isItem name _ d hp hd
  unfold readLine
  split
  · exact allRead_bind fun _ _ => allRead_bind fun _ _ => allRead_bind fun _ _ =>
      allRead_bind fun _ _ => hopen _ _ _
  · exact allRead_bind fun _ _ => allRead_bind fun _ _ => allRead_bind fun _ _ => hopen _ _ _
  · refine allRead_bind fun name _ => allRead_bind fun cs _ => allRead_bind fun value hvalue =>
      allRead_bind fun rest _ => allRead_map fun q hq => ?_
    obtain ⟨d, hd, rfl⟩ := Option.map_eq_some_iff.mp hq
    have hs := (ordered_readValue _).1 _ _ _ _ hvalue
    exact Draft.keeps_change (Draft.keeps_assign name.1 hs) _ _ _ d hp hd

theorem ordered_readDocument {fuel : Nat} {p p' : Progress} {cs : List Char}
    (hp : p.draft.Ordered) (h : readDocument fuel p cs = some p') : p'.draft.Ordered := by
  induction fuel generalizing p cs with
  | zero => cases h
  | succ fuel ih =>
    unfold readDocument at h
    dsimp only at h
    split at h
    · exact Option.some.inj h ▸ hp
    · split at h
      · exact ih hp h
      · obtain ⟨⟨q, rest⟩, hq, h⟩ := Option.bind_eq_some_iff.mp h
        exact ih (ordered_readLine hp _ _ _ hq) h

/-- **What a TOML document says** is in order. -/
theorem ordered_read {text : String} {s : Setting} (h : read? text = some s) : s.Ordered := by
  obtain ⟨p, hp, rfl⟩ := Option.map_eq_some_iff.mp h
  exact (ordered_readDocument Draft.ordered_empty hp).setting

end Switchboard.Toml
