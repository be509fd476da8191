import Switchboard.Json.Value
import Switchboard.Number.Shortest
import Switchboard.Text.Quoted

/-!
# Settings

A `Setting` is what a configuration source says: a value, a list, or a
table of named settings in the order of the names. Sources are laid over
each other with `cover`: a table is laid over a table name by name, and
anything else takes the place of what was below it. So a name of a table
has what the upper table says of it, laid over what the lower one says
(`member?_coverEntries`).

Sources keep integers in different words; an integer remembers whether its
word has a sign.
-/

namespace Switchboard

/-- What a configuration source says. -/
inductive Setting where
  /-- It is said that there is no value. -/
  | absent
  | bool (b : Bool)
  | integer (n : Int)
  | natural (n : Nat)
  | float (x : Number.Binary64)
  | text (s : String)
  | character (c : Char)
  | list (items : List Setting)
  | table (entries : List (String × Setting))
deriving Inhabited

namespace Setting

/-- The table that says nothing. -/
def empty : Setting := table []

mutual

/-- **One setting laid over another one.** -/
def cover (upper lower : Setting) : Setting :=
  match upper, lower with
  | table es, table fs => table (coverEntries es fs)
  | upper, _ => upper

/-- Named settings laid over others. -/
def coverEntries : List (String × Setting) → List (String × Setting) → List (String × Setting)
  | [], fs => fs
  | (name, s) :: es, fs =>
    let merged := match Json.member? name fs with
      | some below => cover s below
      | none => s
    coverEntries es (Json.insertMember name merged fs)

end

/-- What a name has in a table laid over another one is what it has in the
upper one, laid over what it has in the lower one. -/
theorem member?_coverEntries (name : String) :
    (es : List (String × Setting)) → (es.map (·.1)).Nodup → (fs : List (String × Setting)) →
      Json.member? name (coverEntries es fs) =
        match Json.member? name es, Json.member? name fs with
        | some s, some below => some (cover s below)
        | some s, none => some s
        | none, below => below
  | [], _, fs => by simp [coverEntries, Json.member?]
  | (n, s) :: es, hes, fs => by
    obtain ⟨hn, hes⟩ := List.nodup_cons.mp hes
    rw [coverEntries, member?_coverEntries name es hes]
    by_cases h : n = name
    · subst h
      have hnone : Json.member? n es = none := by
        rw [Json.member?, Option.map_eq_none_iff, List.find?_eq_none]
        intro m hm hmn
        exact hn (List.mem_map.mpr ⟨m, hm, by simpa using hmn⟩)
      rw [hnone]
      simp only [Json.member?_insertMember_self]
      cases hf : Json.member? n fs <;> simp [Json.member?]
    · have hne : (n == name) = false := beq_false_of_ne h
      simp only [Json.member?_insertMember_of_ne (Ne.symm h)]
      simp [Json.member?, hne]

/-- Several settings laid over each other, the lowest first. -/
def layered (layers : List Setting) : Setting :=
  layers.foldl (fun lower upper => cover upper lower) empty

/-- A setting under a chain of names. -/
def nested : List String → Setting → Setting
  | [], s => s
  | name :: rest, s => table [(name, nested rest s)]

/-- How a setting is called in a message. -/
def describe : Setting → String
  | absent => "unit"
  | bool b => "bool " ++ (if b then "true" else "false")
  | integer n => "signed int `" ++ Number.intText n ++ "`"
  | natural n => "unsigned int `" ++ Number.natText n ++ "`"
  | float x => "float `" ++ x.positional ++ "`"
  | text s => "string " ++ Text.quoted s
  | character c => "string " ++ Text.quoted (String.singleton c)
  | list _ => "sequence"
  | table _ => "map"

/-- The text of a setting that is one. -/
def text? : Setting → Option String
  | text s => some s
  | character c => some (String.singleton c)
  | _ => none

mutual

/-- A JSON value as a setting. -/
def ofJson : Json → Setting
  | .null => absent
  | .bool b => bool b
  | .int n => integer n
  | .float x => float x
  | .str s => text s
  | .arr items => list (ofItems items)
  | .obj members => table (ofMembers members)

/-- JSON values as settings. -/
def ofItems : List Json → List Setting
  | [] => []
  | v :: rest => ofJson v :: ofItems rest

/-- The members of an object as named settings. -/
def ofMembers : List (String × Json) → List (String × Setting)
  | [] => []
  | (name, v) :: rest => Json.insertMember name (ofJson v) (ofMembers rest)

end

mutual

/-- A setting as a JSON value. JSON has no numbers that are not finite. -/
def toJson : Setting → Json
  | absent => .null
  | bool b => .bool b
  | integer n => .int n
  | natural n => .int n
  | float (.finite s m e) => .float (.finite s m e)
  | float _ => .null
  | text s => .str s
  | character c => .str (String.singleton c)
  | list items => .arr (toItems items)
  | table entries => .obj (toMembers entries)

/-- Settings as JSON values. -/
def toItems : List Setting → List Json
  | [] => []
  | s :: rest => toJson s :: toItems rest

/-- Named settings as the members of an object. -/
def toMembers : List (String × Setting) → List (String × Json)
  | [] => []
  | (name, s) :: rest => (name, toJson s) :: toMembers rest

end

end Setting

end Switchboard
