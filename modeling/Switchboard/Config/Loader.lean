import Switchboard.Config.Profile
import Switchboard.Config.Validation
import Switchboard.Files.Tree
import Switchboard.Setting.Variables
import Switchboard.Text.Utf8
import Switchboard.Toml.Reader

/-!
# Loading a configuration

A configuration is put together from layers, from the lowest to the
highest: the defaults, configurations that the program merges, files, and
variables of the environment. `Sources` says where to look, and
`Surroundings` is what there is to be seen.

Unless the program names a file, files are searched for. The candidates
are two names in every directory searched, in order. Each has a variant
for the profile; the variants are taken on the way, and the first base
file found is taken and ends the search (`selected`).
-/

namespace Switchboard.Config

/-- What a loader sees of the world. -/
structure Surroundings where
  files : FileNode
  /-- The current directory, as names from the root. -/
  directory : List String
  /-- The directory of the configuration of the user. -/
  userDirectory : String
  environment : List (String × String)
deriving Inhabited

namespace Surroundings

/-- The path of the current directory. -/
def directoryPath (w : Surroundings) : String :=
  if w.directory.isEmpty then "/" else String.join (w.directory.map ("/" ++ ·))

/-- The path of the directory of this program in the configuration of the
user. -/
def userPath (w : Surroundings) : String := Path.join w.userDirectory "chime"

/-- Whether a path leads to something. -/
def leads (w : Surroundings) (p : String) : Bool := w.files.leads w.directory p

/-- The directories from the current one up to the root. -/
def enclosing : List String → List (List String)
  | [] => [[]]
  | name :: names => (enclosing names).map (name :: ·) ++ [[]]

/-- What reading the file a path leads to gives. A relative path is
followed from the current directory and those above it, until it leads to
a file. -/
def content? (w : Surroundings) (p : String) : Option (Except FileFault (List UInt8)) :=
  let starts := if Path.isAbsolute p then [[]] else enclosing w.directory
  starts.findSome? fun d =>
    match w.files.resolve d p with
    | .ok n => n.content?
    | .error _ => none

end Surroundings

/-- Why no configuration could be loaded. -/
inductive LoadError where
  | fileNotFound (path : String)
  /-- The name of a file has an ending of which no format is known. -/
  | unsupportedFormat (ending : String)
  /-- A variable that names no setting is no table. -/
  | namelessVariable
  | setting (e : SettingError)
  | invalid (f : ConfigFault)
deriving DecidableEq, Repr

/-- **Where a configuration is looked for.** -/
structure Sources where
  profile : Profile
  searched : List String
  /-- The file that is to be read, whatever is found elsewhere. -/
  file : Option String
  /-- Configurations to merge, the lowest first. -/
  merged : List Config
  useVariables : Bool

namespace Sources

/-- Where to look if nothing else is said. -/
def ofSurroundings (w : Surroundings) : Sources :=
  ⟨.ofVariables w.environment, [], none, [], true⟩

/-- The directories that are searched. -/
def directories (s : Sources) (w : Surroundings) : List String :=
  if s.searched.isEmpty then [w.directoryPath, w.userPath] else s.searched

/-- Where a file may be: its variant for the profile, and its base. -/
structure Candidate where
  variant : String
  base : String
deriving DecidableEq, Repr

/-- **The candidates**, in the order of the search. -/
def candidates (s : Sources) (w : Surroundings) : List Candidate :=
  (s.directories w).flatMap fun d => ["chime", "config"].map fun stem =>
    ⟨Path.join d (stem ++ "." ++ s.profile.name ++ ".toml"), Path.join d (stem ++ ".toml")⟩

/-- **The files that are taken** among candidates, the lowest first. -/
def selected (w : Surroundings) : List Candidate → List String
  | [] => []
  | c :: rest =>
    (if w.leads c.variant then [c.variant] else []) ++
      if w.leads c.base then [c.base] else selected w rest

/-- The files that are read, the lowest first. -/
def paths (s : Sources) (w : Surroundings) : Except LoadError (List String) :=
  match s.file with
  | none => .ok (selected w (s.candidates w))
  | some p =>
    if w.leads p then
      if Path.extension p = "toml" then .ok [p] else .error (.unsupportedFormat (Path.extension p))
    else .error (.fileNotFound p)

end Sources

/-- Which variables are settings. -/
def variableRule : Setting.VariableRule := ⟨"CHIME_", "PROFILE"⟩

/-- What a file says; a file that is not there says nothing. -/
def fileSetting? (w : Surroundings) (p : String) : Option Setting :=
  match w.content? p with
  | none => some .empty
  | some (.ok bytes) => (Text.Utf8.decode? bytes).bind Toml.read?
  | some (.error _) => none

/-- What files say, if all of them can be read. -/
def fileSettings (w : Surroundings) (ps : List String) : Setting.Read (List Setting) :=
  match ps.mapM (fileSetting? w) with
  | some layers => .ok layers
  | none => .error ⟨[], .unreadable⟩

/-- The layer of the variables, if they are used. -/
def variableLayer (s : Sources) (w : Surroundings) : Except LoadError (List Setting) :=
  if s.useVariables then
    match Setting.ofVariables? variableRule w.environment with
    | some layer => .ok [layer]
    | none => .error .namelessVariable
  else .ok []

/-- What the program merges, laid over each other. -/
def Sources.mergedLayer (s : Sources) : Setting := .layered (s.merged.map toSetting)

/-- **The layers of a configuration**, the lowest first. What the program
merges is put together first and is one of them. -/
def layers (s : Sources) (files environment : List Setting) : List Setting :=
  [toSetting default, s.mergedLayer] ++ files ++ environment

/-- **Loads a configuration**, which must be valid. -/
def load (s : Sources) (w : Surroundings) : Except LoadError Config := do
  let ps ← s.paths w
  let environment ← variableLayer s w
  let files ← (fileSettings w ps).mapError .setting
  let c ← (ofSetting (.layered (layers s files environment))).mapError .setting
  (validate c).mapError .invalid
  return c

end Switchboard.Config
