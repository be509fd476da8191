import Switchboard.Text.Split

/-!
# Paths

A path is a text whose parts are set apart by slashes. What it says is the
list of its `parts`: empty parts say nothing, and neither does a dot,
unless the path begins with it. Two paths are the same when their parts
are, so `bots` and `bots/` are, and `bots` and `./bots` are not.
-/

namespace Switchboard.Path

/-- A part of a path. -/
inductive Part where
  /-- The root directory. -/
  | root
  /-- The current directory, at the beginning of a path. -/
  | here
  /-- The directory above. -/
  | up
  | name (s : String)
deriving DecidableEq, Repr

/-- The texts between the slashes of a path. -/
def pieces (p : String) : List String := (Text.splitOn '/' p.toList).map String.ofList

/-- Whether a path starts at the root. -/
def isAbsolute (p : String) : Bool := p.toList.head? == some '/'

/-- What a piece says inside a path. -/
def partOf? (piece : String) : Option Part :=
  if piece = "" ∨ piece = "." then none
  else if piece = ".." then some .up
  else some (.name piece)

/-- **The parts of a path.** -/
def parts (p : String) : List Part :=
  let ps := pieces p
  (if isAbsolute p then [.root] else if ps.head? = some "." then [.here] else []) ++
    ps.filterMap partOf?

/-- The name of what a path leads to, if its last part is a name. -/
def fileName? (p : String) : Option String :=
  match (parts p).getLast? with
  | some (.name s) => some s
  | _ => none

/-- What stands behind the last dot of a name that does not start there;
nothing if there is no such dot. -/
def extension (p : String) : String :=
  match (fileName? p).bind fun s => Text.splitLast? '.' s.toList with
  | some (_ :: _, ext) => String.ofList ext
  | _ => ""

/-- A path seen from the directory that another path leads to. -/
def join (base p : String) : String :=
  if isAbsolute p ∨ base = "" then p
  else if base.toList.getLast? = some '/' then base ++ p
  else base ++ "/" ++ p

/-- Whether two paths are the same. -/
def same (p q : String) : Bool := parts p == parts q

end Switchboard.Path
