import Switchboard.Files.Path
import Switchboard.Text.Utf8

/-!
# File trees

A file tree is a value: files hold bytes, directories hold named entries
in no order that means anything. A path is followed from the root, or from
a directory of the tree, one piece after the other; every piece but the
last must lead to a directory, and so must the last one if a slash follows
it.

The name of an entry is a list of bytes. Those that are written in a path
are texts, but a directory may hold others.
-/

namespace Switchboard

/-- The name of an entry of a directory. -/
structure FileName where
  bytes : List UInt8
deriving DecidableEq, Inhabited

namespace FileName

/-- The name that is written as a text. -/
def ofText (s : String) : FileName := ⟨Text.Utf8.encode s⟩

/-- The text of a name, if it is one. -/
def text? (n : FileName) : Option String := Text.Utf8.decode? n.bytes

/-- What is written as a text is the name of this text. -/
@[simp] theorem text?_ofText (s : String) : (ofText s).text? = some s :=
  Text.Utf8.decode?_encode s

end FileName

/-- What stands at a place of a file tree. -/
inductive FileNode where
  | file (bytes : List UInt8)
  /-- A file that must not be read. -/
  | locked
  | directory (entries : List (FileName × FileNode))
deriving Inhabited

/-- Why something cannot be read. -/
inductive FileFault where
  | notFound
  | notDirectory
  | isDirectory
  | denied
  /-- No path can be like this. -/
  | badPath
deriving DecidableEq, Repr

namespace FileNode

/-- A directory without entries. -/
def emptyDirectory : FileNode := directory []

/-- What reading a file gives. -/
def content? : FileNode → Option (Except FileFault (List UInt8))
  | file bytes => some (.ok bytes)
  | locked => some (.error .denied)
  | directory _ => none

/-- The entries of a directory. -/
def entries? : FileNode → Option (List (FileName × FileNode))
  | directory es => some es
  | _ => none

/-- What a directory has under a name. -/
def child? (t : FileNode) (name : String) : Option FileNode :=
  t.entries?.bind fun es => es.lookup (.ofText name)

/-- What stands at the end of a list of names. -/
def at? (t : FileNode) : List String → Option FileNode
  | [] => some t
  | name :: rest =>
    match t.child? name with
    | none => none
    | some n => at? n rest

/-- One piece of a path, from the place at the end of a list of names. -/
def follow (t : FileNode) (place : List String) (piece : String) :
    Except FileFault (List String) :=
  match t.at? place with
  | some (directory es) =>
    if piece = "" ∨ piece = "." then .ok place
    else if piece = ".." then .ok place.dropLast
    else if ((directory es).child? piece).isSome then .ok (place ++ [piece])
    else .error .notFound
  | some _ => .error .notDirectory
  | none => .error .notFound

/-- **Where a path leads**, from a directory of the tree: the names on the
way, and what stands there. -/
def resolve (t : FileNode) (directory : List String) (p : String) : Except FileFault FileNode :=
  if p = "" then .error .notFound
  else if p.toList.contains '\x00' then .error .badPath
  else
    match (Path.pieces p).foldlM (follow t) (if Path.isAbsolute p then [] else directory) with
    | .error e => .error e
    | .ok place =>
      match t.at? place with
      | some n => .ok n
      | none => .error .notFound

/-- Whether a path leads to something. -/
def leads (t : FileNode) (directory : List String) (p : String) : Bool :=
  match t.resolve directory p with
  | .ok _ => true
  | .error _ => false

/-- The bytes of the file a path leads to. -/
def read (t : FileNode) (directory : List String) (p : String) : Except FileFault (List UInt8) :=
  match t.resolve directory p with
  | .error e => .error e
  | .ok n => n.content?.getD (.error .isDirectory)

/-- The entries of the directory a path leads to. -/
def list (t : FileNode) (directory : List String) (p : String) :
    Except FileFault (List (FileName × FileNode)) :=
  match t.resolve directory p with
  | .error e => .error e
  | .ok (FileNode.directory es) => .ok es
  | .ok _ => .error .notDirectory

/-- A directory with a further entry, in place of any of its name. -/
def insertEntry (t : FileNode) (name : String) (n : FileNode) : FileNode :=
  let others := (t.entries?.getD []).filter (·.1 != .ofText name)
  directory ((.ofText name, n) :: others)

/-- Puts something at the end of a list of names, with the directories on
the way. -/
def put (t : FileNode) (n : FileNode) : List String → FileNode
  | [] => n
  | name :: rest => t.insertEntry name (put ((t.child? name).getD emptyDirectory) n rest)

/-- Puts something at a path that is seen from a directory of the tree. -/
def write (t : FileNode) (directory : List String) (p : String) (n : FileNode) : FileNode :=
  let names := (Path.parts p).filterMap fun
    | .name s => some s
    | _ => none
  t.put n ((if Path.isAbsolute p then [] else directory) ++ names)

end FileNode

end Switchboard
