import Switchboard.Files.Tree
import Switchboard.Record.Decoder

/-!
# Loading bot records

A `RecordLoader` holds decoders in the order in which they are asked; one
that is added later is asked first. Every file is read by the first
decoder that accepts its name.

The records of a directory come in the order of the names of their files,
whatever the order in which the directory lists them. Subdirectories are
passed over, and so are files that no decoder accepts, among them all
whose names are no texts. One file that cannot be read is the end of it,
and a directory that is not there is empty.
-/

namespace Switchboard

/-- A file that a directory lists, and what reading it gives. -/
structure ListedFile where
  name : FileName
  content : Except FileFault (List UInt8)

namespace ListedFile

/-- The file that an entry of a directory is. -/
def ofEntry? (entry : FileName × FileNode) : Option ListedFile :=
  entry.2.content?.map fun content => ⟨entry.1, content⟩

/-- The files among the entries of a directory, as they are listed. -/
def among (entries : List (FileName × FileNode)) : List ListedFile :=
  entries.filterMap ofEntry?

/-- Files in the order of the bytes of their names. -/
def inOrder (files : List ListedFile) : List ListedFile :=
  files.mergeSort fun f g => f.name.bytes ≤ g.name.bytes

end ListedFile

/-- The decoders of records, in the order in which they are asked. -/
structure RecordLoader where
  decoders : List RecordDecoder

namespace RecordLoader

/-- The loader with the standard decoders. -/
def standard : RecordLoader := ⟨[.json, .toml]⟩

/-- Adds a decoder that is asked before all others. -/
def withDecoder (l : RecordLoader) (d : RecordDecoder) : RecordLoader := ⟨d :: l.decoders⟩

/-- The decoder that reads files of a name. -/
def decoderFor? (l : RecordLoader) (name : String) : Option RecordDecoder :=
  l.decoders.find? (·.accepts name)

/-- The names of the decoders in the words for diagnosis. -/
def describe (l : RecordLoader) : String :=
  "[" ++ String.intercalate ", " (l.decoders.map fun d => Text.quoted d.name) ++ "]"

/-- **The record in a file**, if a decoder accepts its name. The file is at
a path, and reading it gives `content`. -/
def decodeFile (l : RecordLoader) (path name : String) (content : Except FileFault (List UInt8)) :
    Except RecordError (Option BotRecord) :=
  match l.decoderFor? name with
  | none => .ok none
  | some d =>
    match content with
    | .ok bytes => (d.decode name bytes).map some
    | .error _ => .error (.unreadable path)

/-- The record in a file of a directory, if its name is a text that a
decoder accepts. -/
def decodeListed (l : RecordLoader) (directory : String) (f : ListedFile) :
    Except RecordError (Option BotRecord) :=
  match f.name.text? with
  | none => .ok none
  | some name => l.decodeFile (Path.join directory name) name f.content

/-- The records in files of a directory, one after the other. -/
def decodeFiles (l : RecordLoader) (directory : String) (files : List ListedFile) :
    Except RecordError (List BotRecord) :=
  (files.mapM (l.decodeListed directory)).map fun rs => rs.filterMap id

/-- **The records among the entries of a directory.** -/
def decodeEntries (l : RecordLoader) (directory : String) (entries : List (FileName × FileNode)) :
    Except RecordError (List BotRecord) :=
  l.decodeFiles directory (ListedFile.inOrder (ListedFile.among entries))

/-- **The records in a directory.** -/
def loadDirectory (l : RecordLoader) (files : FileNode) (current : List String) (path : String) :
    Except RecordError (List BotRecord) :=
  match files.list current path with
  | .ok entries => l.decodeEntries path entries
  | .error .notFound => .ok []
  | .error _ => .error (.unreadable path)

/-- The record in the file a path leads to, if a decoder accepts its name. -/
def loadFile (l : RecordLoader) (files : FileNode) (current : List String) (path : String) :
    Except RecordError (Option BotRecord) :=
  match Path.fileName? path with
  | none => .ok none
  | some name => l.decodeFile path name (files.read current path)

end RecordLoader

end Switchboard
