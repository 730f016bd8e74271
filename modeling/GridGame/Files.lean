import GridGame.Path

/-!
# Trees of files

The files that a command may read and write. A place is named by the directories that lead to it
from the root, and a path leads to a place from the root or from the working directory. Files hold
bytes, which need not be the bytes of a text, and the system may refuse to let a file be read or
written, or a directory be passed through.
-/

namespace GridGame

/-- Why a file cannot be read or written. -/
inductive FileError where
  | notFound
  | notDirectory
  | isDirectory
  | notText
  | denied
  /-- Any other reason, in the words of the system. -/
  | other (message : String)
deriving DecidableEq

def FileError.message : FileError → String
  | .notFound => "No such file or directory (os error 2)"
  | .notDirectory => "Not a directory (os error 20)"
  | .isDirectory => "Is a directory (os error 21)"
  | .notText => "stream did not contain valid UTF-8"
  | .denied => "Permission denied (os error 13)"
  | .other message => message

/-- The place of a file or directory: the names that lead to it from the root. -/
abbrev Place := List String

/-- The place that a segment of a path leads to. Above the root there is nothing but the root. -/
def Place.step (place : Place) (segment : String) : Place :=
  match segment with
  | "" | "." => place
  | ".." => place.dropLast
  | name => place ++ [name]

/-- What the system may refuse at a place. -/
inductive Access where
  | read
  /-- To write a file, or to add one to a directory. -/
  | write
  /-- To go on from a directory to one of its entries. -/
  | enter
deriving DecidableEq

/-- A tree of files. The directories that lead to the working directory are always there. -/
structure Files where
  /-- The working directory. -/
  working : Place
  files : List (Place × ByteArray) := []
  directories : List Place := []
  /-- Places that are only another name of a place, each with the place it leads to in the end. -/
  links : List (Place × Place) := []
  refusals : List ((Place × Access) × FileError) := []

namespace Files

variable (fs : Files)

/-- The bytes of the file at a place. -/
def file? (place : Place) : Option ByteArray := fs.files.lookup place

def isDirectory (place : Place) : Bool :=
  place.isPrefixOf fs.working || fs.directories.contains place

/-- Fail if the system refuses an access. -/
def allow (place : Place) (access : Access) : Except FileError Unit :=
  match fs.refusals.lookup (place, access) with
  | some error => .error error
  | none => .ok ()

/-- The place that a place leads to if it is a link, else the place itself. -/
def follow (place : Place) : Place := (fs.links.lookup place).getD place

/-- Go from a place, which has to be a directory, to the one that a segment of a path leads to. -/
def enter (place : Place) (segment : String) : Except FileError Place :=
  if fs.isDirectory place then do
    fs.allow place .enter
    return fs.follow (Place.step place segment)
  else if (fs.file? place).isSome then .error .notDirectory
  else .error .notFound

/-- Where a path starts, and the segments that lead on. -/
def start (path : String) : Place × List String :=
  match Path.segments path with
  | "" :: rest => ([], rest)
  | parts => (fs.working, parts)

/-- The place that a path leads to. There need not be anything. -/
def locate (path : String) : Except FileError Place :=
  if path = "" then .error .notFound
  else (fs.start path).2.foldlM fs.enter (fs.start path).1

/-- The text of the file that a path leads to. -/
def read (path : String) : Except FileError String := do
  let place ← fs.locate path
  match fs.file? place with
  | none => throw (if fs.isDirectory place then .isDirectory else .notFound)
  | some bytes =>
    fs.allow place .read
    match String.fromUTF8? bytes with
    | some text => return text
    | none => throw .notText

/-- Whether a path leads to a file, which need not be one that can be read. -/
def isFile (path : String) : Bool :=
  match fs.locate path with
  | .ok place => (fs.file? place).isSome
  | .error _ => false

/-- Whether a path leads to a file or a directory. -/
def contains (path : String) : Bool :=
  match fs.locate path with
  | .ok place => (fs.file? place).isSome || fs.isDirectory place
  | .error _ => false

/-- The tree with other bytes in the file at a place, or with a file more. -/
def put (place : Place) (bytes : ByteArray) : Files :=
  if (fs.file? place).isSome then
    { fs with files := fs.files.map fun f => if f.1 = place then (place, bytes) else f }
  else { fs with files := fs.files ++ [(place, bytes)] }

/-- Fail if no file can be written at a place. For a file that is not there yet, its directory has
to be, and has to take it. -/
def allowWriting (place : Place) : Except FileError Unit := do
  if fs.isDirectory place then throw .isDirectory
  if (fs.file? place).isNone then
    if !fs.isDirectory place.dropLast then throw .notFound
    fs.allow place.dropLast .write
  fs.allow place .write

/-- The tree after a text is written to the file that a path leads to. A path that ends in a slash
leads to no file. -/
def write (path text : String) : Except FileError Files := do
  let place ← fs.locate (Path.trimSlashes path)
  if path.endsWith "/" then throw .isDirectory
  fs.allowWriting place
  return fs.put place text.toUTF8

/-- The names of the directories in the working directory, in order, each once. -/
def topDirectories : List String :=
  let entries := (fs.directories ++ fs.links.map Prod.fst).filter fun place =>
    fs.isDirectory (fs.follow place)
  let names := entries.filterMap fun place =>
    place.getLast?.filter fun name => place = fs.working ++ [name]
  names.eraseDups.mergeSort fun a b => !(b < a)

end Files

end GridGame
