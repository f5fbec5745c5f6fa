import TypeReach.Files.Archive
import TypeReach.Files.Path
import TypeReach.Keyed
import TypeReach.Text.Utf8

/-!
# The file system as a value

A disk holds directories, files and archives below its root, and is looked at
from a working directory.  A path is followed one segment at a time, as the
system does it: each segment but the last has to lead to a directory.  Reading
never changes a disk, and writing gives a new one.
-/

namespace TypeReach.Files

/-- What a location holds. -/
inductive Node where
  | directory
  | file (bytes : List UInt8)
  | archive (archive : Archive)
  deriving DecidableEq, Repr

def Node.isDirectory : Node → Bool
  | directory => true
  | _ => false

/-- A place on the disk: the names that lead to it from the root. -/
abbrev Location := List String

/-- The contents of a disk, and where relative paths start. -/
structure Disk where
  workingDirectory : Location
  nodes : List (Location × Node)

namespace Disk

def empty : Disk := ⟨[], []⟩

/-- What a place holds.  The root is always there. -/
def node? (disk : Disk) (location : Location) : Option Node :=
  if location = [] then some .directory else Keyed.get? location disk.nodes

def isDirectory (disk : Disk) (location : Location) : Bool :=
  match disk.node? location with
  | some node => node.isDirectory
  | none => false

/-- The number of bytes of a name. -/
def nameLength (name : String) : Nat := name.utf8ByteSize

/-- Follow segments from a place that is there.  Nothing is above the root. -/
def walk (disk : Disk) : Location → List String → Except SystemError Location
  | location, [] => .ok location
  | location, segment :: rest =>
    if ! disk.isDirectory location then .error .notADirectory
    else if Path.isIdle segment then disk.walk location rest
    else if segment = ".." then disk.walk location.dropLast rest
    else if 255 < nameLength segment then .error .nameTooLong
    else if (disk.node? (location ++ [segment])).isSome then
      disk.walk (location ++ [segment]) rest
    else .error .notFound

/-- Where a path starts. -/
def start (disk : Disk) (path : String) : Location :=
  if Path.isAbsolute path then [] else disk.workingDirectory

/-- Refuse a path that the system would not look at. -/
def checked (path : String) : Except SystemError Unit :=
  if path.toList.contains '\x00' then .error .nulInName
  else if path.isEmpty then .error .notFound
  else if 4095 < nameLength path then .error .nameTooLong
  else .ok ()

/-- The place that a path leads to. -/
def locate (disk : Disk) (path : String) : Except SystemError Location := do
  checked path
  disk.walk (disk.start path) (Path.segments path)

/-- What a path leads to. -/
def lookup (disk : Disk) (path : String) : Except SystemError Node := do
  let location ← disk.locate path
  match disk.node? location with
  | some node => return node
  | none => throw .notFound

/--
An archive seen as a plain file.  Of its bytes only the signature at the start
is kept, followed by a byte that no text holds.
-/
def archiveImage (archive : Archive) : List UInt8 :=
  match archive.entries with
  | [] => [0x50, 0x4B, 0x05, 0x06] ++ List.replicate 18 0
  | _ :: _ => [0x50, 0x4B, 0x03, 0x04, 0xFF]

/-- What can be read of a node: its bytes, and the contents of an archive. -/
def nodeContents : Node → List (List UInt8)
  | .directory => []
  | .file bytes => [bytes]
  | .archive archive => archiveImage archive :: archive.contents

/-- Everything that can be read on a disk. -/
def contents (disk : Disk) : List (List UInt8) :=
  disk.nodes.flatMap fun entry => nodeContents entry.2

/-- The bytes of a file. -/
def read (disk : Disk) (path : String) : Except SystemError (List UInt8) := do
  match ← disk.lookup path with
  | .directory => throw .isADirectory
  | .file bytes => return bytes
  | .archive archive => return archiveImage archive

/-- The text of a file. -/
def readText (disk : Disk) (path : String) : Except SystemError String := do
  let bytes ← disk.read path
  match Text.Utf8.decode? bytes with
  | some text => return String.ofList text
  | none => throw .invalidText

/-- What follows the segments of a place in those of a place below it. -/
def below? : Location → Location → Option (List String)
  | [], [] => none
  | [], rest => some rest
  | _ :: _, [] => none
  | segment :: more, other :: rest => if segment = other then below? more rest else none

/-- What is below a place and passes a test, by its name seen from there, in order. -/
def namesBelow (disk : Disk) (location : Location) (test : Node → Bool) : List String :=
  (disk.nodes.filterMap fun entry =>
    if test entry.2 then (below? location entry.1).map "/".intercalate
    else none).mergeSort fun left right => decide (left ≤ right)

/-- The files below a place, by their names seen from it, in order. -/
def filesBelow (disk : Disk) (location : Location) : List String :=
  disk.namesBelow location (! ·.isDirectory)

/-- The refusal of a directory below a place that is seen from a path, if there is one. -/
def refusalBelow? (disk : Disk) (location : Location) (path : String) : Option SystemError :=
  ((disk.namesBelow location Node.isDirectory).map (Path.join path)).findSome? fun directory =>
    match checked directory with
    | .ok () => none
    | .error error => some (.listing directory error)

/--
List the files below the directory that a path leads to.  Each directory on the
way is opened by its whole path, which can be too long.
-/
def list (disk : Disk) (path : String) : Except SystemError (List String) := do
  let location ← disk.locate path
  match disk.refusalBelow? location path with
  | some error => throw error
  | none => return disk.filesBelow location

/-! ## Writing -/

/-- The places of the directories that lead to a place from the root. -/
def above (location : Location) : List Location :=
  (List.range (location.length - 1)).map fun place => location.take (place + 1)

/-- Put a node in a place, together with the directories that lead to it. -/
def put (disk : Disk) (location : Location) (node : Node) : Disk :=
  let parents := (above location).foldl
    (fun nodes place => Keyed.setIfNew place .directory nodes) disk.nodes
  if location = [] then disk else { disk with nodes := Keyed.set location node parents }

/-- Segments without the empty ones at their end, and the last of these apart. -/
def lastSegment? (path : String) : Option (List String × String) :=
  let parts := ((Path.segments path).reverse.dropWhile (· = "")).reverse
  parts.getLast?.map fun last => (parts.dropLast, last)

/-- Create one directory. -/
def makeDirectory (disk : Disk) (path : String) : Except SystemError Disk := do
  checked path
  match lastSegment? path with
  | none => throw .alreadyExists
  | some (leading, last) =>
    let parent ← disk.walk (disk.start path) leading
    if ! disk.isDirectory parent then throw .notADirectory
    if last = "." || last = ".." then throw .alreadyExists
    if 255 < nameLength last then throw .nameTooLong
    if (disk.node? (parent ++ [last])).isSome then throw .alreadyExists
    return disk.put (parent ++ [last]) .directory

/-- Whether a path leads to a directory. -/
def leadsToDirectory (disk : Disk) (path : String) : Bool :=
  match disk.lookup path with
  | .ok node => node.isDirectory
  | .error _ => false

/-- The outcome of an operation and the disk after it, also where the operation failed. -/
abbrev Change := Except SystemError Unit × Disk

/-- Create one directory, or accept the one that is there. -/
def ensureDirectory (disk : Disk) (path : String) : Change :=
  match disk.makeDirectory path with
  | .ok made => (.ok (), made)
  | .error error => (if disk.leadsToDirectory path then .ok () else .error error, disk)

/--
Create a directory and the directories that lead to it, at most `depth` of them.
Directories that were created stay when a later one cannot be.
-/
def makeDirectoriesFrom : Nat → Disk → String → Change
  | 0, disk, _ => (.error .notFound, disk)
  | depth + 1, disk, path =>
    if path.isEmpty then (.ok (), disk)
    else
      match disk.makeDirectory path with
      | .error .notFound =>
        match Path.parent? path with
        | none => (.error .notFound, disk)
        | some parent =>
          match makeDirectoriesFrom depth disk parent with
          | (.error error, made) => (.error error, made)
          | (.ok (), made) => made.ensureDirectory path
      | _ => disk.ensureDirectory path

/-- Create a directory and the directories that lead to it, as far as they are missing. -/
def makeDirectories (disk : Disk) (path : String) : Change :=
  makeDirectoriesFrom ((Path.segments path).length + 2) disk path

/--
Write a file, in the place of an earlier one.  A path that ends in a separator
can only name a directory.
-/
def write (disk : Disk) (path : String) (bytes : List UInt8) : Except SystemError Disk := do
  checked path
  match lastSegment? path with
  | none => throw .isADirectory
  | some (leading, last) =>
    let parent ← disk.walk (disk.start path) leading
    if ! disk.isDirectory parent then throw .notADirectory
    if last = "." || last = ".." || path.toList.getLast? = some '/' then throw .isADirectory
    if 255 < nameLength last then throw .nameTooLong
    if disk.isDirectory (parent ++ [last]) then throw .isADirectory
    return disk.put (parent ++ [last]) (.file bytes)

/-- Write a text file. -/
def writeText (disk : Disk) (path text : String) : Except SystemError Disk :=
  disk.write path (Text.Utf8.encode text.toList)

end Disk

end TypeReach.Files
