import TypeReach.Failure
import TypeReach.Files.Disk

/-!
# Containers

A container is a directory tree or an archive with compiled types and
resources.  Opening one only finds out which of the two it is.  A directory is
looked at anew for each question, while an archive is opened once: a later
change of its file leaves its names as they were, and shows in what is read.
-/

namespace TypeReach.Classpath

open Files (Archive Disk)

/-- The kinds of containers. -/
inductive ContainerKind where
  | directory
  | archive
  deriving DecidableEq, Repr

/-- An opened container. -/
structure Container where
  path : String
  kind : ContainerKind
  /-- The archive as it was opened; none until that was done. -/
  opened : Option Archive
  deriving DecidableEq, Repr

namespace Container

def isDirectory (container : Container) : Bool :=
  container.kind = .directory

/-- Open the container that a path leads to. -/
def ofPath (disk : Disk) (path : String) : Except Cause Container :=
  match disk.lookup path with
  | .ok .directory => .ok ⟨path, .directory, none⟩
  | .ok _ => .ok ⟨path, .archive, none⟩
  | .error error => .error (.unavailable path error)

/-- The archive that a container is: the one that was opened, or what its path leads to. -/
def archive (disk : Disk) (container : Container) : Except Cause Archive :=
  match container.opened with
  | some archive => .ok archive
  | none =>
    match disk.lookup container.path with
    | .ok (.archive archive) => .ok archive
    | .ok _ => .error (.unavailable container.path .notAnArchive)
    | .error error => .error (.unavailable container.path error)

/-- What a container holds by itself: the contents of an archive that was opened. -/
def contents (container : Container) : List (List UInt8) :=
  match container.opened with
  | some archive => archive.contents
  | none => []

/-- Keep an archive open. -/
def keepOpen (disk : Disk) (container : Container) : Except Cause Container :=
  match container.kind with
  | .directory => .ok container
  | .archive => return { container with opened := some (← container.archive disk) }

/--
The names of the entries: the files below a directory in order, or everything
that an archive lists.
-/
def entryNames (disk : Disk) (container : Container) : Except Cause (List String) :=
  match container.kind with
  | .directory =>
    match disk.list container.path with
    | .ok names => .ok names
    | .error error => .error (.unavailable container.path error)
  | .archive => (container.archive disk).map Archive.names

/--
The content of an entry of an archive; none when it is absent.  Where a plain
file has taken the place of an open archive, its bytes are read.
-/
def readArchive (disk : Disk) (container : Container) (entry : String) :
    Except Cause (Option (List UInt8)) := do
  let archive ← container.archive disk
  match disk.lookup container.path with
  | .ok (.file bytes) =>
    match archive.readOver bytes entry with
    | .ok content => return content
    | .error error => throw (.unavailable container.path error)
  | _ => return archive.content? entry

/-- The content of an entry; none when it is absent. -/
def read (disk : Disk) (container : Container) (entry : String) :
    Except Cause (Option (List UInt8)) :=
  match container.kind with
  | .directory =>
    match disk.read (Files.Path.join container.path entry) with
    | .ok bytes => .ok (some bytes)
    | .error .notFound => .ok none
    | .error error => .error (.unavailable container.path error)
  | .archive => readArchive disk container entry

end Container

end TypeReach.Classpath
