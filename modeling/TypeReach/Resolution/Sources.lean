import TypeReach.ClassFile.Decode
import TypeReach.Classpath.Basic
import TypeReach.Resolution.Cache

/-!
# Where types come from

A type is looked for on the classpath and then in the containers of the
platform.  Its artifact is the first one found; it has to decode and to declare
the type that was asked for.
-/

namespace TypeReach.Resolution

open Files (Disk)
open Classpath (Container)

/-- The disk and the two lists of containers that types are read from. -/
structure Sources where
  disk : Disk
  classpath : Classpath
  platform : Classpath

/-- What a probe of some containers found, and how many of them it tried. -/
structure Probe where
  content : Except Cause (Option (List UInt8))
  tried : Nat

/-- Read an entry from the first container that has it. -/
def probe (disk : Disk) (entry : String) : List Container → Probe
  | [] => ⟨.ok none, 0⟩
  | container :: rest =>
    match container.read disk entry with
    | .ok none =>
      let found := probe disk entry rest
      ⟨found.content, found.tried + 1⟩
    | content => ⟨content, 1⟩

/-- What the bytes of an artifact say about the type that they were found for. -/
def judge (name : TypeName) (bytes : List UInt8) : Outcome :=
  match ClassFile.decode bytes with
  | .error fault => .corrupt fault.message
  | .ok decl =>
    if decl.name = name then .resolved decl
    else .corrupt ("artifact " ++ name.artifact ++ " declares " ++ decl.name.dotted)

namespace Sources

/-- The containers to search for a type, in order. -/
def candidates (sources : Sources) (name : TypeName) : List Container :=
  sources.classpath.candidates name ++ sources.platform.candidates name

/-- The probe for a type's artifact. -/
def probeFor (sources : Sources) (name : TypeName) : Probe :=
  probe sources.disk name.artifact (sources.candidates name)

/-- Look a type up.  A container that cannot be read makes the type corrupt. -/
def load (sources : Sources) (name : TypeName) : Outcome :=
  match (sources.probeFor name).content with
  | .ok none => .missing
  | .ok (some bytes) => judge name bytes
  | .error cause => .corrupt cause.message

/-- The declaration of a type. -/
def lookup (sources : Sources) (name : TypeName) : Option TypeDecl :=
  (sources.load name).decl?

/-- Everything that an artifact can be read from. -/
def contents (sources : Sources) : List (List UInt8) :=
  sources.disk.contents ++
    (sources.classpath.containers ++ sources.platform.containers).flatMap Container.contents

/--
How deep a traversal may go: one level for each content that can be an
artifact, since a content declares one type only, and one more.
-/
def depthBound (sources : Sources) : Nat :=
  sources.contents.length + 1

end Sources

end TypeReach.Resolution
