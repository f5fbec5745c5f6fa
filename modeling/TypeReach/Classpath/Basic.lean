import TypeReach.Classpath.Container
import TypeReach.TypeName

/-!
# The classpath

The containers of a classpath are listed once, and what is kept of the listing
is the packages that each container holds types of.  A type is then looked for
only in the containers that hold its package, in an order that the precedence
fixes.
-/

namespace TypeReach

open Files (Disk)

/-- In which order containers are searched. -/
inductive Precedence where
  /-- Directories in their order, and then archives with the last one first. -/
  | directoriesFirst
  | classpathOrder
  deriving DecidableEq, Repr, Inhabited

namespace Classpath

/-- What precedes the ending of a compiled type's entry name. -/
def stem? (entry : String) : Option String :=
  (Text.before? ".class".toList entry.toList).map String.ofList

/-- The package of an entry name without its ending. -/
def packageOf (stem : String) : String :=
  match Text.cutLast? '/' stem.toList with
  | some (package, _) => String.ofList package
  | none => ""

/-- For each package the places of the containers that hold types of it, in their order. -/
abbrev Packages := List (String × List Nat)

/-- Note that the container in a place holds a package, unless it was noted last. -/
def note (place : Nat) (packages : Packages) (package : String) : Packages :=
  Keyed.alter package
    (fun holders => if holders.getLast? = some place then holders else holders ++ [place])
    [place] packages

end Classpath

/-- The containers of a classpath in the order of its entries, and what they hold. -/
structure Classpath where
  containers : List Classpath.Container
  packages : Classpath.Packages
  precedence : Precedence
  deriving DecidableEq, Repr

namespace Classpath

def empty : Classpath := ⟨[], [], .directoriesFirst⟩

/-- Open and list one more container. -/
def add (disk : Disk) (classpath : Classpath) (path : String) : Except Cause Classpath := do
  let container ← (← Container.ofPath disk path).keepOpen disk
  let names ← container.entryNames disk
  let packages := (names.filterMap stem?).map packageOf
  return { classpath with
    containers := classpath.containers ++ [container]
    packages := packages.foldl (note classpath.containers.length) classpath.packages }

/-- Open and list every container; one that is unavailable fails the whole. -/
def build (disk : Disk) (paths : List String) (precedence : Precedence) :
    Except Cause Classpath :=
  paths.foldlM (add disk) ⟨[], [], precedence⟩

/-- The number of packages that some container holds. -/
def packageCount (classpath : Classpath) : Nat :=
  classpath.packages.length

/-- The places of the containers that hold a package. -/
def holders (classpath : Classpath) (package : String) : List Nat :=
  (Keyed.get? package classpath.packages).getD []

/-- Containers in the order of a search. -/
def ordered (precedence : Precedence) (containers : List Container) : List Container :=
  match precedence with
  | .classpathOrder => containers
  | .directoriesFirst =>
    containers.filter Container.isDirectory ++
      (containers.filter (! ·.isDirectory)).reverse

/-- The containers that hold the package of a type, in the order of a search. -/
def candidates (classpath : Classpath) (name : TypeName) : List Container :=
  ordered classpath.precedence
    ((classpath.holders name.package).filterMap (classpath.containers[·]?))

/-- The first container to search for a type. -/
def locate? (classpath : Classpath) (name : TypeName) : Option Container :=
  (classpath.candidates name).head?

/-- Read an entry from each of some containers that has it. -/
def readEach (disk : Disk) (entry : String) :
    List Container → Except Cause (List (Container × List UInt8))
  | [] => .ok []
  | container :: rest => do
    let found ← container.read disk entry
    let more ← readEach disk entry rest
    match found with
    | some bytes => return (container, bytes) :: more
    | none => return more

/-- Read a resource from every container that has it, in the order of the classpath. -/
def readResource (classpath : Classpath) (disk : Disk) (entry : String) :
    Except Cause (List (Container × List UInt8)) :=
  readEach disk entry classpath.containers

/-- Whether an entry describes a module or package and no type. -/
def isDescription (stem : String) : Bool :=
  (Text.before? "module-info".toList stem.toList).isSome ||
    (Text.before? "package-info".toList stem.toList).isSome

/-- The types that entry names name. -/
def typesNamed (names : List String) : List TypeName :=
  ((names.filterMap stem?).filter (! isDescription ·)).filterMap TypeName.parse?

/-- The types kept in the directories of the classpath. -/
def directoryTypes (classpath : Classpath) (disk : Disk) : Except Cause (List TypeName) := do
  let listings ← (classpath.containers.filter Container.isDirectory).mapM (·.entryNames disk)
  return listings.flatMap typesNamed

end Classpath

end TypeReach
