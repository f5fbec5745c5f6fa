import TypeReach.Proofs.Classpath.Packages
import TypeReach.Proofs.Files.Exchange

/-!
# Containers that lose an artifact

The artifact of a type is deleted from a directory by removing its file, and
from an archive by leaving the entry out.  Every container can be opened again
after that.  What it lists is what it listed before without the artifact, other
artifacts and resources are read as before, and the packages that it holds can
only become fewer.  A container that does not lie in the same place has not
changed at all.  Artifacts of names that stray are left aside.
-/

namespace TypeReach

open Files (Archive Disk Location Node Path.IsName Path.segments)

/-! ## Deleting -/

namespace Classpath

namespace Deletes

variable {disk after : Disk} {name : TypeName} {container : Container}

end Deletes

/-! ## What is left of a container -/

/-- An entry below a container that no artifact's name leads to. -/
def IsResource
    (entry : String) :
    Prop :=
  ∀ segment ∈ Path.segments entry, Path.IsName segment ∧ stem? segment = none

instance
    (entry : String) :
    Decidable (IsResource entry) :=
  inferInstanceAs
    (Decidable (∀ segment ∈ Path.segments entry, Path.IsName segment ∧ stem? segment = none))

/-- What a container becomes when the artifact of a type was deleted. -/
structure Container.Survives
    (disk after : Disk) (name : TypeName) (container remaining : Container) :
    Prop where
  isOpen : remaining.IsOpen after
  path : remaining.path = container.path
  kind : remaining.kind = container.kind
  listing : remaining.listing after =
    (container.listing disk).filter (· ≠ name.artifact)
  read : ∀ other, other ≠ name → ¬ Strays disk other →
    container.holds disk other.package = true →
    ∀ content, container.read disk other.artifact = .ok content →
      remaining.read after other.artifact = .ok content
  resource : ∀ entry, IsResource entry →
    remaining.read after entry = container.read disk entry
  contents : remaining.contents.length ≤ container.contents.length

namespace Container.Survives

variable {disk after : Disk} {name : TypeName} {container remaining : Container}

theorem isDirectory_eq
    (survives : Container.Survives disk after name container remaining) :
    remaining.isDirectory = container.isDirectory := by
  rw [isDirectory, isDirectory, survives.kind]

end Container.Survives

section

variable {disk after : Disk} {name : TypeName} {path : String} {location place : Location}

end

namespace Deletes

variable {disk after : Disk} {name : TypeName} {container : Container}

end Deletes

end Classpath

end TypeReach
