import TypeReach.Proofs.Classpath.Packages
import TypeReach.Resolution.Sources

/-!
# Searching all containers

A type is probed for in the containers that hold its package and nowhere else.
The outcome is that of the plain search, which goes through every container of
the classpath and then of the platform in the order of the precedence, and
takes the first one that lists the artifact.

The plain search knows nothing of packages.  The two are compared by one
induction over the containers in their order: one that is left out lists nothing
to be found, and one that is probed has something to read exactly if it lists
the artifact.  Only a name that strays to the root of the disk is read without
being listed.  What the search leaves open is a container that cannot be read.
It ends the search, and the type is corrupt.
-/

namespace TypeReach

open Files (Disk)

/-! ## Probes -/

namespace Resolution

open Classpath (Container)

namespace Sources

/-- All containers, in the order in which a type is looked for. -/
def everywhere
    (sources : Sources) :
    List Container :=
  Classpath.ordered sources.classpath.precedence sources.classpath.containers ++
    Classpath.ordered sources.platform.precedence sources.platform.containers

theorem mem_everywhere_iff
    {sources : Sources} {container : Container} :
    container ∈ sources.everywhere ↔
      container ∈ sources.classpath.containers ++ sources.platform.containers := by
  rw [everywhere, List.mem_append, List.mem_append, (Classpath.ordered_perm _ _).mem_iff,
    (Classpath.ordered_perm _ _).mem_iff]

/-- The packages that are kept of both lists of containers are those that they list. -/
structure AreIndexed
    (sources : Sources) :
    Prop where
  classpath : sources.classpath.IsIndexed sources.disk
  platform : sources.platform.IsIndexed sources.disk

namespace AreIndexed

variable {sources : Sources}

theorem isOpen
    (indexed : sources.AreIndexed) :
    ∀ container ∈ sources.everywhere, container.IsOpen sources.disk := by
  intro container member
  rcases List.mem_append.mp (mem_everywhere_iff.mp member) with onClasspath | onPlatform
  · exact indexed.classpath.opened container onClasspath
  · exact indexed.platform.opened container onPlatform

end AreIndexed

end Sources

end Resolution

end TypeReach
