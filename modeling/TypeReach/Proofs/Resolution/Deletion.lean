import TypeReach.Proofs.Classpath.Deletion
import TypeReach.Proofs.Resolution.Finiteness
import TypeReach.Proofs.Resolution.Search

/-!
# Looking types up after a deletion

When the artifact of a type is deleted, other types resolve as before, as far
as they could be looked up at all.  A container may no longer be probed for the
package of the type, but then it lists nothing else of that package, and a
probe would go on to the next container.  The type itself is missing, and was
not usable before.  No deeper traversal is possible than before.

Names that stray are left aside.  Their artifacts are read wherever a directory is
probed for the unnamed package, and the deletion can put an end to that.
-/

namespace TypeReach

open Files (Disk)
open Classpath (Container)

/-! ## Classpaths -/

namespace Classpath

/-- What a classpath becomes when the artifact of a type was deleted. -/
structure Survives
    (disk after : Disk) (name : TypeName) (classpath remaining : Classpath) :
    Prop where
  precedence : remaining.precedence = classpath.precedence
  indexed : classpath.IsIndexed disk
  indexedAfter : remaining.IsIndexed after
  containers : List.Forall₂ (Container.Survives disk after name)
    classpath.containers remaining.containers

variable {disk after : Disk} {name : TypeName} {classpath remaining : Classpath}

section

variable {containers kept : List Container}

end

namespace Survives

theorem ordered
    (survives : Survives disk after name classpath remaining) :
    List.Forall₂ (Container.Survives disk after name)
      (Classpath.ordered classpath.precedence classpath.containers)
      (Classpath.ordered remaining.precedence remaining.containers) := by
  rw [survives.precedence]
  cases classpath.precedence with
  | classpathOrder => exact survives.containers
  | directoriesFirst =>
      apply List.rel_append
      · apply List.rel_filter _ survives.containers
        intro container kept containerSurvives
        simp only [containerSurvives.isDirectory_eq]
      · apply List.rel_reverse
        apply List.rel_filter _ survives.containers
        intro container kept containerSurvives
        simp only [containerSurvives.isDirectory_eq]

end Survives

end Classpath

/-! ## Probes -/

namespace Resolution

namespace Sources

/-- What sources become when the artifact of a type was deleted. -/
structure Survives
    (name : TypeName) (sources remaining : Sources) :
    Prop where
  tree : sources.disk.IsTree
  treeAfter : remaining.disk.IsTree
  contents : remaining.disk.contents.length ≤ sources.disk.contents.length
  strays : ∀ other, Classpath.Strays remaining.disk other →
    Classpath.Strays sources.disk other
  classpath : Classpath.Survives sources.disk remaining.disk name
    sources.classpath remaining.classpath
  platform : Classpath.Survives sources.disk remaining.disk name
    sources.platform remaining.platform

namespace Survives

variable {name : TypeName} {sources remaining : Sources}

theorem everywhere
    (survives : Survives name sources remaining) :
    List.Forall₂ (Container.Survives sources.disk remaining.disk name)
      sources.everywhere remaining.everywhere :=
  List.rel_append survives.classpath.ordered survives.platform.ordered

theorem indexed
    (survives : Survives name sources remaining) :
    sources.AreIndexed :=
  ⟨survives.classpath.indexed, survives.platform.indexed⟩

theorem indexedAfter
    (survives : Survives name sources remaining) :
    remaining.AreIndexed :=
  ⟨survives.classpath.indexedAfter, survives.platform.indexedAfter⟩

end Survives

end Sources

end Resolution

end TypeReach
