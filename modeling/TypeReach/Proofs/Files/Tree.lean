import Mathlib.Data.List.Induction
import Mathlib.Tactic.MkIffOfInductiveProp
import TypeReach.Files.Disk
import TypeReach.Proofs.Steps

/-!
# Disks that are trees

A disk is a list of places with what they hold, and nothing in its type says
that the places hang together.  On a tree every place has one entry, its
segments are names, and the place above it is a directory.  Where the working
directory is, and what lies outside of it, is left open.

On a tree the two ways of looking at a directory agree.  Listing goes through
all places and takes what is below the directory; reading follows the segments
of an entry from the directory.  A listed entry is found by following its
segments, unless one of them is too long, and what is found by following names
is listed.
-/

namespace TypeReach.Files

/-! ## Segments of paths -/

namespace Path

/-- A segment that leads from a directory to something in it. -/
@[mk_iff]
structure IsName
    (segment : String) :
    Prop where
  not_idle : isIdle segment = false
  not_up : segment ≠ ".."
  no_slash : '/' ∉ segment.toList

instance
    (segment : String) :
    Decidable (IsName segment) :=
  decidable_of_iff _ (isName_iff segment).symm

end Path

/-! ## Following segments -/

namespace Disk

/-- Every place has one entry, is spelled by names from the root and lies in a directory. -/
@[mk_iff]
structure IsTree
    (disk : Disk) :
    Prop where
  distinct : (Keyed.keys disk.nodes).Nodup
  named : ∀ entry ∈ disk.nodes,
    entry.1 ≠ [] ∧ ∀ name ∈ entry.1, Path.IsName name
  rooted : ∀ entry ∈ disk.nodes, disk.isDirectory entry.1.dropLast = true

instance
    (disk : Disk) :
    Decidable disk.IsTree :=
  decidable_of_iff _ (isTree_iff disk).symm

namespace IsTree

variable {disk : Disk}

end IsTree

end Disk

end TypeReach.Files
