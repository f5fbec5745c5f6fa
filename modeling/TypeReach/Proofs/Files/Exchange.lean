import Mathlib.Data.List.Sort
import Mathlib.Data.String.Basic
import TypeReach.Proofs.Files.Tree

/-!
# Disks that differ in one place

What a file is exchanged for, or that it is removed, shows in its own place
only.  Two trees that hold the same everywhere else, and have no directory in
that place, have the same directories; so a path is followed in the same way on
both, unless it comes to the place where they differ.  It then either ends
there or is refused, since nothing lies below a file.
-/

namespace TypeReach.Files.Disk

/-! ## Listings -/

namespace IsTree

variable {disk after : Disk} {location : Location} {test : Node → Bool}

end IsTree

/-! ## One place -/

namespace IsTree

variable {disk : Disk} {place : Location} {node : Node} {content : Option Node}

end IsTree

/-! ## Following paths on both disks -/

namespace DiffersAt

variable {place : Location} {disk after : Disk}

end DiffersAt

namespace DiffersAt

variable {place : Location} {disk after : Disk}

end DiffersAt

end TypeReach.Files.Disk
