import TypeReach.Proofs.Analysis.Reopening

/-!
# Corrupt artifacts count as missing

A run makes no difference between a type whose artifact cannot be used and a
type that is missing, except for the mandatory types.  Two runs are compared,
one with the artifact and one after it was deleted from its container.  They
read the same index files, ask for the same types and get the same answers, so
they come to the same conclusion, although the containers of the second one are
opened anew, list less and allow another depth.

Two conditions are needed, each for a name that is taken for something else.  The
scan of directories takes the name of an artifact for a spelling of a type, so an
artifact whose name spells another type stands for that type in the scan, whatever
it holds.  And a name that strays is read from the root of the disk through any
directory that lists a type of the unnamed package, be it corrupt.
-/

namespace TypeReach.Analysis

open Classpath (Container)
open Files (Disk)
open Resolution (Outcome Session Sources)

/-! ## Mandatory types -/

end TypeReach.Analysis
