/-!
# Malformed index files

A line of an index file that cannot be read is reported with its file and the
number of the line.
-/

namespace TypeReach.Index

/-- What is wrong with a line. -/
inductive Defect where
  | noKeyValue
  | emptyKey
  | noStereotype
  | emptyTypeName
  deriving DecidableEq, Repr

/-- The words for a defect. -/
def Defect.message : Defect → String
  | noKeyValue => "expected key=value"
  | emptyKey => "empty key"
  | noStereotype => "expected type=stereotype"
  | emptyTypeName => "empty type name"

/-- A defect and where it is. -/
structure Malformed where
  source : String
  line : Nat
  defect : Defect
  deriving DecidableEq, Repr

def Malformed.message (malformed : Malformed) : String :=
  "malformed index file " ++ malformed.source ++ s!" at line {malformed.line}: " ++
    malformed.defect.message

end TypeReach.Index
