/-!
# Glob patterns

A pattern as its parts.  What the parts stand for is said by expressions over
bytes; here they are only named.
-/

namespace TypeReach.Glob

/-- A part of a pattern. -/
inductive Token where
  | literal (character : Char)
  /-- Any one byte. -/
  | any
  /-- Any bytes, also none. -/
  | run
  /-- At the start: nothing, or anything up to a slash. -/
  | leadingPath
  /-- At the end: a slash and anything after it. -/
  | trailingPath
  /-- Between two slashes: nothing, or anything up to the second. -/
  | innerPath
  /-- One byte in the given ranges, or one outside of them. -/
  | oneOf (negated : Bool) (ranges : List (Char × Char))
  | alternatives (branches : List (List Token))

/-- A pattern with its parts. -/
structure Pattern where
  text : String
  tokens : List Token

end TypeReach.Glob
