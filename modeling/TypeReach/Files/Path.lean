import TypeReach.Text.Split

/-!
# Paths

Paths are texts with `/` between their segments and are kept as they were
given.  Only joining them and taking them apart is done here; what a path leads
to is a matter of the file system.
-/

namespace TypeReach.Files.Path

/-- The segments between the slashes. -/
def segments (path : String) : List String :=
  (path.toList.splitOn '/').map String.ofList

def isAbsolute (path : String) : Bool :=
  path.toList.head? = some '/'

/-- A path seen from a base.  An absolute path does not depend on the base. -/
def join (base relative : String) : String :=
  if isAbsolute relative || base.isEmpty then relative
  else if base.toList.getLast? = some '/' then base ++ relative
  else base ++ "/" ++ relative

/-- Whether a segment stays where it is. -/
def isIdle (segment : String) : Bool :=
  segment = "" || segment = "."

/-- Drop the idle segments at the end; a leading `.` stays. -/
def dropIdleEnd (segments : List String) : List String :=
  match segments with
  | [] => []
  | first :: rest =>
    let kept := (rest.reverse.dropWhile isIdle).reverse
    if kept.isEmpty && first = "" then [] else first :: kept

/-- The segments after the root of an absolute path, or all of a relative one. -/
def components (path : String) : List String :=
  if isAbsolute path then (segments path).filter (! isIdle ·)
  else dropIdleEnd (segments path)

/-- The path without its last component; none for a path that has no component. -/
def parent? (path : String) : Option String :=
  let parts := components path
  if parts.isEmpty then none
  else
    let kept := if isAbsolute path then parts.dropLast else dropIdleEnd parts.dropLast
    some ((if isAbsolute path then "/" else "") ++ "/".intercalate kept)

/-- The last component, unless it leads upwards. -/
def fileName? (path : String) : Option String :=
  match (components path).getLast? with
  | some name => if name = ".." || name = "." then none else some name
  | none => none

/-- What follows the last dot of the file name, if anything precedes that dot. -/
def extension? (path : String) : Option String :=
  match fileName? path with
  | none => none
  | some name =>
    match Text.cutLast? '.' name.toList with
    | some (_ :: _, ending) => some (String.ofList ending)
    | _ => none

end TypeReach.Files.Path
