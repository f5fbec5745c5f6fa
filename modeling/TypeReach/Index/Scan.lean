import TypeReach.Index.Components
import TypeReach.Stereotype

/-!
# Scanning for components

Where no components file exists, components are found by looking at the types
themselves.  A type nested in another component is not listed on its own.
-/

namespace TypeReach.Index.Scan

/-- The types that have a stereotype and are no annotation types, with it. -/
def stereotyped (bound : Nat) : List TypeName → Query (List (TypeName × TypeName))
  | [] => return []
  | name :: rest => do
    match ← Query.find name with
    | none => stereotyped bound rest
    | some decl =>
      if decl.access.isAnnotationType then stereotyped bound rest
      else
        match ← Stereotype.of bound decl with
        | none => stereotyped bound rest
        | some stereotype =>
          let more ← stereotyped bound rest
          return (name, stereotype) :: more

/-- The components among types with stereotypes: those not nested in another one. -/
def outermost (found : List (TypeName × TypeName)) : List (TypeName × TypeName) :=
  found.filter fun entry => ! found.any fun outer => entry.1.isNestedIn outer.1

/-- The components among some types, as a components file would list them. -/
def components (bound : Nat) (names : List TypeName) : Query Components := do
  let found ← stereotyped bound names
  return (outermost found).foldl (fun index entry => index.insert entry.1 entry.2.dotted) .empty

end TypeReach.Index.Scan
