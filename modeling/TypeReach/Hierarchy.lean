import TypeReach.Query

/-!
# Hierarchies of types

The supertypes of a type are its interfaces and its superclass, as far as they
can be resolved, and theirs in turn.  A search visits each type once, so that it
ends on cyclic hierarchies.
-/

namespace TypeReach.Hierarchy

/-- The type found, if any, and the types visited so far. -/
abbrev Found := Option TypeName × List TypeName

/-- Visit types one after the other until one is found. -/
def firstOf (visit : TypeDecl → List TypeName → BoundedQuery Found) :
    List TypeDecl → List TypeName → BoundedQuery Found
  | [], seen => return (none, seen)
  | decl :: rest, seen => do
    match ← visit decl seen with
    | (some name, seen) => return (some name, seen)
    | (none, seen) => firstOf visit rest seen

/--
The first type that passes a test, among a type and its supertypes: first the
type itself, then everything above its interfaces, and last everything above
its superclass.
-/
def searchFrom (test : TypeDecl → Bool) : Nat → TypeDecl → List TypeName → BoundedQuery Found
  | 0, _, _ => .tooDeep
  | depth + 1, decl, seen =>
    if decl.name ∈ seen then return (none, seen)
    else if test decl then return (some decl.name, decl.name :: seen)
    else do
      let interfaces ← Query.interfacesOf decl
      match ← firstOf (searchFrom test depth) interfaces (decl.name :: seen) with
      | (some name, seen) => return (some name, seen)
      | (none, seen) =>
        match ← Query.find? decl.superclass with
        | some superclass => searchFrom test depth superclass seen
        | none => return (none, seen)

/-- The first type that passes a test, among a type and its supertypes. -/
def search (bound : Nat) (test : TypeDecl → Bool) (decl : TypeDecl) : Query (Option TypeName) :=
  return (← (searchFrom test bound decl []).getD (none, [])).1

/-- Whether a type or one of its supertypes lists an interface. -/
def implements (bound : Nat) (decl : TypeDecl) (interface : TypeName) : Query Bool :=
  return (← search bound (·.interfaces.contains interface) decl).isSome

end TypeReach.Hierarchy
