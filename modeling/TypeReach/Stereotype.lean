import TypeReach.Hierarchy

/-!
# Stereotypes

A component is listed under a stereotype: the type that carries the marker of
indexed types among its annotations and their annotations, or the marker of
persistent entities, or else an indexed type among its supertypes.
-/

namespace TypeReach.Stereotype

/-- The annotation type that marks indexed types. -/
def indexed : TypeName := ⟨"org/springframework/stereotype/Indexed"⟩

/-- The annotation type that marks persistent entities. -/
def entity : TypeName := ⟨"javax/persistence/Entity"⟩

/--
Look for a marker among annotations of `host`, and below each annotation type
that was not seen before by the given visit.
-/
def carrierAmong (marker host : TypeName)
    (visit : TypeDecl → List TypeName → BoundedQuery Hierarchy.Found) :
    List AnnotationUse → List TypeName → BoundedQuery Hierarchy.Found
  | [], seen => return (none, seen)
  | use :: rest, seen =>
    if use.type ∈ seen then carrierAmong marker host visit rest seen
    else if use.type = marker then return (some host, use.type :: seen)
    else do
      match ← Query.find use.type with
      | none => carrierAmong marker host visit rest (use.type :: seen)
      | some decl =>
        match ← visit decl (use.type :: seen) with
        | (some name, seen) => return (some name, seen)
        | (none, seen) => carrierAmong marker host visit rest seen

/-- The first type below a declaration that carries a marker itself. -/
def carrierFrom (marker : TypeName) :
    Nat → TypeDecl → List TypeName → BoundedQuery Hierarchy.Found
  | 0, _, _ => .tooDeep
  | depth + 1, decl, seen =>
    carrierAmong marker decl.name (carrierFrom marker depth) decl.annotations seen

/--
The type that carries a marker itself, among a declaration, its annotation
types, the annotation types of these and so on.
-/
def carrier (bound : Nat) (marker : TypeName) (decl : TypeDecl) : Query (Option TypeName) :=
  return (← (carrierFrom marker bound decl []).getD (none, [])).1

/-- The stereotype under which a type is listed as a component. -/
def of (bound : Nat) (decl : TypeDecl) : Query (Option TypeName) := do
  match ← carrier bound indexed decl with
  | some name => return some name
  | none =>
    match ← carrier bound entity decl with
    | some _ => return some entity
    | none => Hierarchy.search bound (·.carries indexed) decl

end TypeReach.Stereotype
