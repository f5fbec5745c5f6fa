import TypeReach.Hierarchy
import TypeReach.Hint.Policy

/-!
# Hints

A hint is an annotation with a policy, found on a type or on one of its
annotation types at any depth.  The chain of types from the host to the
annotation says where it was found.  A type that has a policy itself gives a
hint of its own.
-/

namespace TypeReach

/-- An annotation that has a policy, and how it was reached. -/
structure Hint where
  /-- The host, and the annotation types down to the one with the policy. -/
  chain : List TypeName
  /-- The type that the policy applies to, which ends the chain. -/
  type : TypeName
  skipIfMissing : Bool
  follow : Bool
  /-- Types that the policy names. -/
  names : List TypeName
  /-- Types that the annotation itself lists. -/
  referenced : List TypeName
  deriving DecidableEq, Repr

namespace Hint

/-- The hint of a policy for `type` at the end of a chain. -/
def ofPolicy (leading : List TypeName) (type : TypeName) (policy : Policy)
    (referenced : List TypeName) : Hint where
  chain := leading ++ [type]
  type := type
  skipIfMissing := policy.skipIfMissing
  follow := policy.follow
  names := policy.names.filterMap TypeName.parse?
  referenced := referenced

/-- The listed types and then the named ones. -/
def allTypes (hint : Hint) : List TypeName :=
  hint.referenced ++ hint.names

/-- A chain in one line. -/
def chainText (chain : List TypeName) : String :=
  " > ".intercalate (chain.map TypeName.dotted)

/-- The chain in one line. -/
def label (hint : Hint) : String :=
  chainText hint.chain

/-- The interface of selectors of imports. -/
def importSelector : TypeName := ⟨"org/springframework/context/annotation/ImportSelector"⟩

/-- The hint that a type gives at the end of a chain, if it has a policy. -/
def hintOf? (policies : PolicyTable) (leading : List TypeName) (type : TypeName)
    (referenced : List TypeName) : Option Hint :=
  (policies.get? type).map (ofPolicy leading type · referenced)

/-- An annotation in its place: the type that carries it, and its position there. -/
abbrev Place := TypeName × Nat

/-- The hints found and the places visited so far. -/
abbrev Walked := List Hint × List Place

/-- Visit annotations of `host`, the first of which has the given position. -/
def walkEach (visit : Place → AnnotationUse → List Place → BoundedQuery Walked)
    (host : TypeName) : Nat → List AnnotationUse → List Place → BoundedQuery Walked
  | _, [], visited => return ([], visited)
  | position, use :: rest, visited => do
    let (hints, visited) ← visit (host, position) use visited
    let (more, visited) ← walkEach visit host (position + 1) rest visited
    return (hints ++ more, visited)

/--
The hints of an annotation and, below it, of the annotations of its type.  An
annotation whose place was visited before gives none, nor does one whose type
is on the chain already.
-/
def walkFrom (policies : PolicyTable) :
    Nat → List TypeName → Place → AnnotationUse → List Place → BoundedQuery Walked
  | 0, _, _, _, _ => .tooDeep
  | depth + 1, chain, place, use, visited =>
    if place ∈ visited then return ([], visited)
    else if use.type ∈ chain then return ([], place :: visited)
    else do
      let own := (hintOf? policies chain use.type use.valueTypes).toList
      match ← Query.find use.type with
      | none => return (own, place :: visited)
      | some decl =>
        let (below, visited) ← walkEach (walkFrom policies depth (chain ++ [use.type]))
          decl.name 0 decl.annotations (place :: visited)
        return (own ++ below, visited)

/-- The hints below each of some annotations of `host`, each visited for itself. -/
def walkTop (policies : PolicyTable) (bound : Nat) (host : TypeName) :
    Nat → List AnnotationUse → BoundedQuery (List Hint)
  | _, [] => return []
  | position, use :: rest => do
    let (hints, _) ← walkFrom policies bound [host] (host, position) use []
    let more ← walkTop policies bound host (position + 1) rest
    return hints ++ more

/-- The hints of a type, and whether it is a selector that no policy knows. -/
structure Findings where
  hints : List Hint
  isUnknownSelector : Bool

/-- Collect the hints of a type, its own first and then in the order of its annotations. -/
def findings (policies : PolicyTable) (bound : Nat) (decl : TypeDecl) : Query Findings := do
  let own := (hintOf? policies [] decl.name []).toList
  let below ← (walkTop policies bound decl.name 0 decl.annotations).getD []
  let hints := own ++ below
  if hints.isEmpty then
    return ⟨hints, ← Hierarchy.implements bound decl importSelector⟩
  else return ⟨hints, false⟩

/-- The hints of a type. -/
def collect (policies : PolicyTable) (bound : Nat) (decl : TypeDecl) : Query (List Hint) :=
  return (← findings policies bound decl).hints

end Hint

end TypeReach
