import TypeReach.Query
import TypeReach.Resolution.Sources

/-!
# Sessions

A session remembers what was looked up and counts the containers that were
tried, so that each type is read at most once however often it is asked for.
The interfaces of a declaration are kept as well once they were asked for, and
are not looked up again.
-/

namespace TypeReach.Resolution

/-- Whose interfaces these are, and which a declaration lists. -/
abbrev InterfaceList := TypeName × List TypeName

/-- The interfaces that a declaration lists. -/
def InterfaceList.of (decl : TypeDecl) : InterfaceList := (decl.name, decl.interfaces)

/-- What was looked up so far and how many containers were tried for it. -/
structure Session where
  cache : Cache
  reads : Nat
  /-- The interfaces found for the declarations that were asked for them. -/
  interfaces : List (InterfaceList × List TypeDecl)

namespace Session

def start : Session := ⟨Cache.empty, 0, []⟩

/-- Look a type up unless that was done before. -/
def resolve (sources : Sources) (name : TypeName) : StateM Session Outcome := fun session =>
  match session.cache.get? name with
  | some outcome => (outcome, session)
  | none =>
    let outcome := sources.load name
    (outcome,
      { session with
        cache := session.cache.insert name outcome
        reads := session.reads + (sources.probeFor name).tried })

/-- Look types up one after the other and keep the declarations. -/
def resolveEach (sources : Sources) : List TypeName → StateM Session (List TypeDecl)
  | [] => return []
  | name :: rest => do
    let outcome ← resolve sources name
    let more ← resolveEach sources rest
    return outcome.decl?.toList ++ more

/-- The interfaces of a declaration, looked up unless that was done before. -/
def interfacesOf (sources : Sources) (decl : TypeDecl) : StateM Session (List TypeDecl) :=
  fun session =>
    match Keyed.get? (InterfaceList.of decl) session.interfaces with
    | some found => (found, session)
    | none =>
      let found := resolveEach sources decl.interfaces session
      (found.1,
        { found.2 with
          interfaces := Keyed.setIfNew (InterfaceList.of decl) found.1 found.2.interfaces })

/-- Answer a query. -/
def run (sources : Sources) : Query α → StateM Session α
  | .done value => pure value
  | .ask name next => do
    let outcome ← resolve sources name
    run sources (next outcome.decl?)
  | .askInterfaces decl next => do
    let interfaces ← interfacesOf sources decl
    run sources (next interfaces)

/-- The failure that an outcome is for someone who needs the type. -/
def demanded (name : TypeName) : Outcome → Except Cause TypeDecl
  | .resolved decl => .ok decl
  | .missing => .error (.notFound name.dotted)
  | .corrupt reason => .error (.corrupt name.dotted reason)

/-- The declaration of a type that has to be there. -/
def demand (sources : Sources) (name : TypeName) : StateM Session (Except Cause TypeDecl) :=
  return demanded name (← resolve sources name)

/-- The declaration of a type given in any spelling. -/
def demandSpelled (sources : Sources) (raw : String) : StateM Session (Except Cause TypeDecl) :=
  match TypeName.parse? raw with
  | some name => demand sources name
  | none => return .error (.notFound raw)

end Session

end TypeReach.Resolution
