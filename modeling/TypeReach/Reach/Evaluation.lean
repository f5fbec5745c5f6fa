import TypeReach.Hint.Basic
import TypeReach.Reach.Registry

/-!
# Evaluation of units

A unit is accepted when it is not excluded, resolves, and every type listed by
its conditions resolves.  An accepted unit is registered together with the
types that its conditions list, and its imports and nested types are evaluated
in turn.  A rejected unit registers nothing and nothing below it is visited,
but a unit that imports it is not rejected for that.
-/

namespace TypeReach.Reach

/-- Why a unit was rejected. -/
inductive RejectReason where
  /-- The unit itself does not resolve. -/
  | unresolvable
  /-- A condition lists a type that does not resolve. -/
  | missingReference (missing : TypeName) (chain : List TypeName)
  | excluded
  deriving DecidableEq, Repr

/-- The words for a reason. -/
def RejectReason.message : RejectReason → String
  | unresolvable => "not resolvable"
  | missingReference missing chain =>
    "missing " ++ missing.dotted ++ " (via " ++ Hint.chainText chain ++ ")"
  | excluded => "excluded"

/-- A rejected unit. -/
structure Rejection where
  unit : TypeName
  reason : RejectReason
  deriving DecidableEq, Repr

/-- What a traversal has found so far. -/
structure Evaluation where
  visited : List TypeName
  registry : Registry
  rejections : List Rejection
  /-- Types listed without a condition that do not resolve. -/
  unresolved : List TypeName
  deriving DecidableEq, Repr

namespace Evaluation

def start : Evaluation := ⟨[], Registry.empty, [], []⟩

def visit (state : Evaluation) (unit : TypeName) : Evaluation :=
  { state with visited := state.visited ++ [unit] }

def register (state : Evaluation) (capabilities : CapabilitySet) (name : TypeName) :
    Evaluation :=
  { state with registry := state.registry.register name capabilities }

def reject (state : Evaluation) (unit : TypeName) (reason : RejectReason) : Evaluation :=
  { state with rejections := state.rejections ++ [⟨unit, reason⟩] }

def leave (state : Evaluation) (name : TypeName) : Evaluation :=
  { state with unresolved := state.unresolved ++ [name] }

end Evaluation

/-- What an evaluation goes by. -/
structure Rules where
  hintsOf : TypeDecl → Query (List Hint)
  isExcluded : TypeName → Bool
  /-- What is asked for each unit that is registered. -/
  capabilities : CapabilitySet

/-- Whether a hint neither is a condition nor an import. -/
def isPlain (hint : Hint) : Bool :=
  ! hint.skipIfMissing && ! hint.follow

/-- The first type of the first condition that does not resolve, with the condition's chain. -/
def failing : List Hint → Query (Option RejectReason)
  | [] => return none
  | hint :: rest => do
    match ← Query.firstMissing hint.referenced with
    | some missing => return some (.missingReference missing hint.chain)
    | none => failing rest

/-- Evaluate units one after the other. -/
def evaluateEach (visit : TypeName → Evaluation → BoundedQuery (Bool × Evaluation)) :
    List TypeName → Evaluation → BoundedQuery Evaluation
  | [], state => return state
  | unit :: rest, state => do
    let (_, state) ← visit unit state
    evaluateEach visit rest state

/-- Register the types that resolve and note the others. -/
def registerResolvable (capabilities : CapabilitySet) :
    List TypeName → Evaluation → Query Evaluation
  | [], state => return state
  | name :: rest, state => do
    if ← Query.canFind name then
      registerResolvable capabilities rest (state.register capabilities name)
    else registerResolvable capabilities rest (state.leave name)

/-- Register an accepted unit and the types that its conditions list. -/
def registerUnit (rules : Rules) (unit : TypeName) (hints : List Hint) (state : Evaluation) :
    Evaluation :=
  ((hints.filter Hint.skipIfMissing).flatMap Hint.referenced).foldl
    (Evaluation.register · .configuration ·) (state.register rules.capabilities unit)

/--
Evaluate a unit within a traversal.  A unit visited before counts as accepted,
whatever came of it.
-/
def evaluateFrom (rules : Rules) :
    Nat → TypeName → Evaluation → BoundedQuery (Bool × Evaluation)
  | 0, _, _ => .tooDeep
  | depth + 1, unit, state =>
    if unit ∈ state.visited then return (true, state)
    else if rules.isExcluded unit then
      return (false, (state.visit unit).reject unit .excluded)
    else do
      match ← Query.find unit with
      | none => return (false, (state.visit unit).reject unit .unresolvable)
      | some decl =>
        let hints ← rules.hintsOf decl
        match ← failing (hints.filter Hint.skipIfMissing) with
        | some reason => return (false, (state.visit unit).reject unit reason)
        | none =>
          let state := registerUnit rules unit hints (state.visit unit)
          let imports := (hints.filter Hint.follow).flatMap Hint.allTypes
          let state ← evaluateEach (evaluateFrom rules depth) imports state
          let state ← evaluateEach (evaluateFrom rules depth) decl.nested state
          let plain := (hints.filter isPlain).flatMap Hint.allTypes
          let state ← registerResolvable rules.capabilities plain state
          return (true, state)

/-- Evaluate a unit within a traversal. -/
def evaluate (rules : Rules) (bound : Nat) (unit : TypeName) (state : Evaluation) :
    Query (Bool × Evaluation) :=
  (evaluateFrom rules bound unit state).getD (false, state)

/-- What was decided about a candidate. -/
structure Decision where
  candidate : TypeName
  accepted : Bool
  /-- Why the candidate was rejected. -/
  reason : Option RejectReason
  registrations : Registry
  /-- The units below an accepted candidate that were rejected. -/
  pruned : List Rejection
  unresolved : List TypeName
  deriving DecidableEq, Repr

/-- The decision that a finished traversal stands for. -/
def Decision.ofEvaluation (candidate : TypeName) (accepted : Bool) (state : Evaluation) :
    Decision where
  candidate := candidate
  accepted := accepted
  reason := (state.rejections.find? fun rejection => rejection.unit = candidate).map
    Rejection.reason
  registrations := state.registry
  pruned := state.rejections.filter fun rejection => rejection.unit ≠ candidate
  unresolved := state.unresolved

/-- Evaluate one candidate in a traversal of its own. -/
def evaluateRoot (rules : Rules) (bound : Nat) (candidate : TypeName) : Query Decision := do
  let (accepted, state) ← evaluate rules bound candidate .start
  return .ofEvaluation candidate accepted state

/-- Evaluate candidates, each in a traversal of its own. -/
def evaluateAll (rules : Rules) (bound : Nat) : List TypeName → Query (List Decision)
  | [] => return []
  | candidate :: rest => do
    let decision ← evaluateRoot rules bound candidate
    let more ← evaluateAll rules bound rest
    return decision :: more

end TypeReach.Reach
