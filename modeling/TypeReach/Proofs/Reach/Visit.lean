import TypeReach.Proofs.Reach.Registrations
import TypeReach.Proofs.Reach.Verdict

/-!
# What one visit of a unit does

The evaluation of a unit has three outcomes: it was visited before and nothing
happens, it is rejected and one rejection is noted, or it is accepted.  An
accepted unit is entered, the units below it are evaluated, and then it is
settled.  The equations here say so once, in terms of the world's answers; no
later proof opens the evaluation itself.
-/

namespace TypeReach.Reach

/-- Evaluating one list of units after another is evaluating both in one go. -/
theorem answer_evaluateEach_append
    (lookup : TypeName → Option TypeDecl)
    (visit : TypeName → Evaluation → BoundedQuery (Bool × Evaluation))
    (first second : List TypeName) (state : Evaluation) :
    (evaluateEach visit (first ++ second) state).run.answer lookup =
      ((evaluateEach visit first state).run.answer lookup).bind fun between =>
        (evaluateEach visit second between).run.answer lookup := by
  induction first generalizing state with
  | nil => simp [evaluateEach]
  | cons unit rest inductive_hypothesis =>
      simp [evaluateEach, inductive_hypothesis, Option.bind_assoc]

namespace World

/-! ## What a unit leads to and what it asks for -/

/-- The types that a unit imports. -/
def imports (world : World) (unit : TypeName) : List TypeName :=
  ((world.hints unit).filter Hint.follow).flatMap Hint.allTypes

/-- The types that the conditions of a unit list. -/
def checked (world : World) (unit : TypeName) : List TypeName :=
  ((world.hints unit).filter Hint.skipIfMissing).flatMap Hint.referenced

/-- The types of the hints that are neither conditions nor imports. -/
def plain (world : World) (unit : TypeName) : List TypeName :=
  ((world.hints unit).filter isPlain).flatMap Hint.allTypes

/-- The units that are evaluated below an accepted unit, in order. -/
def below (world : World) (unit : TypeName) : List TypeName :=
  world.imports unit ++ world.nested unit

/-- What is requested when an accepted unit is entered. -/
def entryRequests (world : World) (unit : TypeName) : List Request :=
  (unit, world.rules.capabilities) ::
    (world.checked unit).map (·, CapabilitySet.configuration)

/-- What is requested when an accepted unit is settled. -/
def exitRequests (world : World) (unit : TypeName) : List Request :=
  ((world.plain unit).filter fun name => decide (world.Resolves name)).map
    (·, world.rules.capabilities)

/-- The types that an accepted unit lists without a condition and that do not resolve. -/
def unresolvable (world : World) (unit : TypeName) : List TypeName :=
  (world.plain unit).filter fun name => ! decide (world.Resolves name)

/-- The state in which the units below an accepted unit are evaluated. -/
def enter (world : World) (unit : TypeName) (state : Evaluation) : Evaluation :=
  { state with
    visited := state.visited ++ [unit]
    registry := state.registry.registerAll (world.entryRequests unit) }

/-- The state after an accepted unit, given the one after the units below it. -/
def settle (world : World) (unit : TypeName) (state : Evaluation) : Evaluation :=
  { state with
    registry := state.registry.registerAll (world.exitRequests unit)
    unresolved := state.unresolved ++ world.unresolvable unit }

/-! ## The parts of a visit -/

theorem answer_canFind
    (world : World) (name : TypeName) :
    (Query.canFind name).answer world.lookup = decide (world.Resolves name) := by
  rw [Query.canFind, Query.answer_bind, Query.answer_pure, Query.answer_find]
  exact Bool.decide_eq_true.symm

theorem answer_firstMissing
    (world : World) (names : List TypeName) :
    (Query.firstMissing names).answer world.lookup =
      names.find? fun name => ! decide (world.Resolves name) := by
  induction names with
  | nil => rfl
  | cons name rest inductive_hypothesis =>
      rw [List.find?_cons]
      by_cases resolves : world.Resolves name
      · simp [Query.firstMissing, answer_canFind, resolves, inductive_hypothesis]
      · simp [Query.firstMissing, answer_canFind, resolves]

theorem answer_failing
    (world : World) (hints : List Hint) :
    (failing (hints.filter Hint.skipIfMissing)).answer world.lookup =
      hints.findSome? world.failure? := by
  induction hints with
  | nil => rfl
  | cons hint rest inductive_hypothesis =>
      rw [List.findSome?_cons, failure?]
      by_cases condition : hint.skipIfMissing = true
      · rw [List.filter_cons_of_pos condition, failing, Query.answer_bind,
          answer_firstMissing, if_pos condition]
        cases hint.referenced.find? fun name => ! decide (world.Resolves name) with
        | none => exact inductive_hypothesis
        | some missing => rfl
      · rw [List.filter_cons_of_neg condition, if_neg condition]
        exact inductive_hypothesis

theorem foldl_register_eq
    (capabilities : CapabilitySet) (names : List TypeName) (state : Evaluation) :
    names.foldl (Evaluation.register · capabilities ·) state =
      { state with
        registry := state.registry.registerAll (names.map (·, capabilities)) } := by
  induction names generalizing state with
  | nil => rfl
  | cons name rest inductive_hypothesis =>
      exact inductive_hypothesis (state.register capabilities name)

theorem registerUnit_eq
    (world : World) (unit : TypeName) (state : Evaluation) :
    registerUnit world.rules unit (world.hints unit) (state.visit unit) =
      world.enter unit state :=
  foldl_register_eq .configuration (world.checked unit)
    ((state.visit unit).register world.rules.capabilities unit)

theorem answer_registerResolvable
    (world : World) (names : List TypeName) (state : Evaluation) :
    (registerResolvable world.rules.capabilities names state).answer world.lookup =
      { state with
        registry := state.registry.registerAll
          ((names.filter fun name => decide (world.Resolves name)).map
            (·, world.rules.capabilities))
        unresolved := state.unresolved ++
          names.filter fun name => ! decide (world.Resolves name) } := by
  induction names generalizing state with
  | nil => simp [registerResolvable]
  | cons name rest inductive_hypothesis =>
      by_cases resolves : world.Resolves name
      · simp [registerResolvable, answer_canFind, resolves, inductive_hypothesis,
          Evaluation.register, Registry.registerAll_cons]
      · simp [registerResolvable, answer_canFind, resolves, inductive_hypothesis,
          Evaluation.leave]

/-! ## The three outcomes -/

theorem answer_evaluateFrom_visited
    (world : World) (depth : Nat) {unit : TypeName} {state : Evaluation}
    (visited : unit ∈ state.visited) :
    (evaluateFrom world.rules (depth + 1) unit state).run.answer world.lookup =
      some (true, state) := by
  simp [evaluateFrom, visited]

theorem answer_evaluateFrom_rejected
    (world : World) (depth : Nat) {unit : TypeName} {state : Evaluation}
    {reason : RejectReason}
    (unvisited : unit ∉ state.visited)
    (rejected : world.verdict unit = some reason) :
    (evaluateFrom world.rules (depth + 1) unit state).run.answer world.lookup =
      some (false, (state.visit unit).reject unit reason) := by
  unfold verdict at rejected
  split at rejected
  · rename_i excluded
    cases rejected
    simp [evaluateFrom, unvisited, excluded]
  · rename_i allowed
    split at rejected
    · rename_i resolves
      rcases Option.isSome_iff_exists.mp resolves with ⟨decl, found⟩
      rw [hints, found, ← answer_failing] at rejected
      simp [evaluateFrom, unvisited, allowed, found, rejected]
    · rename_i absent
      cases rejected
      have missing : world.lookup unit = none := by
        simpa [Resolves] using absent
      simp [evaluateFrom, unvisited, allowed, missing]

/-- What an accepted unit is evaluated by, in terms of the world. -/
theorem exists_decl_of_accepted
    {world : World} {unit : TypeName}
    (accepted : world.verdict unit = none) :
    ∃ decl, world.lookup unit = some decl ∧ decl.nested = world.nested unit ∧
      (world.rules.hintsOf decl).answer world.lookup = world.hints unit ∧
      (failing ((world.hints unit).filter Hint.skipIfMissing)).answer world.lookup = none := by
  have accepts := verdict_eq_none_iff.mp accepted
  rcases Option.isSome_iff_exists.mp accepts.resolves with ⟨decl, found⟩
  refine ⟨decl, found, ?_, ?_, ?_⟩
  · rw [World.nested, found]
  · rw [World.hints, found]
  · rw [answer_failing, List.findSome?_eq_none_iff]
    intro hint member
    exact failure?_eq_none_iff.mpr (accepts.met hint member)

theorem answer_settle
    (world : World) (unit : TypeName) (after : Evaluation) :
    (registerResolvable world.rules.capabilities
      (((world.hints unit).filter isPlain).flatMap Hint.allTypes) after).answer
        world.lookup = world.settle unit after :=
  world.answer_registerResolvable (world.plain unit) after

theorem answer_evaluateFrom_accepted
    (world : World) (depth : Nat) {unit : TypeName} {state : Evaluation}
    (unvisited : unit ∉ state.visited)
    (accepted : world.verdict unit = none) :
    (evaluateFrom world.rules (depth + 1) unit state).run.answer world.lookup =
      ((evaluateEach (evaluateFrom world.rules depth) (world.below unit)
          (world.enter unit state)).run.answer world.lookup).map
        fun after => (true, world.settle unit after) := by
  have allowed := (verdict_eq_none_iff.mp accepted).allowed
  rcases exists_decl_of_accepted accepted with ⟨decl, found, nested, hints, met⟩
  rw [below, imports, answer_evaluateEach_append, Option.map_bind]
  have settled : ∀ result : Option Evaluation,
      (result.bind fun after => some (true, world.settle unit after)) =
        result.map fun after => (true, world.settle unit after) := by
    rintro (_ | _) <;> rfl
  simp only [Function.comp_def, ← settled]
  simp [evaluateFrom, unvisited, allowed, found, hints, met, registerUnit_eq, nested,
    answer_settle]

end World

end TypeReach.Reach
