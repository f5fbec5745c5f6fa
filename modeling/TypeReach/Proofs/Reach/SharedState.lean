import TypeReach.Proofs.Reach.Decision
import TypeReach.Proofs.Reach.Locality

/-!
# One traversal for many candidates

Candidates can be evaluated each in a traversal of its own or all in a single
one, where a unit that an earlier candidate led to is not visited again.  In
the end both register the same.  When a candidate is finished, so is everything
below it, and what a later one leaves out is there already.
-/

namespace TypeReach.Reach

open Resolution (Session Sources)

/-- Evaluate candidates one after the other in a single traversal. -/
def evaluateTogether (rules : Rules) (bound : Nat) :
    List TypeName → Evaluation → Query Evaluation
  | [], state => return state
  | candidate :: rest, state => do
    let (_, state) ← evaluate rules bound candidate state
    evaluateTogether rules bound rest state

/-- The union of what some decisions register for a name. -/
def unionFor (name : TypeName) : List Decision → Option CapabilitySet
  | [] => none
  | decision :: rest =>
      (decision.registrations.get? name).merge CapabilitySet.union
        (unionFor name rest)

theorem answer_evaluateAll_cons
    (lookup : TypeName → Option TypeDecl) (rules : Rules) (bound : Nat)
    (candidate : TypeName) (rest : List TypeName) :
    (evaluateAll rules bound (candidate :: rest)).answer lookup =
      (evaluateRoot rules bound candidate).answer lookup ::
        (evaluateAll rules bound rest).answer lookup := by
  simp [evaluateAll]

namespace World

/-- Candidates evaluated together are the roots of one traversal. -/
theorem exists_traversal_evaluateTogether
    {world : World} {bound : Nat}
    (sufficient : Resolution.Suffices bound world.lookup)
    (candidates : List TypeName) (state : Evaluation) :
    ∃ fresh after,
      (evaluateTogether world.rules bound candidates state).answer world.lookup =
          after ∧
        world.Traversal candidates state fresh after := by
  induction candidates generalizing state with
  | nil => exact ⟨[], state, rfl, .nil world state⟩
  | cons candidate rest inductive_hypothesis =>
      rcases exists_traversal sufficient candidate state with
        ⟨accepted, firstFresh, between, evaluated, _, first⟩
      rcases inductive_hypothesis between with
        ⟨secondFresh, after, evaluatedRest, second⟩
      refine ⟨firstFresh ++ secondFresh, after, ?_, first.append second⟩
      simp [evaluateTogether, evaluated, evaluatedRest]

/-- What units request depends on which units they are, not on their order. -/
theorem requested_flatMap_congr
    (world : World) {first second : List TypeName}
    (same : ∀ unit, unit ∈ first ↔ unit ∈ second) (name : TypeName) :
    requested name (first.flatMap world.requests) =
      requested name (second.flatMap world.requests) := by
  apply requested_congr
  intro capabilities
  simp only [List.mem_flatMap, same]

/-- Candidates evaluated each by itself register what the units request that they lead to. -/
theorem exists_units_unionFor_evaluateAll
    {world : World} {bound : Nat}
    (sufficient : Resolution.Suffices bound world.lookup)
    (candidates : List TypeName) :
    ∃ units : List TypeName,
      (∀ unit, unit ∈ units ↔
          ∃ candidate ∈ candidates, world.Reached candidate unit) ∧
        ∀ name,
          unionFor name
              ((evaluateAll world.rules bound candidates).answer world.lookup) =
            requested name (units.flatMap world.requests) := by
  induction candidates with
  | nil => exact ⟨[], by simp, fun _ => rfl⟩
  | cons candidate rest inductive_hypothesis =>
      rcases exists_traversal_evaluateRoot sufficient candidate with
        ⟨accepted, fresh, after, _, decided, _, traversal⟩
      rcases inductive_hypothesis with ⟨units, reached, registered⟩
      refine ⟨fresh ++ units, ?_, ?_⟩
      · intro unit
        rw [List.mem_append, traversal.mem_fresh_iff, reached]
        simp
      · intro name
        rw [answer_evaluateAll_cons, unionFor, registered, decided,
          List.flatMap_append, requested_append, ← traversal.get?_registry]
        rfl

end World

/--
Candidates evaluated in a single traversal register the union of what they
register each by itself.  So their order makes no difference, nor do
repetitions.
-/
theorem registry_evaluateTogether
    (sources : Sources) (rules : Rules) (earlier : Query α)
    (candidates : List TypeName) :
    let decisions := Session.resultAfter sources earlier
      (evaluateAll rules sources.depthBound candidates)
    let together := fun order =>
      (Session.resultAfter sources earlier
        (evaluateTogether rules sources.depthBound order .start)).registry
    (∀ name, (together candidates).get? name = unionFor name decisions) ∧
      ∀ order, (∀ unit, unit ∈ order ↔ unit ∈ candidates) →
        together order = together candidates := by
  intro decisions together
  let world : World := ⟨sources.lookup, rules⟩
  have sufficient : Resolution.Suffices sources.depthBound world.lookup :=
    sources.suffices_depthBound
  rcases World.exists_units_unionFor_evaluateAll sufficient candidates with
    ⟨units, reached, registered⟩
  have separate : decisions =
      (evaluateAll rules sources.depthBound candidates).answer world.lookup :=
    Session.resultAfter_eq_answer sources earlier _
  -- Any order of the candidates leads to the same units.
  have shared : ∀ order, (∀ unit, unit ∈ order ↔ unit ∈ candidates) →
      ∀ name, (together order).get? name = unionFor name decisions := by
    intro order same name
    rcases World.exists_traversal_evaluateTogether sufficient order .start with
      ⟨fresh, after, evaluated, traversal⟩
    have registry : together order = after.registry := by
      rw [← evaluated]
      exact congrArg Evaluation.registry
        (Session.resultAfter_eq_answer sources earlier _)
    rw [registry, traversal.get?_registry, separate, registered]
    apply world.requested_flatMap_congr
    intro unit
    rw [traversal.mem_fresh_iff, reached]
    simp only [same]
  refine ⟨shared candidates fun _ => Iff.rfl, ?_⟩
  intro order same
  apply Registry.ext_get?
  intro name
  rw [shared order same, shared candidates fun _ => Iff.rfl]

/-- Two types that import each other, in either order and with a repetition. -/
theorem registry_evaluateTogether_cycle :
    let sources := ClassFile.Outline.sources [{ name := "A" }, { name := "B" }]
    let rules : Rules :=
      { hintsOf := fun decl => pure
          [⟨[decl.name, ⟨"Import"⟩], ⟨"Import"⟩, false, true, [], [⟨"A"⟩, ⟨"B"⟩]⟩]
        isExcluded := fun _ => false
        capabilities := .component }
    let together := fun order =>
      (Session.resultAfter sources (Query.find ⟨"B"⟩)
        (evaluateTogether rules sources.depthBound order .start)).registry
    let candidates : List TypeName := [⟨"A"⟩, ⟨"B"⟩]
    let order : List TypeName := [⟨"B"⟩, ⟨"A"⟩, ⟨"B"⟩]
    (∀ unit, unit ∈ order ↔ unit ∈ candidates) ∧
      together order = together candidates := by
  intro sources rules together candidates order
  have same : ∀ unit, unit ∈ order ↔ unit ∈ candidates := by
    intro unit
    grind
  exact ⟨same, (registry_evaluateTogether sources rules (Query.find ⟨"B"⟩)
    candidates).2 order same⟩

end TypeReach.Reach
