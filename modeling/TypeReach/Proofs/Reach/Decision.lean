import TypeReach.Proofs.Reach.Traversal
import TypeReach.Proofs.Resolution.Transparency

/-!
# What is decided about a candidate

The evaluation of a candidate is compared with what its world declares.  The
types that are registered, and their capabilities, are those of three roles: an
accepted unit that the candidate leads to, a type that a condition of such a
unit lists, and a resolvable type that such a unit lists without a condition.
The rejections and the types that were left out are accounted for one by one.

All statements hold for every disk and all containers, so for imports, nesting
and annotations of any shape, and for every session that began empty.
-/

namespace TypeReach.Reach

open Resolution (Session Sources)

namespace World

/-! ## The roles of registered types -/

/-- An accepted unit that a root leads to. -/
def IsUnit (world : World) (root name : TypeName) : Prop :=
  world.Reached root name ∧ world.Accepts name

/-- A type that a condition of an accepted unit lists. -/
def IsChecked (world : World) (root name : TypeName) : Prop :=
  ∃ unit, world.IsUnit root unit ∧
    ∃ hint ∈ world.hints unit,
      hint.skipIfMissing = true ∧ name ∈ hint.referenced

/-- A resolvable type of a hint of an accepted unit that is neither a condition nor an import. -/
def IsBestEffort (world : World) (root name : TypeName) : Prop :=
  world.Resolves name ∧
    ∃ unit, world.IsUnit root unit ∧
      ∃ hint ∈ world.hints unit,
        hint.skipIfMissing = false ∧ hint.follow = false ∧ name ∈ hint.allTypes

/-- The requests of a finished traversal are those of the three roles. -/
theorem Traversal.mem_flatMap_requests_iff
    {world : World} {root : TypeName} {fresh : List TypeName} {after : Evaluation}
    (traversal : world.Traversal [root] .start fresh after)
    {name : TypeName} {capabilities : CapabilitySet} :
    (name, capabilities) ∈ fresh.flatMap world.requests ↔
      (world.IsUnit root name ∨ world.IsBestEffort root name) ∧
          capabilities = world.rules.capabilities ∨
        world.IsChecked root name ∧ capabilities = .configuration := by
  have visited : ∀ unit, unit ∈ fresh ↔ world.Reached root unit := by
    intro unit
    rw [traversal.mem_fresh_iff]
    simp
  simp only [List.mem_flatMap, visited, mem_requests_iff]
  constructor
  · rintro ⟨unit, reached, accepted,
      ⟨rfl | ⟨listed, resolves⟩, same⟩ | ⟨listed, same⟩⟩
    · exact Or.inl ⟨Or.inl ⟨reached, accepted⟩, same⟩
    · exact Or.inl ⟨Or.inr ⟨resolves, unit, ⟨reached, accepted⟩,
        mem_plain_iff.mp listed⟩, same⟩
    · exact Or.inr ⟨⟨unit, ⟨reached, accepted⟩, mem_checked_iff.mp listed⟩, same⟩
  · rintro (⟨⟨reached, accepted⟩ | ⟨resolves, unit, ⟨reached, accepted⟩, listed⟩, same⟩ |
      ⟨⟨unit, ⟨reached, accepted⟩, listed⟩, same⟩)
    · exact ⟨name, reached, accepted, Or.inl ⟨Or.inl rfl, same⟩⟩
    · exact ⟨unit, reached, accepted,
        Or.inl ⟨Or.inr ⟨mem_plain_iff.mpr listed, resolves⟩, same⟩⟩
    · exact ⟨unit, reached, accepted, Or.inr ⟨mem_checked_iff.mpr listed, same⟩⟩

end World

/-! ## Registrations -/

/-- Requests that only ever ask for one of two sets. -/
theorem requested_eq_union
    {name : TypeName} {requests : List Request} {first second : CapabilitySet}
    {asksFirst asksSecond : Prop} [Decidable asksFirst] [Decidable asksSecond]
    (asked : ∀ capabilities, (name, capabilities) ∈ requests ↔
      asksFirst ∧ capabilities = first ∨ asksSecond ∧ capabilities = second) :
    requested name requests =
      if asksFirst ∨ asksSecond then
        some ((if asksFirst then first else .empty).union
          (if asksSecond then second else .empty))
      else none := by
  split
  · rename_i some
    rw [requested_eq_some_iff]
    simp only [asked]
    constructor
    · rcases some with asks | asks
      · exact ⟨first, Or.inl ⟨asks, rfl⟩⟩
      · exact ⟨second, Or.inr ⟨asks, rfl⟩⟩
    · intro capability
      rw [CapabilitySet.contains_union, Bool.or_eq_true]
      by_cases asksFirst <;> by_cases asksSecond <;> simp_all
  · rename_i none
    rw [← Option.not_isSome_iff_eq_none, requested_isSome_iff]
    rintro ⟨capabilities, member⟩
    rcases (asked capabilities).mp member with ⟨asks, _⟩ | ⟨asks, _⟩
    · exact none (Or.inl asks)
    · exact none (Or.inr asks)

/-- Within a sufficient depth, the decision about a candidate is that of a traversal. -/
theorem World.exists_traversal_evaluateRoot
    {world : World} {bound : Nat}
    (sufficient : Resolution.Suffices bound world.lookup)
    (candidate : TypeName) :
    ∃ accepted fresh after,
      (evaluate world.rules bound candidate .start).answer world.lookup =
          (accepted, after) ∧
        (evaluateRoot world.rules bound candidate).answer world.lookup =
          .ofEvaluation candidate accepted after ∧
        (accepted = true ↔ world.Accepts candidate) ∧
        world.Traversal [candidate] .start fresh after := by
  rcases exists_traversal sufficient candidate .start with
    ⟨accepted, fresh, after, evaluated, acceptance, traversal⟩
  refine ⟨accepted, fresh, after, evaluated, ?_, ?_, traversal⟩
  · simp [evaluateRoot, evaluated]
  · simpa [Evaluation.start] using acceptance

open Classical in
/--
The registrations of a candidate are the declared ones.  A type is registered
exactly in its roles; the evaluation's own capabilities go to units and to types
listed without a condition, and those of configurations to types that a
condition lists.
-/
theorem get?_registrations_evaluateRoot
    (sources : Sources) (rules : Rules) (earlier : Query α)
    (candidate name : TypeName) :
    let world : World := ⟨sources.lookup, rules⟩
    let decision := Session.resultAfter sources earlier
      (evaluateRoot rules sources.depthBound candidate)
    decision.registrations.get? name =
      if (world.IsUnit candidate name ∨ world.IsBestEffort candidate name) ∨
          world.IsChecked candidate name then
        some
          ((if world.IsUnit candidate name ∨ world.IsBestEffort candidate name
              then rules.capabilities else .empty).union
            (if world.IsChecked candidate name
              then .configuration else .empty))
      else none := by
  intro world decision
  have sufficient : Resolution.Suffices sources.depthBound world.lookup :=
    sources.suffices_depthBound
  rcases World.exists_traversal_evaluateRoot sufficient candidate with
    ⟨accepted, fresh, after, _, decided, _, traversal⟩
  have registrations : decision.registrations = after.registry := by
    rw [show decision = _ from Session.resultAfter_eq_answer sources earlier _]
    exact congrArg Decision.registrations decided
  rw [registrations, traversal.get?_registry]
  exact requested_eq_union fun _ => traversal.mem_flatMap_requests_iff

/-! ## Rejections and leftovers -/

namespace World

theorem map_unit_filterMap_rejection?
    (world : World) (units : List TypeName) :
    (units.filterMap world.rejection?).map Rejection.unit =
      units.filter fun unit => (world.verdict unit).isSome := by
  induction units with
  | nil => rfl
  | cons unit rest inductive_hypothesis =>
      cases judged : world.verdict unit with
      | none => simp [rejection?, judged, inductive_hypothesis]
      | some reason => simp [rejection?, judged, inductive_hypothesis]

/-- A finished traversal notes one rejection for each reached unit that is not accepted. -/
theorem Traversal.rejected
    {world : World} {root : TypeName} {fresh : List TypeName} {after : Evaluation}
    (traversal : world.Traversal [root] .start fresh after) :
    (after.rejections.map Rejection.unit).Nodup ∧
      ∀ unit, unit ∈ after.rejections.map Rejection.unit ↔
        world.Reached root unit ∧ ¬ world.Accepts unit := by
  have rejected : after.rejections.map Rejection.unit =
      fresh.filter fun unit => (world.verdict unit).isSome := by
    rw [traversal.rejections]
    exact world.map_unit_filterMap_rejection? fresh
  rw [rejected]
  refine ⟨traversal.distinct.filter _, ?_⟩
  intro unit
  rw [List.mem_filter, traversal.mem_fresh_iff, not_accepts_iff,
    Option.isSome_iff_exists]
  simp

theorem flatMap_leftOver
    (world : World) (units : List TypeName) :
    units.flatMap world.leftOver =
      (units.filter fun unit => (world.verdict unit).isNone).flatMap
        world.unresolvable := by
  induction units with
  | nil => rfl
  | cons unit rest inductive_hypothesis =>
      cases judged : world.verdict unit with
      | none => simp [leftOver, judged, inductive_hypothesis]
      | some reason => simp [leftOver, judged, inductive_hypothesis]

/-- A finished traversal leaves out what its accepted units list in vain, once for each. -/
theorem Traversal.leftOut
    {world : World} {root : TypeName} {fresh : List TypeName} {after : Evaluation}
    (traversal : world.Traversal [root] .start fresh after) :
    ∃ units : List TypeName, units.Nodup ∧
      (∀ unit, unit ∈ units ↔ world.IsUnit root unit) ∧
      after.unresolved.Perm (units.flatMap world.unresolvable) := by
  refine ⟨fresh.filter fun unit => (world.verdict unit).isNone,
    traversal.distinct.filter _, ?_, ?_⟩
  · intro unit
    rw [List.mem_filter, traversal.mem_fresh_iff, Option.isNone_iff_eq_none,
      verdict_eq_none_iff]
    simp [IsUnit]
  · rw [← flatMap_leftOver]
    exact traversal.unresolved

end World

/-- A candidate that was not rejected has no reason, and all rejections are below it. -/
theorem Decision.ofEvaluation_of_not_mem
    {candidate : TypeName} {state : Evaluation}
    (absent : candidate ∉ state.rejections.map Rejection.unit)
    (accepted : Bool) :
    (Decision.ofEvaluation candidate accepted state).reason = none ∧
      (Decision.ofEvaluation candidate accepted state).pruned = state.rejections := by
  have different : ∀ rejection ∈ state.rejections, rejection.unit ≠ candidate := by
    intro rejection member same
    exact absent (List.mem_map.mpr ⟨rejection, member, same⟩)
  constructor
  · have none : state.rejections.find?
        (fun rejection => decide (rejection.unit = candidate)) = none := by
      rw [List.find?_eq_none]
      intro rejection member
      simpa using different rejection member
    simp [Decision.ofEvaluation, none]
  · apply List.filter_eq_self.mpr
    intro rejection member
    simpa using different rejection member

/-- A rejected candidate shows its reason and nothing else. -/
theorem World.answer_evaluateRoot_rejected
    {world : World} {bound : Nat}
    (sufficient : Resolution.Suffices bound world.lookup)
    {candidate : TypeName} {reason : RejectReason}
    (rejected : world.verdict candidate = some reason) :
    (evaluateRoot world.rules bound candidate).answer world.lookup =
      ⟨candidate, false, some reason, .empty, [], []⟩ := by
  have unvisited : candidate ∉ Evaluation.start.visited := List.not_mem_nil
  have evaluated := answer_evaluate_rejected sufficient unvisited rejected
  rw [evaluateRoot, Query.answer_bind, evaluated]
  simp [Decision.ofEvaluation, Evaluation.reject, Evaluation.visit, Evaluation.start]

/--
The account of a candidate's evaluation.  The rejected units are those that are
reached and not accepted, each once.  An accepted candidate shows all of them
and is none of them; a rejected one shows its reason and nothing else.  The
types left out are those that accepted units list in vain.
-/
theorem account_evaluateRoot
    (sources : Sources) (rules : Rules) (earlier : Query α)
    (candidate : TypeName) :
    let world : World := ⟨sources.lookup, rules⟩
    let rejected := (Session.resultAfter sources earlier
      (evaluate rules sources.depthBound candidate .start)).2.rejections.map
        Rejection.unit
    let decision := Session.resultAfter sources earlier
      (evaluateRoot rules sources.depthBound candidate)
    let pruned := decision.pruned.map Rejection.unit
    (rejected.Nodup ∧
        ∀ unit, unit ∈ rejected ↔
          world.Reached candidate unit ∧ ¬ world.Accepts unit) ∧
      (decision.accepted = true ∧ decision.reason = none ∧
          pruned.Nodup ∧ candidate ∉ pruned ∧
          (∀ unit, unit ∈ pruned ↔
            world.Reached candidate unit ∧ ¬ world.Accepts unit) ∨
        decision.accepted = false ∧ decision.reason.isSome = true ∧
          decision.registrations = .empty ∧ decision.pruned = [] ∧
          decision.unresolved = []) ∧
      ∃ units : List TypeName, units.Nodup ∧
        (∀ unit, unit ∈ units ↔
          world.Reached candidate unit ∧ world.Accepts unit) ∧
        decision.unresolved.Perm (units.flatMap world.unresolvable) := by
  intro world rejected decision pruned
  have sufficient : Resolution.Suffices sources.depthBound world.lookup :=
    sources.suffices_depthBound
  rcases World.exists_traversal_evaluateRoot sufficient candidate with
    ⟨accepted, fresh, after, evaluated, decided, acceptance, traversal⟩
  rw [← Session.resultAfter_eq_answer sources earlier] at evaluated decided
  have noted : rejected = after.rejections.map Rejection.unit :=
    congrArg (fun result => result.2.rejections.map Rejection.unit) evaluated
  have unresolved : decision.unresolved = after.unresolved :=
    congrArg Decision.unresolved decided
  have account := traversal.rejected
  refine ⟨by rw [noted]; exact account, ?_, by rw [unresolved]; exact traversal.leftOut⟩
  cases judged : world.verdict candidate with
  | none =>
      have accepts := World.verdict_eq_none_iff.mp judged
      have absent : candidate ∉ after.rejections.map Rejection.unit := by
        intro member
        exact ((account.2 candidate).mp member).2 accepts
      have shown := Decision.ofEvaluation_of_not_mem absent accepted
      rw [← decided] at shown
      have isAccepted : decision.accepted = true :=
        (congrArg Decision.accepted decided).trans (acceptance.mpr accepts)
      have prunes : pruned = after.rejections.map Rejection.unit :=
        congrArg (List.map Rejection.unit) shown.2
      rw [prunes]
      exact Or.inl ⟨isAccepted, shown.1, account.1, absent, account.2⟩
  | some reason =>
      have rejects := World.answer_evaluateRoot_rejected sufficient judged
      rw [← Session.resultAfter_eq_answer sources earlier] at rejects
      rw [show decision = _ from rejects]
      exact Or.inr ⟨rfl, rfl, rfl, rfl, rfl⟩

end TypeReach.Reach
