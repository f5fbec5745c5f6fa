import TypeReach.Proofs.Outline
import TypeReach.Proofs.Reach.Traversal
import TypeReach.Proofs.Resolution.Transparency

/-!
# Acceptance is local and rejection is atomic

Within a traversal that has come to any state, a unit that was not visited is
judged by itself.  What was found before it makes no difference, nor does what
becomes of the units below it.  A rejected unit leaves its rejection and the
visit behind and nothing else, and an accepted one takes nothing away from what
was registered before.
-/

namespace TypeReach.Reach

open Resolution (Session Sources)

namespace World

/-- A traversal takes nothing away from what was registered. -/
theorem Traversal.grants_of_get?
    {world : World} {roots fresh : List TypeName} {before after : Evaluation}
    (traversal : world.Traversal roots before fresh after)
    {name : TypeName} {old : CapabilitySet}
    (found : before.registry.get? name = some old) :
    after.registry.Grants name old := by
  rw [traversal.registry]
  exact Registry.grants_registerAll_of_get? found _

/-- A traversal registers each accepted root that was not visited before it. -/
theorem Traversal.grants_root
    {world : World} {roots fresh : List TypeName} {before after : Evaluation}
    (traversal : world.Traversal roots before fresh after)
    {unit : TypeName}
    (member : unit ∈ roots)
    (unvisited : unit ∉ before.visited)
    (accepted : world.Accepts unit) :
    after.registry.Grants unit world.rules.capabilities := by
  have visited := traversal.rooted unit member
  rw [traversal.visited, List.mem_append] at visited
  have isFresh : unit ∈ fresh := visited.resolve_left unvisited
  have asked : (unit, world.rules.capabilities) ∈ world.requests unit :=
    mem_requests_iff.mpr ⟨accepted, Or.inl ⟨Or.inl rfl, rfl⟩⟩
  rw [traversal.registry]
  apply Registry.grants_registerAll_of_mem
  exact List.mem_flatMap.mpr ⟨unit, isFresh, asked⟩

end World

/--
The evaluation of a unit that was not visited, from any state.  It is accepted
exactly if its world accepts it.  If it is rejected, the state gains the visit
and the one rejection, for the reason that its world gives; if it is accepted,
every registration stays and the unit has one.
-/
theorem evaluate_of_not_mem_visited
    (sources : Sources) (rules : Rules) (earlier : Query α)
    {unit : TypeName} {state : Evaluation}
    (unvisited : unit ∉ state.visited) :
    let world : World := ⟨sources.lookup, rules⟩
    let result := Session.resultAfter sources earlier
      (evaluate rules sources.depthBound unit state)
    (result.1 = true ↔ world.Accepts unit) ∧
      (result.1 = false →
        ∃ reason, world.Rejects unit reason ∧
          result.2 =
            { state with
              visited := state.visited ++ [unit]
              rejections := state.rejections ++ [⟨unit, reason⟩] }) ∧
      (result.1 = true →
        (∀ name old, state.registry.get? name = some old →
            result.2.registry.Grants name old) ∧
          result.2.registry.Grants unit rules.capabilities) := by
  intro world result
  have sufficient : Resolution.Suffices sources.depthBound world.lookup :=
    sources.suffices_depthBound
  have answered : result =
      (evaluate rules sources.depthBound unit state).answer world.lookup :=
    Session.resultAfter_eq_answer sources earlier _
  rcases World.exists_traversal sufficient unit state with
    ⟨accepted, fresh, after, evaluated, acceptance, traversal⟩
  have same : result = (accepted, after) := answered.trans evaluated
  have judgedAlone : result.1 = true ↔ world.Accepts unit := by
    rw [same, acceptance]
    exact ⟨fun either => either.resolve_left unvisited, Or.inr⟩
  refine ⟨judgedAlone, ?_, ?_⟩
  · intro isRejected
    have rejects : ¬ world.Accepts unit := by
      rw [← judgedAlone, isRejected]
      exact Bool.false_ne_true
    rcases World.not_accepts_iff.mp rejects with ⟨reason, judged⟩
    refine ⟨reason, World.verdict_eq_some_iff.mp judged, ?_⟩
    rw [answered, World.answer_evaluate_rejected sufficient unvisited judged]
    rfl
  · intro isAccepted
    rw [same]
    exact ⟨fun _ _ found => traversal.grants_of_get? found,
      traversal.grants_root (List.mem_singleton_self unit) unvisited
        (judgedAlone.mp isAccepted)⟩

/-- A condition that lists two types, the second of which is missing, after another unit. -/
theorem evaluate_of_not_mem_visited_missing :
    let sources := ClassFile.Outline.sources [{ name := "A" }]
    let condition : Hint :=
      ⟨[⟨"A"⟩, ⟨"OnType"⟩], ⟨"OnType"⟩, true, false, [], [⟨"A"⟩, ⟨"B"⟩]⟩
    let rules : Rules := ⟨fun _ => pure [condition], fun _ => false, .component⟩
    let state := (Evaluation.start.visit ⟨"Z"⟩).register .component ⟨"Z"⟩
    let result := Session.resultAfter sources (Query.find ⟨"B"⟩)
      (evaluate rules sources.depthBound ⟨"A"⟩ state)
    TypeName.mk "A" ∉ state.visited ∧ result.1 = false ∧
      ∃ reason, World.Rejects ⟨sources.lookup, rules⟩ ⟨"A"⟩ reason ∧
        result.2 =
          { state with
            visited := state.visited ++ [⟨"A"⟩]
            rejections := state.rejections ++ [⟨⟨"A"⟩, reason⟩] } := by
  intro sources condition rules state result
  have unvisited : TypeName.mk "A" ∉ state.visited := by decide
  have evaluated := evaluate_of_not_mem_visited sources rules
    (Query.find ⟨"B"⟩) unvisited
  have collected : condition ∈ World.hints ⟨sources.lookup, rules⟩ ⟨"A"⟩ := by
    decide +kernel
  have missing : ¬ World.Resolves ⟨sources.lookup, rules⟩ ⟨"B"⟩ := by
    decide +kernel
  have rejected : result.1 = false := by
    apply Bool.eq_false_iff.mpr
    intro isAccepted
    have accepts := evaluated.1.mp isAccepted
    exact missing (accepts.met condition collected rfl ⟨"B"⟩ (by decide))
  exact ⟨unvisited, rejected, evaluated.2.1 rejected⟩

end TypeReach.Reach
