import TypeReach.Config.Basic
import TypeReach.Proofs.Reach.Decision
import TypeReach.Proofs.Reach.Locality

/-!
# Fewer exclusions

Two evaluations that differ in their exclusions only need not visit shared units
in the same order, since an excluded unit may be the one that leads to them
first.  Their worlds can be compared all the same: whatever is not excluded by
the more, is not excluded by the fewer, so acceptance, reachability and each
role of a registered type carry over, and with them the requests.
-/

namespace TypeReach.Reach

open Resolution (Session Sources)

/-- The same rules with other exclusions. -/
def Rules.excluding
    (rules : Rules) (isExcluded : TypeName → Bool) :
    Rules :=
  { rules with isExcluded := isExcluded }

namespace World

/-- The same world with other exclusions. -/
def excluding
    (world : World) (isExcluded : TypeName → Bool) :
    World :=
  { world with rules := world.rules.excluding isExcluded }

section

variable
  {world : World} {fewer more : TypeName → Bool}
  (weaker : ∀ name, fewer name = true → more name = true)

include weaker

theorem Accepts.of_excluding
    {unit : TypeName}
    (accepted : (world.excluding more).Accepts unit) :
    (world.excluding fewer).Accepts unit where
  allowed := by
    show fewer unit = false
    rw [Bool.eq_false_iff]
    intro excluded
    have allowed : more unit = false := accepted.allowed
    rw [weaker unit excluded] at allowed
    cases allowed
  resolves := accepted.resolves
  met := accepted.met

theorem Reached.of_excluding
    {root unit : TypeName}
    (reached : (world.excluding more).Reached root unit) :
    (world.excluding fewer).Reached root unit := by
  apply reached.least
  · exact .root
  · intro unit reachedFewer accepted type below
    exact reachedFewer.step (accepted.of_excluding weaker) below

theorem IsUnit.of_excluding
    {root name : TypeName}
    (isUnit : (world.excluding more).IsUnit root name) :
    (world.excluding fewer).IsUnit root name :=
  ⟨isUnit.1.of_excluding weaker, isUnit.2.of_excluding weaker⟩

/-- Each role that a type has under more exclusions it has under fewer. -/
theorem mem_requests_of_excluding
    {root : TypeName}
    {freshFewer freshMore : List TypeName} {afterFewer afterMore : Evaluation}
    (underFewer : (world.excluding fewer).Traversal [root] .start freshFewer afterFewer)
    (underMore : (world.excluding more).Traversal [root] .start freshMore afterMore)
    {request : Request}
    (asked : request ∈ freshMore.flatMap (world.excluding more).requests) :
    request ∈ freshFewer.flatMap (world.excluding fewer).requests := by
  rw [underFewer.mem_flatMap_requests_iff]
  rcases underMore.mem_flatMap_requests_iff.mp asked with
    ⟨isUnit | ⟨resolves, unit, isUnit, listed⟩, same⟩ | ⟨⟨unit, isUnit, listed⟩, same⟩
  · exact Or.inl ⟨Or.inl (isUnit.of_excluding weaker), same⟩
  · exact Or.inl ⟨Or.inr ⟨resolves, unit, isUnit.of_excluding weaker, listed⟩, same⟩
  · exact Or.inr ⟨⟨unit, isUnit.of_excluding weaker, listed⟩, same⟩

end

end World

/-- More requests grant at least as much. -/
theorem exists_requested_of_subset
    {name : TypeName} {few many : List Request} {granted : CapabilitySet}
    (subset : few ⊆ many)
    (found : requested name few = some granted) :
    ∃ more, requested name many = some more ∧
      ∀ capability, granted.contains capability = true →
        more.contains capability = true := by
  rcases requested_eq_some_iff.mp found with ⟨⟨asked, member⟩, exactly⟩
  have some := requested_isSome_iff.mpr ⟨asked, subset member⟩
  rcases Option.isSome_iff_exists.mp some with ⟨more, foundMore⟩
  refine ⟨more, foundMore, ?_⟩
  intro capability has
  rcases (exactly capability).mp has with ⟨giving, memberGiving, gives⟩
  exact ((requested_eq_some_iff.mp foundMore).2 capability).mpr
    ⟨giving, subset memberGiving, gives⟩

/--
A candidate that is accepted under some exclusions is accepted under fewer of
them, and what is registered then is registered with fewer of them as well, with
at least the same capabilities.
-/
theorem evaluateRoot_of_excluding
    (sources : Sources) (rules : Rules) (earlier : Query α) (other : Query β)
    {fewer more : TypeName → Bool}
    (weaker : ∀ name, fewer name = true → more name = true)
    (candidate : TypeName) :
    let strict := Session.resultAfter sources earlier
      (evaluateRoot (rules.excluding more) sources.depthBound candidate)
    let lenient := Session.resultAfter sources other
      (evaluateRoot (rules.excluding fewer) sources.depthBound candidate)
    (strict.accepted = true → lenient.accepted = true) ∧
      ∀ name granted, strict.registrations.get? name = some granted →
        lenient.registrations.Grants name granted := by
  intro strict lenient
  let world : World := ⟨sources.lookup, rules⟩
  have sufficient : Resolution.Suffices sources.depthBound world.lookup :=
    sources.suffices_depthBound
  rcases @World.exists_traversal_evaluateRoot (world.excluding more) _ sufficient candidate with
    ⟨acceptedMore, freshMore, afterMore, _, decidedMore, iffMore, underMore⟩
  rcases @World.exists_traversal_evaluateRoot (world.excluding fewer) _ sufficient candidate with
    ⟨acceptedFewer, freshFewer, afterFewer, _, decidedFewer, iffFewer, underFewer⟩
  have isStrict : strict = .ofEvaluation candidate acceptedMore afterMore :=
    (Session.resultAfter_eq_answer sources earlier _).trans decidedMore
  have isLenient : lenient = .ofEvaluation candidate acceptedFewer afterFewer :=
    (Session.resultAfter_eq_answer sources other _).trans decidedFewer
  rw [isStrict, isLenient]
  constructor
  · intro accepted
    exact iffFewer.mpr ((iffMore.mp accepted).of_excluding weaker)
  · intro name granted found
    have requestedMore : requested name _ = some granted :=
      (underMore.get?_registry name).symm.trans found
    have subset : freshMore.flatMap (world.excluding more).requests ⊆
        freshFewer.flatMap (world.excluding fewer).requests :=
      fun _ asked => World.mem_requests_of_excluding weaker underFewer underMore asked
    rcases exists_requested_of_subset subset requestedMore with
      ⟨all, requestedFewer, covers⟩
    exact ⟨all, (underFewer.get?_registry name).trans requestedFewer, covers⟩

/-- A unit that is excluded or not leads to a shared one first, which stays registered. -/
theorem evaluateRoot_of_excluding_shared :
    let sources := ClassFile.Outline.sources
      [{ name := "A" }, { name := "B" }, { name := "C" }, { name := "D" }]
    let listed : TypeName → List TypeName := fun unit =>
      if unit = ⟨"A"⟩ then [⟨"B"⟩, ⟨"C"⟩] else [⟨"D"⟩]
    let rules : Rules :=
      { hintsOf := fun decl => pure
          [⟨[decl.name, ⟨"Import"⟩], ⟨"Import"⟩, false, true, [], listed decl.name⟩]
        isExcluded := fun _ => false
        capabilities := .component }
    let fewer := Config.matchesAny [⟨"X", [.literal 'X']⟩]
    let more := Config.matchesAny [⟨"X", [.literal 'X']⟩, ⟨"B", [.literal 'B']⟩]
    let decision := fun excluded =>
      Session.resultAfter sources (Query.find ⟨"D"⟩)
        (evaluateRoot (rules.excluding excluded) sources.depthBound ⟨"A"⟩)
    (∀ name, fewer name = true → more name = true) ∧
      (decision more).accepted = true ∧ (decision fewer).accepted = true ∧
      (decision more).pruned = [⟨⟨"B"⟩, .excluded⟩] ∧
      (decision more).registrations.get? ⟨"D"⟩ = some .component ∧
      (decision fewer).registrations.Grants ⟨"D"⟩ .component := by
  intro sources listed rules fewer more decision
  have weaker : ∀ name, fewer name = true → more name = true := by
    intro name excluded
    simp only [fewer, more, Config.matchesAny, List.any_cons, List.any_nil, Bool.or_false,
      Bool.or_eq_true] at excluded ⊢
    exact Or.inl excluded
  have accepted : (decision more).accepted = true := by decide +kernel
  have registered : (decision more).registrations.get? ⟨"D"⟩ = some .component := by
    decide +kernel
  have carries := evaluateRoot_of_excluding sources rules (Query.find ⟨"D"⟩)
    (Query.find ⟨"D"⟩) weaker ⟨"A"⟩
  exact ⟨weaker, accepted, carries.1 accepted, by decide +kernel, registered,
    carries.2 ⟨"D"⟩ .component registered⟩

end TypeReach.Reach
