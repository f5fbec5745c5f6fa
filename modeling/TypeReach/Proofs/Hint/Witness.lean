import Mathlib.Data.List.Forall2
import TypeReach.Proofs.Hint.Walk
import TypeReach.Proofs.Resolution.Transparency

/-!
# Hints are witnesses

Every hint of a type says what the policy of some type says, and its chain shows
where that type was found: it is the type itself, or the type of an annotation
at the end of a trail along which no type repeats.  Within the walk below one
annotation of the type, no annotation gives two hints.
-/

namespace TypeReach.Hint

open Resolution (Session Sources)

variable {lookup : TypeName → Option TypeDecl} {start : TypeDecl} {policies : PolicyTable}

/-- A hint is for the last type of its chain and says what the policy of that type says. -/
structure Obeys (policies : PolicyTable) (hint : Hint) : Prop where
  ends : hint.chain.getLast? = some hint.type
  policy : ∃ policy, policies.get? hint.type = some policy ∧
    hint.skipIfMissing = policy.skipIfMissing ∧
    hint.follow = policy.follow ∧
    hint.names = policy.names.filterMap TypeName.parse?

theorem obeys_of_hintOf?
    {leading referenced : List TypeName} {type : TypeName} {hint : Hint}
    (given : hintOf? policies leading type referenced = some hint) :
    hint.Obeys policies ∧ hint.chain = leading ++ [type] ∧ hint.type = type ∧
      hint.referenced = referenced := by
  rcases Option.map_eq_some_iff.mp given with ⟨policy, found, rfl⟩
  exact ⟨⟨List.getLast?_concat, policy, found, rfl, rfl, rfl⟩, rfl, rfl, rfl⟩

namespace Arrival

/-- What makes an annotation and the trail to it the origin of a hint. -/
structure Witnesses
    (lookup : TypeName → Option TypeDecl) (start : TypeDecl)
    (arrival : Arrival) (hint : Hint) : Prop where
  attached : ∃ host, Leads lookup start arrival.trail host ∧ arrival.last ∈ host.occurrences
  chain : hint.chain =
    start.name :: (arrival.trail ++ [arrival.last]).map Occurrence.type
  distinct : hint.chain.Nodup
  referenced : hint.referenced = arrival.last.use.valueTypes

/-- The hint that a walk gives for an annotation that it came to. -/
theorem witnesses_of_hint?
    {arrival : Arrival} {hint : Hint}
    (simple : arrival.IsSimple lookup start)
    (given : arrival.hint? policies start = some hint) :
    hint.Obeys policies ∧ arrival.Witnesses lookup start hint := by
  unfold hint? at given
  split_ifs at given with enters
  rcases obeys_of_hintOf? given with ⟨obeys, chain, _, referenced⟩
  refine ⟨obeys, simple.1, ?_, ?_, referenced⟩
  · rw [chain, ← chainOf_append_singleton]
    rfl
  · rw [chain]
    exact simple.2.append (List.nodup_singleton _) (List.disjoint_singleton.mpr enters)

end Arrival

/-- What a function gives for the elements of a list, and the elements it is given for. -/
theorem exists_forall₂_filterMap
    {α β : Type}
    (function : α → Option β) (inputs : List α) :
    ∃ origins, origins.Sublist inputs ∧
      List.Forall₂ (fun origin result => function origin = some result)
        origins (inputs.filterMap function) := by
  induction inputs with
  | nil => exact ⟨[], .refl _, .nil⟩
  | cons input rest inductive_hypothesis =>
      rcases inductive_hypothesis with ⟨origins, sublist, related⟩
      cases given : function input with
      | none =>
          rw [List.filterMap_cons_none given]
          exact ⟨origins, sublist.cons input, related⟩
      | some result =>
          rw [List.filterMap_cons_some given]
          exact ⟨input :: origins, sublist.cons_cons input, .cons given related⟩

/-- The type itself or an annotation is the origin of each hint of a declaration. -/
theorem obeys_of_mem_collect
    {bound : Nat}
    (sufficient : Resolution.Suffices bound lookup)
    {hint : Hint}
    (collected : hint ∈ (collect policies bound start).answer lookup) :
    hint.Obeys policies ∧
      (hint.chain = [start.name] ∧ hint.referenced = [] ∨
        ∃ arrival : Arrival, arrival.Witnesses lookup start hint) := by
  rcases exists_walks sufficient policies start with ⟨fresh, after, walks, all⟩
  rw [all, List.mem_append, Option.mem_toList, List.mem_flatMap] at collected
  rcases collected with own | ⟨root, attached, found⟩
  · rcases obeys_of_hintOf? own with ⟨obeys, chain, _, referenced⟩
    exact ⟨obeys, Or.inl ⟨chain, referenced⟩⟩
  · rcases walks root attached with ⟨walk, given⟩
    rw [given, List.mem_filterMap] at found
    rcases found with ⟨arrival, isFresh, given⟩
    rcases Arrival.witnesses_of_hint? (walk.simple arrival isFresh) given with
      ⟨obeys, witnesses⟩
    exact ⟨obeys, Or.inr ⟨arrival, witnesses⟩⟩

/-- The hints below one annotation of a declaration come from different places. -/
theorem exists_witnesses_collectBelow
    {bound : Nat}
    (sufficient : Resolution.Suffices bound lookup)
    {root : Occurrence}
    (attached : root ∈ start.occurrences) :
    ∃ arrivals : List Arrival,
      List.Forall₂ (fun arrival hint => arrival.Witnesses lookup start hint)
          arrivals ((collectBelow policies bound start root).answer lookup) ∧
        (∀ arrival ∈ arrivals, [root] <+: arrival.trail ++ [arrival.last]) ∧
        (arrivals.map (·.last.place)).Nodup := by
  rcases exists_walks sufficient policies start with ⟨fresh, after, walks, _⟩
  rcases walks root attached with ⟨walk, given⟩
  rcases exists_forall₂_filterMap (Arrival.hint? policies start) (fresh root) with
    ⟨arrivals, sublist, related⟩
  have simple : ∀ arrival ∈ arrivals, arrival.IsSimple lookup start :=
    fun arrival member => walk.simple arrival (sublist.subset member)
  refine ⟨arrivals, ?_, ?_, walk.distinct.sublist (sublist.map _)⟩
  · rw [given]
    exact ((List.forall₂_and_left _ _).mpr ⟨simple, related⟩).imp
      fun _ _ both => (Arrival.witnesses_of_hint? both.1 both.2).2
  · intro arrival member
    rcases walk.below arrival (sublist.subset member) with ⟨other, isRoot, isBelow⟩
    rw [← List.mem_singleton.mp isRoot]
    exact isBelow

/--
Every hint of a type is that of the type itself, or that of an annotation to
which a trail of annotations leads along different types; either way it says
what the policy of the last type says.  The hints are found below one annotation
of the type after the other, and below each of them no two come from the same
place.
-/
theorem collect_witnessed
    (sources : Sources) (policies : PolicyTable) (earlier : Query α) (decl : TypeDecl) :
    let hints := Session.resultAfter sources earlier
      (collect policies sources.depthBound decl)
    let below := fun root => Session.resultAfter sources earlier
      (collectBelow policies sources.depthBound decl root)
    (∀ hint ∈ hints, hint.Obeys policies ∧
        (hint.chain = [decl.name] ∧ hint.referenced = [] ∨
          ∃ arrival : Arrival, arrival.Witnesses sources.lookup decl hint)) ∧
      hints = (hintOf? policies [] decl.name []).toList ++ decl.occurrences.flatMap below ∧
      ∀ root ∈ decl.occurrences, ∃ arrivals : List Arrival,
        List.Forall₂ (fun arrival hint => arrival.Witnesses sources.lookup decl hint)
            arrivals (below root) ∧
          (∀ arrival ∈ arrivals, [root] <+: arrival.trail ++ [arrival.last]) ∧
          (arrivals.map (·.last.place)).Nodup := by
  intro hints below
  have sufficient := sources.suffices_depthBound
  have isHints : hints = _ := Session.resultAfter_eq_answer sources earlier _
  have isBelow : below = fun root => _ :=
    funext fun root => Session.resultAfter_eq_answer sources earlier _
  rw [isHints, isBelow]
  refine ⟨fun hint => obeys_of_mem_collect sufficient, ?_,
    fun root => exists_witnesses_collectBelow sufficient⟩
  rcases exists_walks sufficient policies decl with ⟨_, _, _, collected⟩
  exact collected

end TypeReach.Hint
