import Mathlib.Logic.Relation
import TypeReach.Proofs.Hint.Witness
import TypeReach.Proofs.Outline

/-!
# What hints cover

The walks of a declaration, one for each of its annotations, come to every
annotation that it leads to.  A walk stops at an annotation whose type is on the
way to it, but then it is about to visit everything below that type, or the type
is that of the declaration itself, whose annotations have walks of their own.  So
no type with a policy is overlooked, however the annotation types refer to each
other.
-/

namespace TypeReach.Hint

open Resolution (Session Sources)

variable
  {lookup : TypeName → Option TypeDecl} {start : TypeDecl} {policies : PolicyTable}

/-! ## Trails and places -/

/-- A declaration carries an annotation whose type has the other declaration. -/
def Annotated (lookup : TypeName → Option TypeDecl) (host next : TypeDecl) : Prop :=
  ∃ use ∈ host.annotations, lookup use.type = some next

theorem exists_occurrence_iff
    {decl : TypeDecl} {holds : AnnotationUse → Prop} :
    (∃ occurrence ∈ decl.occurrences, holds occurrence.use) ↔
      ∃ use ∈ decl.annotations, holds use := by
  constructor
  · rintro ⟨occurrence, attached, holding⟩
    have found := (TypeDecl.mem_occurrences_iff.mp attached).2
    exact ⟨occurrence.use, List.mem_of_getElem? found, holding⟩
  · rintro ⟨use, member, holding⟩
    rcases List.getElem?_of_mem member with ⟨position, found⟩
    exact ⟨⟨decl.name, position, use⟩, TypeDecl.mem_occurrences_iff.mpr ⟨rfl, found⟩, holding⟩

theorem exists_leads_iff
    {host : TypeDecl} :
    (∃ trail, Leads lookup start trail host) ↔
      Relation.ReflTransGen (Annotated lookup) start host := by
  constructor
  · rintro ⟨trail, leads⟩
    induction leads with
    | nil => exact .refl
    | snoc _ attached found inductive_hypothesis =>
        exact inductive_hypothesis.tail
          (exists_occurrence_iff.mp ⟨_, attached, found⟩)
  · intro reached
    induction reached with
    | refl => exact ⟨[], .nil⟩
    | tail _ annotated inductive_hypothesis =>
        rcases inductive_hypothesis with ⟨trail, leads⟩
        rcases exists_occurrence_iff.mpr annotated with ⟨occurrence, attached, found⟩
        exact ⟨_, leads.snoc attached found⟩

section

variable
  (sound : ∀ name decl, lookup name = some decl → decl.name = name)
  (resolved : lookup start.name = some start)

include sound resolved

/-- Whatever a declaration leads to is what its name resolves to. -/
theorem Leads.lookup_name
    {trail : List Occurrence} {host : TypeDecl}
    (leads : Leads lookup start trail host) :
    lookup host.name = some host := by
  cases leads with
  | nil => exact resolved
  | snoc _ _ found =>
      rw [sound _ _ found]
      exact found

/-- What is led to is told by its name. -/
theorem Leads.host_eq
    {trail other : List Occurrence} {host otherHost : TypeDecl}
    (leads : Leads lookup start trail host)
    (otherLeads : Leads lookup start other otherHost)
    (same : otherHost.name = host.name) :
    otherHost = host := by
  have resolves := leads.lookup_name sound resolved
  have otherResolves := otherLeads.lookup_name sound resolved
  rw [same, resolves] at otherResolves
  exact (Option.some.inj otherResolves).symm

/-- A place tells which annotation it is. -/
theorem Leads.occurrence_eq
    {trail other : List Occurrence} {host otherHost : TypeDecl}
    {occurrence otherOccurrence : Occurrence}
    (leads : Leads lookup start trail host)
    (attached : occurrence ∈ host.occurrences)
    (otherLeads : Leads lookup start other otherHost)
    (otherAttached : otherOccurrence ∈ otherHost.occurrences)
    (same : otherOccurrence.place = occurrence.place) :
    otherOccurrence = occurrence := by
  rcases Prod.mk.inj same with ⟨sameName, samePosition⟩
  rcases TypeDecl.mem_occurrences_iff.mp attached with ⟨named, found⟩
  rcases TypeDecl.mem_occurrences_iff.mp otherAttached with ⟨otherNamed, otherFound⟩
  have sameHost := leads.host_eq sound resolved otherLeads
    (otherNamed.symm.trans (sameName.trans named))
  rw [sameHost, samePosition, found] at otherFound
  exact Occurrence.ext sameName samePosition (Option.some.inj otherFound).symm

end

/-! ## Arrivals -/

/-- A type that a walk comes to was entered by it, unless the walk started there. -/
theorem Walk.exists_entered
    {roots : List Occurrence} {fresh : List Arrival} {before after : List Place}
    (walk : Walk lookup start [] roots before fresh after)
    {arrival : Arrival}
    (isFresh : arrival ∈ fresh)
    (elsewhere : arrival.last.type ≠ start.name) :
    ∃ earlier ∈ fresh, earlier.last.type = arrival.last.type ∧ earlier.Enters start := by
  by_cases enters : arrival.Enters start
  · exact ⟨arrival, isFresh, rfl, enters⟩
  · have onChain := not_not.mp enters
    apply (walk.entered arrival isFresh _ onChain).resolve_left
    simpa using elsewhere

section

variable
  (sound : ∀ name decl, lookup name = some decl → decl.name = name)
  (resolved : lookup start.name = some start)
  {fresh : Occurrence → List Arrival} {after : Occurrence → List Place}
  (walks : ∀ root ∈ start.occurrences,
    Walk lookup start [] [root] [] (fresh root) (after root))

include sound resolved walks

theorem Leads.arrival_of_visited
    {trail : List Occurrence} {host : TypeDecl} {occurrence root : Occurrence}
    (leads : Leads lookup start trail host)
    (attached : occurrence ∈ host.occurrences)
    (isRoot : root ∈ start.occurrences)
    (visited : occurrence.place ∈ after root) :
    ∃ arrival ∈ fresh root, arrival.last = occurrence := by
  rcases (walks root isRoot).exists_arrival visited with ⟨arrival, isFresh, same⟩
  rcases (walks root isRoot).simple arrival isFresh with ⟨⟨_, otherLeads, otherAttached⟩, _⟩
  exact ⟨arrival, isFresh,
    leads.occurrence_eq sound resolved attached otherLeads otherAttached same⟩

/-- Each annotation that a declaration leads to is visited by one of the walks. -/
theorem Leads.visited
    {trail : List Occurrence} {host : TypeDecl}
    (leads : Leads lookup start trail host) :
    ∀ occurrence ∈ host.occurrences,
      ∃ root ∈ start.occurrences, occurrence.place ∈ after root := by
  have own : ∀ occurrence ∈ start.occurrences,
      ∃ root ∈ start.occurrences, occurrence.place ∈ after root := by
    intro occurrence attached
    exact ⟨occurrence, attached,
      (walks occurrence attached).rooted _ (List.mem_singleton_self _)⟩
  induction leads with
  | nil => exact own
  | @snoc trail host next occurrence leads attached found inductive_hypothesis =>
      by_cases back : occurrence.type = start.name
      · rw [back, resolved] at found
        rw [← Option.some.inj found]
        exact own
      · rcases inductive_hypothesis occurrence attached with ⟨root, isRoot, visited⟩
        rcases leads.arrival_of_visited sound resolved walks attached isRoot visited with
          ⟨arrival, isFresh, rfl⟩
        rcases (walks root isRoot).exists_entered isFresh back with
          ⟨earlier, isEarlier, same, enters⟩
        rw [← same] at found
        intro below attachedBelow
        exact ⟨root, isRoot, (walks root isRoot).closed earlier isEarlier enters next found
          below attachedBelow⟩

/-- One of the walks comes to each annotation that a declaration leads to. -/
theorem Leads.exists_arrival
    {trail : List Occurrence} {host : TypeDecl} {occurrence : Occurrence}
    (leads : Leads lookup start trail host)
    (attached : occurrence ∈ host.occurrences) :
    ∃ root ∈ start.occurrences, ∃ arrival ∈ fresh root, arrival.last = occurrence := by
  rcases leads.visited sound resolved walks occurrence attached with ⟨root, isRoot, visited⟩
  exact ⟨root, isRoot,
    leads.arrival_of_visited sound resolved walks attached isRoot visited⟩

end

/-! ## Types -/

section

variable
  {bound : Nat}
  (sufficient : Resolution.Suffices bound lookup)

include sufficient

/-- An annotation that a walk enters gives a hint if its type has a policy. -/
theorem exists_hint_of_enters
    {root : Occurrence} {fresh : List Arrival} {arrival : Arrival}
    (isRoot : root ∈ start.occurrences)
    (given : (collectBelow policies bound start root).answer lookup =
      fresh.filterMap (Arrival.hint? policies start))
    (isFresh : arrival ∈ fresh)
    (enters : arrival.Enters start)
    (known : (policies.get? arrival.last.type).isSome = true) :
    ∃ hint ∈ (collect policies bound start).answer lookup,
      hint.type = arrival.last.type ∧ hint.referenced = arrival.last.use.valueTypes := by
  rcases Option.isSome_iff_exists.mp known with ⟨policy, found⟩
  refine ⟨ofPolicy (chainOf start.name arrival.trail) arrival.last.type policy
    arrival.last.use.valueTypes, ?_, rfl, rfl⟩
  rcases exists_walks sufficient policies start with ⟨_, _, _, collected⟩
  rw [collected]
  refine List.mem_append_right _ (List.mem_flatMap.mpr ⟨root, isRoot, ?_⟩)
  rw [given]
  exact List.mem_filterMap.mpr
    ⟨arrival, isFresh, (if_pos enters).trans (congrArg (Option.map _) found)⟩

/-- There is a hint for the type of each annotation with a policy that a declaration leads to. -/
theorem Leads.exists_hint
    (sound : ∀ name decl, lookup name = some decl → decl.name = name)
    (resolved : lookup start.name = some start)
    {trail : List Occurrence} {host : TypeDecl} {occurrence : Occurrence}
    (leads : Leads lookup start trail host)
    (attached : occurrence ∈ host.occurrences)
    (known : (policies.get? occurrence.type).isSome = true)
    (elsewhere : occurrence.type ≠ start.name) :
    ∃ hint ∈ (collect policies bound start).answer lookup, hint.type = occurrence.type := by
  rcases exists_walks sufficient policies start with ⟨fresh, after, walks, _⟩
  rcases leads.exists_arrival sound resolved (fun root isRoot => (walks root isRoot).1)
    attached with ⟨root, isRoot, arrival, isFresh, rfl⟩
  rcases walks root isRoot with ⟨walk, given⟩
  rcases walk.exists_entered isFresh elsewhere with ⟨earlier, isEarlier, same, enters⟩
  rw [← same] at known ⊢
  rcases exists_hint_of_enters sufficient isRoot given isEarlier enters known with
    ⟨hint, member, ofType, _⟩
  exact ⟨hint, member, ofType⟩

end

/-- The hint that a type gives for itself. -/
theorem exists_own_hint
    {bound : Nat}
    (known : (policies.get? start.name).isSome = true) :
    ∃ hint ∈ (collect policies bound start).answer lookup,
      hint.type = start.name ∧ hint.referenced = [] := by
  rcases Option.isSome_iff_exists.mp known with ⟨policy, found⟩
  refine ⟨ofPolicy [] start.name policy [], ?_, rfl, rfl⟩
  rw [answer_collect]
  apply List.mem_append_left
  rw [Option.mem_toList]
  exact congrArg (Option.map _) found

/-- The type that the last annotation of a trail has is that of the hint. -/
theorem Arrival.Witnesses.type_eq
    {arrival : Arrival} {hint : Hint}
    (witnesses : arrival.Witnesses lookup start hint)
    (obeys : hint.Obeys policies) :
    hint.type = arrival.last.type := by
  have ends := obeys.ends
  rw [witnesses.chain, List.map_append, ← List.cons_append, List.map_singleton,
    List.getLast?_concat] at ends
  exact (Option.some.inj ends).symm

theorem Obeys.type_eq
    {hint : Hint} {type : TypeName}
    (obeys : hint.Obeys policies)
    (chain : hint.chain = [type]) :
    hint.type = type := by
  have ends := obeys.ends
  rw [chain] at ends
  exact (Option.some.inj ends).symm

theorem Obeys.isSome_get?
    {hint : Hint}
    (obeys : hint.Obeys policies) :
    (policies.get? hint.type).isSome = true := by
  rcases obeys.policy with ⟨policy, found, _⟩
  rw [found]
  rfl

/--
The types of the hints of a declaration are the types with a policy among its own
type and the types of the annotations on it and on every declaration that is
reached from it through annotation types.
-/
theorem mem_types_collect
    (sources : Sources) (policies : PolicyTable) (earlier : Query α)
    {decl : TypeDecl}
    (resolved : sources.lookup decl.name = some decl)
    (type : TypeName) :
    let hints := Session.resultAfter sources earlier
      (collect policies sources.depthBound decl)
    type ∈ hints.map Hint.type ↔
      (policies.get? type).isSome = true ∧
        (type = decl.name ∨
          ∃ host, Relation.ReflTransGen (Annotated sources.lookup) decl host ∧
            ∃ use ∈ host.annotations, use.type = type) := by
  intro hints
  have sufficient := sources.suffices_depthBound
  have sound := sources.sound_lookup
  have isHints : hints = _ := Session.resultAfter_eq_answer sources earlier _
  rw [isHints, List.mem_map]
  constructor
  · rintro ⟨hint, member, rfl⟩
    rcases obeys_of_mem_collect sufficient member with
      ⟨obeys, ⟨chain, _⟩ | ⟨arrival, witnesses⟩⟩
    · exact ⟨obeys.isSome_get?, Or.inl (obeys.type_eq chain)⟩
    · refine ⟨obeys.isSome_get?, Or.inr ?_⟩
      rcases witnesses.attached with ⟨host, leads, attached⟩
      refine ⟨host, exists_leads_iff.mp ⟨_, leads⟩, ?_⟩
      rw [witnesses.type_eq obeys]
      exact exists_occurrence_iff.mp ⟨arrival.last, attached, rfl⟩
  · rintro ⟨known, found⟩
    by_cases isOwn : type = decl.name
    · rw [isOwn] at known ⊢
      rcases exists_own_hint known with ⟨hint, member, ofType, _⟩
      exact ⟨hint, member, ofType⟩
    · rcases found.resolve_left isOwn with ⟨host, reached, carried⟩
      rcases exists_leads_iff.mpr reached with ⟨trail, leads⟩
      rcases exists_occurrence_iff.mpr carried with ⟨occurrence, attached, rfl⟩
      exact leads.exists_hint sufficient sound resolved attached known isOwn

/-- Two annotation types that carry each other, one of which carries the host as well. -/
theorem mem_types_collect_mutual :
    let sources := ClassFile.Outline.sources
      [{ name := "Host", annotations := [("A", [])] },
        { name := "A", annotations := [("B", []), ("OnType", ["P"])] },
        { name := "B", annotations := [("A", []), ("Host", [])] }]
    let policies : PolicyTable := ⟨[(⟨"OnType"⟩, { skipIfMissing := true })]⟩
    ∃ decl, sources.lookup decl.name = some decl ∧ decl.name = ⟨"Host"⟩ ∧
      (Session.resultAfter sources (Query.find ⟨"B"⟩)
        (collect policies sources.depthBound decl)).map Hint.type = [⟨"OnType"⟩] ∧
      ∃ host, Relation.ReflTransGen (Annotated sources.lookup) decl host ∧
        ∃ use ∈ host.annotations, use.type = ⟨"OnType"⟩ := by
  intro sources policies
  have computed : (sources.lookup ⟨"Host"⟩).map (fun decl =>
      (Session.resultAfter sources (Query.find ⟨"B"⟩)
        (collect policies sources.depthBound decl)).map Hint.type) = some [⟨"OnType"⟩] := by
    decide +kernel
  rcases Option.map_eq_some_iff.mp computed with ⟨decl, found, types⟩
  have named : decl.name = ⟨"Host"⟩ := (Sources.lookup_eq_some found).1
  have resolved : sources.lookup decl.name = some decl := named.symm ▸ found
  have member : TypeName.mk "OnType" ∈ (Session.resultAfter sources (Query.find ⟨"B"⟩)
      (collect policies sources.depthBound decl)).map Hint.type := by
    rw [types]
    exact List.mem_singleton_self _
  have covered := (mem_types_collect sources policies (Query.find ⟨"B"⟩) resolved
    ⟨"OnType"⟩).mp member
  refine ⟨decl, resolved, named, types, covered.2.resolve_left ?_⟩
  rw [named]
  decide

end TypeReach.Hint
