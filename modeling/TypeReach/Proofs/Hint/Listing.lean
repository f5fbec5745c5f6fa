import TypeReach.Proofs.Hint.Coverage

/-!
# What hints list

A hint lists the types that its annotation lists.  An annotation gives no hint
on a trail that has its type on it already, and its place counts as visited all
the same, so that it is passed over on trails that do not have its type on them.
What it lists is then overlooked, or not, as the order of annotations decides.

This is the only way for a list to be overlooked.  Each annotation of the type
where the trails start has a walk of its own, so only trails that begin alike
matter: an annotation that is led to along different types gives a hint with the
very types that it lists, unless another trail with the same beginning leads
there and has its type on it.
-/

namespace TypeReach.Hint

open Resolution (Session Sources)

variable
  {lookup : TypeName → Option TypeDecl} {start : TypeDecl} {policies : PolicyTable}

/-! ## Cycles on some trails -/

/-- The type after the start of a chain, by which the rest of the chain is entered. -/
def entrance? (chain : List TypeName) : Option TypeName :=
  chain[1]?

/--
A trail along different types that leads to a declaration has the type on it,
and the chain of the trail with the type at its end has the given entrance.
-/
def IsAbove
    (lookup : TypeName → Option TypeDecl) (start : TypeDecl) (entrance : Option TypeName)
    (host : TypeDecl) (type : TypeName) :
    Prop :=
  ∃ trail, Leads lookup start trail host ∧ (chainOf start.name trail).Nodup ∧
    entrance? (chainOf start.name trail ++ [type]) = entrance ∧
      type ∈ chainOf start.name trail

/--
Every annotation with a policy that is led to along different types has an
entrance from which it closes a cycle on none of the trails.
-/
def IsSteady
    (lookup : TypeName → Option TypeDecl) (start : TypeDecl) (policies : PolicyTable) :
    Prop :=
  ∀ trail host, Leads lookup start trail host → ∀ use ∈ host.annotations,
    (policies.get? use.type).isSome = true →
      (chainOf start.name trail ++ [use.type]).Nodup →
        ∃ way, Leads lookup start way host ∧
          (chainOf start.name way ++ [use.type]).Nodup ∧
            ¬ IsAbove lookup start (entrance? (chainOf start.name way ++ [use.type])) host
              use.type

/-- A trail along different types leads to an annotation of a type that lists some types. -/
def IsListed
    (lookup : TypeName → Option TypeDecl) (start : TypeDecl)
    (type : TypeName) (referenced : List TypeName) :
    Prop :=
  ∃ trail host, Leads lookup start trail host ∧
    (chainOf start.name trail ++ [type]).Nodup ∧
      ∃ use ∈ host.annotations, use.type = type ∧ use.valueTypes = referenced

theorem entrance?_of_begins
    {root : Occurrence} {trail : List Occurrence}
    (begins : [root] <+: trail)
    (name : TypeName) :
    entrance? (chainOf name trail) = some root.type := by
  rcases begins with ⟨rest, rfl⟩
  rfl

section

variable
  {bound : Nat}
  (sufficient : Resolution.Suffices bound lookup)
  (sound : ∀ name decl, lookup name = some decl → decl.name = name)
  (resolved : lookup start.name = some start)

include sound resolved

/-- The walk of its first annotation visits what a trail along different types leads to. -/
theorem Leads.visited_below
    {fresh : Occurrence → List Arrival} {after : Occurrence → List Place}
    (walks : ∀ root ∈ start.occurrences,
      Walk lookup start [] [root] [] (fresh root) (after root))
    {trail : List Occurrence} {host : TypeDecl} {root occurrence : Occurrence}
    (leads : Leads lookup start trail host)
    (distinct : (chainOf start.name trail).Nodup)
    (attached : occurrence ∈ host.occurrences)
    (begins : [root] <+: trail ++ [occurrence]) :
    root ∈ start.occurrences ∧ occurrence.place ∈ after root := by
  induction leads generalizing occurrence with
  | nil =>
      have isRoot : root = occurrence := by simpa using begins
      rw [isRoot]
      exact ⟨attached, (walks occurrence attached).rooted _ (List.mem_singleton_self _)⟩
  | @snoc trail above next last leads attachedAbove found inductive_hypothesis =>
      rw [chainOf_append_singleton, List.nodup_append_comm, List.singleton_append,
        List.nodup_cons] at distinct
      have beginsAbove : [root] <+: trail ++ [last] :=
        List.prefix_of_prefix_length_le begins (List.prefix_append _ _) (by simp)
      rcases inductive_hypothesis distinct.2 attachedAbove beginsAbove with ⟨isRoot, visited⟩
      rcases leads.arrival_of_visited sound resolved walks attachedAbove isRoot visited with
        ⟨arrival, isFresh, rfl⟩
      have elsewhere : arrival.last.type ≠ start.name := by
        intro back
        exact distinct.1 (back ▸ List.mem_cons_self)
      rcases (walks root isRoot).exists_entered isFresh elsewhere with
        ⟨earlier, isEarlier, same, enters⟩
      rw [← same] at found
      exact ⟨isRoot, (walks root isRoot).closed earlier isEarlier enters next found
        occurrence attached⟩

include sufficient

/-- An annotation with a policy gives a hint if no trail from its entrance closes a cycle. -/
theorem Leads.exists_hint_of_not_isAbove
    {trail : List Occurrence} {host : TypeDecl} {occurrence : Occurrence}
    (leads : Leads lookup start trail host)
    (attached : occurrence ∈ host.occurrences)
    (distinct : (chainOf start.name (trail ++ [occurrence])).Nodup)
    (known : (policies.get? occurrence.type).isSome = true)
    (apart : ¬ IsAbove lookup start (entrance? (chainOf start.name (trail ++ [occurrence])))
      host occurrence.type) :
    ∃ hint ∈ (collect policies bound start).answer lookup,
      hint.type = occurrence.type ∧ hint.referenced = occurrence.use.valueTypes := by
  rcases exists_walks sufficient policies start with ⟨fresh, after, walks, _⟩
  have walk := fun root isRoot => (walks root isRoot).1
  rcases List.exists_cons_of_ne_nil (List.append_ne_nil_of_right_ne_nil trail
    (List.cons_ne_nil occurrence [])) with ⟨root, rest, split⟩
  have begins : [root] <+: trail ++ [occurrence] := ⟨rest, split.symm⟩
  have distinctAbove : (chainOf start.name trail).Nodup := by
    rw [chainOf_append_singleton] at distinct
    exact distinct.of_append_left
  rcases leads.visited_below sound resolved walk distinctAbove attached begins with
    ⟨isRoot, visited⟩
  rcases leads.arrival_of_visited sound resolved walk attached isRoot visited with
    ⟨arrival, isFresh, rfl⟩
  refine exists_hint_of_enters sufficient isRoot (walks root isRoot).2 isFresh ?_ known
  intro onChain
  -- The trail that the walk came by has the same entrance and leads to the same declaration.
  rcases (walk root isRoot).simple arrival isFresh with
    ⟨⟨other, otherLeads, otherAttached⟩, otherDistinct⟩
  rcases (walk root isRoot).below arrival isFresh with ⟨_, isTheRoot, otherBegins⟩
  rw [List.mem_singleton.mp isTheRoot, List.nil_append] at otherBegins
  have same : other = host := by
    have named := (TypeDecl.mem_occurrences_iff.mp attached).1
    have otherNamed := (TypeDecl.mem_occurrences_iff.mp otherAttached).1
    exact leads.host_eq sound resolved otherLeads (otherNamed.symm.trans named)
  refine apart ⟨arrival.trail, same ▸ otherLeads, otherDistinct, ?_, onChain⟩
  rw [← chainOf_append_singleton, entrance?_of_begins otherBegins, entrance?_of_begins begins]

/-- Where every annotation has an entrance without cycles, hints say what is listed. -/
theorem IsSteady.exists_hint_iff
    (steady : IsSteady lookup start policies)
    {type : TypeName} {referenced : List TypeName} :
    (∃ hint ∈ (collect policies bound start).answer lookup,
        hint.type = type ∧ hint.referenced = referenced) ↔
      (policies.get? type).isSome = true ∧
        (type = start.name ∧ referenced = [] ∨ IsListed lookup start type referenced) := by
  constructor
  · rintro ⟨hint, member, rfl, rfl⟩
    rcases obeys_of_mem_collect sufficient member with
      ⟨obeys, ⟨chain, nothing⟩ | ⟨arrival, witnesses⟩⟩
    · exact ⟨obeys.isSome_get?, Or.inl ⟨obeys.type_eq chain, nothing⟩⟩
    · refine ⟨obeys.isSome_get?, Or.inr ?_⟩
      rcases witnesses.attached with ⟨host, leads, attached⟩
      have distinct := witnesses.distinct
      rw [witnesses.chain] at distinct
      rw [witnesses.type_eq obeys, witnesses.referenced]
      refine ⟨arrival.trail, host, leads, ?_,
        exists_occurrence_iff.mp ⟨arrival.last, attached, rfl, rfl⟩⟩
      rw [← chainOf_append_singleton]
      exact distinct
  · rintro ⟨known, ⟨rfl, rfl⟩ | ⟨trail, host, leads, distinct, use, member, rfl, rfl⟩⟩
    · exact exists_own_hint known
    · rcases steady trail host leads use member known distinct with
        ⟨way, leadsThere, distinctThere, apart⟩
      rcases exists_occurrence_iff.mpr ⟨use, member, rfl⟩ with ⟨occurrence, attached, same⟩
      have sameType : use.type = occurrence.type := congrArg AnnotationUse.type same
      rw [sameType, ← chainOf_append_singleton] at distinctThere apart
      rw [same] at known ⊢
      exact leadsThere.exists_hint_of_not_isAbove sufficient sound resolved attached
        distinctThere known apart

end

/-! ## Other orders -/

/-- Two declarations that have the same annotations in any order. -/
structure Reordered (decl other : TypeDecl) : Prop where
  name : other.name = decl.name
  annotations : other.annotations.Perm decl.annotations

theorem Reordered.symm
    {decl other : TypeDecl}
    (reordered : Reordered decl other) :
    Reordered other decl :=
  ⟨reordered.name.symm, reordered.annotations.symm⟩

/-- The same types have declarations, which differ in the order of their annotations only. -/
def Reorders (lookup other : TypeName → Option TypeDecl) : Prop :=
  ∀ name, Option.Rel Reordered (lookup name) (other name)

section

variable {other : TypeName → Option TypeDecl} {otherStart : TypeDecl}

theorem Reorders.symm
    (reorders : Reorders lookup other) :
    Reorders other lookup := by
  intro name
  have related := reorders name
  generalize lookup name = found, other name = otherFound at related ⊢
  cases related with
  | none => exact .none
  | some reordered => exact .some reordered.symm

theorem Reorders.exists_found
    (reorders : Reorders lookup other)
    {name : TypeName} {decl : TypeDecl}
    (found : lookup name = some decl) :
    ∃ otherDecl, other name = some otherDecl ∧ Reordered decl otherDecl := by
  have related := reorders name
  rw [found] at related
  generalize other name = otherFound at related ⊢
  cases related with
  | some reordered => exact ⟨_, rfl, reordered⟩

/-- Trails lead through the same types, whatever the order. -/
theorem Leads.reordered
    (reorders : Reorders lookup other)
    (started : Reordered start otherStart)
    {trail : List Occurrence} {host : TypeDecl}
    (leads : Leads lookup start trail host) :
    ∃ otherTrail otherHost, Leads other otherStart otherTrail otherHost ∧
      chainOf otherStart.name otherTrail = chainOf start.name trail ∧
      Reordered host otherHost := by
  induction leads with
  | nil => exact ⟨[], otherStart, .nil, by rw [chainOf_nil, chainOf_nil, started.name], started⟩
  | @snoc trail host next occurrence leads attached found inductive_hypothesis =>
      rcases inductive_hypothesis with ⟨otherTrail, otherHost, otherLeads, sameChain, reordered⟩
      rcases exists_occurrence_iff.mp ⟨occurrence, attached, rfl⟩ with ⟨use, member, same⟩
      have otherMember := reordered.annotations.mem_iff.mpr member
      rcases exists_occurrence_iff.mpr ⟨use, otherMember, same⟩ with
        ⟨otherOccurrence, otherAttached, sameUse⟩
      have sameType : otherOccurrence.type = occurrence.type :=
        congrArg AnnotationUse.type sameUse.symm
      rcases reorders.exists_found found with ⟨otherNext, otherFound, reorderedNext⟩
      rw [← sameType] at otherFound
      refine ⟨_, otherNext, otherLeads.snoc otherAttached otherFound, ?_, reorderedNext⟩
      rw [chainOf_append_singleton, chainOf_append_singleton, sameChain, sameType]

theorem IsListed.reordered
    (reorders : Reorders lookup other)
    (started : Reordered start otherStart)
    {type : TypeName} {referenced : List TypeName}
    (listed : IsListed lookup start type referenced) :
    IsListed other otherStart type referenced := by
  rcases listed with ⟨trail, host, leads, distinct, use, member, holds⟩
  rcases leads.reordered reorders started with
    ⟨otherTrail, otherHost, otherLeads, sameChain, reordered⟩
  rw [← sameChain] at distinct
  exact ⟨otherTrail, otherHost, otherLeads, distinct, use,
    reordered.annotations.mem_iff.mpr member, holds⟩

theorem IsAbove.reordered
    (reorders : Reorders lookup other)
    (started : Reordered start otherStart)
    (otherSound : ∀ name decl, other name = some decl → decl.name = name)
    (otherResolved : other otherStart.name = some otherStart)
    {entrance : Option TypeName} {host : TypeDecl} {type : TypeName}
    (above : IsAbove lookup start entrance host type)
    {otherTrail : List Occurrence} {otherHost : TypeDecl}
    (otherLeads : Leads other otherStart otherTrail otherHost)
    (reordered : Reordered host otherHost) :
    IsAbove other otherStart entrance otherHost type := by
  rcases above with ⟨trail, leads, distinct, enters, onChain⟩
  rcases leads.reordered reorders started with
    ⟨aboveTrail, aboveHost, aboveLeads, sameChain, reorderedAbove⟩
  have sameHost := otherLeads.host_eq otherSound otherResolved aboveLeads
    (reorderedAbove.name.trans reordered.name.symm)
  rw [sameHost] at aboveLeads
  rw [← sameChain] at distinct enters onChain
  exact ⟨aboveTrail, aboveLeads, distinct, enters, onChain⟩

theorem IsSteady.reordered
    (reorders : Reorders lookup other)
    (started : Reordered start otherStart)
    (sound : ∀ name decl, lookup name = some decl → decl.name = name)
    (otherSound : ∀ name decl, other name = some decl → decl.name = name)
    (resolved : lookup start.name = some start)
    (otherResolved : other otherStart.name = some otherStart)
    (steady : IsSteady lookup start policies) :
    IsSteady other otherStart policies := by
  intro otherTrail otherHost otherLeads use otherMember known distinct
  rcases otherLeads.reordered reorders.symm started.symm with
    ⟨trail, host, leads, sameChain, reordered⟩
  have member := reordered.annotations.mem_iff.mpr otherMember
  rw [← sameChain] at distinct
  rcases steady trail host leads use member known distinct with
    ⟨way, leadsThere, distinctThere, apart⟩
  rcases leadsThere.reordered reorders started with
    ⟨otherWay, otherThere, otherLeadsThere, sameWay, reorderedThere⟩
  have sameHost := otherLeads.host_eq otherSound otherResolved otherLeadsThere
    (reorderedThere.name.trans reordered.name)
  rw [sameHost] at otherLeadsThere
  rw [← sameWay] at distinctThere apart
  refine ⟨otherWay, otherLeadsThere, distinctThere, ?_⟩
  intro otherAbove
  exact apart (otherAbove.reordered reorders.symm started.symm sound resolved leads reordered)

end

/-- The type of the annotation at a position of a type, and what it lists. -/
def listedAt?
    (lookup : TypeName → Option TypeDecl) (name : TypeName) (position : Nat) :
    Option (TypeName × List TypeName) :=
  ((lookup name).bind fun decl => decl.annotations[position]?).map fun use =>
    (use.type, use.valueTypes)

theorem exists_occurrence_of_listedAt?
    {name type : TypeName} {position : Nat} {referenced : List TypeName}
    (listed : listedAt? lookup name position = some (type, referenced)) :
    ∃ decl, lookup name = some decl ∧ ∃ occurrence ∈ decl.occurrences,
      occurrence.type = type ∧ occurrence.use.valueTypes = referenced := by
  rcases Option.map_eq_some_iff.mp listed with ⟨use, found, same⟩
  rcases Option.bind_eq_some_iff.mp found with ⟨decl, resolved, held⟩
  exact ⟨decl, resolved, ⟨decl.name, position, use⟩,
    TypeDecl.mem_occurrences_iff.mpr ⟨rfl, held⟩, Prod.mk.inj same⟩

/-- The types along a trail resolve. -/
theorem Leads.isSome_lookup
    (resolved : lookup start.name = some start)
    {trail : List Occurrence} {host : TypeDecl}
    (leads : Leads lookup start trail host) :
    ∀ type ∈ chainOf start.name trail, (lookup type).isSome = true := by
  induction leads with
  | nil =>
      intro type member
      rw [List.mem_singleton.mp member, resolved]
      rfl
  | snoc _ _ found inductive_hypothesis =>
      intro type member
      rw [chainOf_append_singleton, List.mem_append, List.mem_singleton] at member
      rcases member with earlier | rfl
      · exact inductive_hypothesis type earlier
      · rw [found]
        rfl

/--
An annotation with a policy that a declaration leads to along different types
gives a hint with the very types that it lists, unless a trail that enters by the
same type has the type of the annotation on it.  If each such annotation has an
entrance for which there is no such trail, then hints for the same types with the
same lists are found whatever the order of the annotations is.
-/
theorem lists_collect
    (sources : Sources) (policies : PolicyTable) (earlier : Query α)
    {decl : TypeDecl}
    (resolved : sources.lookup decl.name = some decl) :
    let hints := Session.resultAfter sources earlier
      (collect policies sources.depthBound decl)
    (∀ trail host, Leads sources.lookup decl trail host →
        ∀ occurrence ∈ host.occurrences,
          (chainOf decl.name (trail ++ [occurrence])).Nodup →
            (policies.get? occurrence.type).isSome = true →
              ¬ IsAbove sources.lookup decl
                  (entrance? (chainOf decl.name (trail ++ [occurrence]))) host
                  occurrence.type →
                ∃ hint ∈ hints, hint.type = occurrence.type ∧
                  hint.referenced = occurrence.use.valueTypes) ∧
      (IsSteady sources.lookup decl policies →
        ∀ (others : Sources) (other : TypeDecl),
          Reorders sources.lookup others.lookup →
            others.lookup decl.name = some other →
              ∀ type referenced,
                (∃ hint ∈ hints, hint.type = type ∧ hint.referenced = referenced) ↔
                  ∃ hint ∈ Session.resultAfter others earlier
                      (collect policies others.depthBound other),
                    hint.type = type ∧ hint.referenced = referenced) := by
  intro hints
  have sufficient := sources.suffices_depthBound
  have sound := sources.sound_lookup
  have isHints : hints = _ := Session.resultAfter_eq_answer sources earlier _
  rw [isHints]
  constructor
  · intro trail host leads occurrence attached distinct known apart
    exact leads.exists_hint_of_not_isAbove sufficient sound resolved attached distinct known
      apart
  · intro steady others other reorders found type referenced
    have otherName : other.name = decl.name := (Sources.lookup_eq_some found).1
    have started : Reordered decl other := by
      rcases reorders.exists_found resolved with ⟨same, foundSame, reordered⟩
      rw [found] at foundSame
      rw [Option.some.inj foundSame]
      exact reordered
    have otherSound : ∀ name decl, others.lookup name = some decl → decl.name = name :=
      fun _ _ looked => (Sources.lookup_eq_some looked).1
    rw [← otherName] at found
    have otherSteady := steady.reordered reorders started sound otherSound resolved found
    rw [Session.resultAfter_eq_answer, steady.exists_hint_iff sufficient sound resolved,
      otherSteady.exists_hint_iff others.suffices_depthBound otherSound found, otherName]
    have sameLists : IsListed sources.lookup decl type referenced ↔
        IsListed others.lookup other type referenced :=
      ⟨fun listed => listed.reordered reorders started,
        fun listed => listed.reordered reorders.symm started.symm⟩
    rw [sameLists]

/-- A condition whose type does not resolve, below two annotation types that carry each other. -/
theorem lists_collect_cycle :
    let sources := ClassFile.Outline.sources
      [{ name := "D", annotations := [("X", [])] },
        { name := "X", annotations := [("A", []), ("B", [])] },
        { name := "A", annotations := [("B", [])] },
        { name := "B", annotations := [("A", ["P"]), ("OnType", ["Q"])] }]
    let policies : PolicyTable := ⟨[(⟨"OnType"⟩, { skipIfMissing := true })]⟩
    ∃ decl, sources.lookup decl.name = some decl ∧ decl.name = ⟨"D"⟩ ∧
      IsSteady sources.lookup decl policies ∧
      (∃ hint ∈ Session.resultAfter sources (pure ())
          (collect policies sources.depthBound decl),
        hint.type = ⟨"OnType"⟩ ∧ hint.referenced = [⟨"Q"⟩]) ∧
      ∀ (others : Sources) (other : TypeDecl),
        Reorders sources.lookup others.lookup → others.lookup decl.name = some other →
          ∃ hint ∈ Session.resultAfter others (pure ())
              (collect policies others.depthBound other),
            hint.type = ⟨"OnType"⟩ ∧ hint.referenced = [⟨"Q"⟩] := by
  intro sources policies
  have onD : listedAt? sources.lookup ⟨"D"⟩ 0 = some (⟨"X"⟩, []) := by decide +kernel
  have onX : listedAt? sources.lookup ⟨"X"⟩ 1 = some (⟨"B"⟩, []) := by decide +kernel
  have onB : listedAt? sources.lookup ⟨"B"⟩ 1 = some (⟨"OnType"⟩, [⟨"Q"⟩]) := by
    decide +kernel
  have missing : (sources.lookup ⟨"OnType"⟩).isSome = false := by decide +kernel
  rcases exists_occurrence_of_listedAt? onD with ⟨decl, foundD, useX, attachedX, typeX, _⟩
  rcases exists_occurrence_of_listedAt? onX with ⟨declX, foundX, useB, attachedB, typeB, _⟩
  rcases exists_occurrence_of_listedAt? onB with ⟨declB, foundB, condition, attached, type, lists⟩
  have named : decl.name = ⟨"D"⟩ := (Sources.lookup_eq_some foundD).1
  have resolved : sources.lookup decl.name = some decl := named.symm ▸ foundD
  have leads : Leads sources.lookup decl ([useX] ++ [useB]) declB :=
    .snoc (.snoc .nil attachedX (typeX.symm ▸ foundX)) attachedB (typeB.symm ▸ foundB)
  have apart : ∀ entrance host, ¬ IsAbove sources.lookup decl entrance host ⟨"OnType"⟩ := by
    rintro entrance host ⟨trail, leadsAbove, _, _, onChain⟩
    rw [leadsAbove.isSome_lookup resolved _ onChain] at missing
    cases missing
  have steady : IsSteady sources.lookup decl policies := by
    intro trail host leadsThere use _ known distinct
    have isCondition : use.type = ⟨"OnType"⟩ := by
      have member := Keyed.get?_isSome_iff.mp known
      exact List.mem_singleton.mp member
    refine ⟨trail, leadsThere, distinct, ?_⟩
    rw [isCondition]
    exact apart _ host
  have chain : chainOf decl.name ([useX] ++ [useB] ++ [condition]) =
      [⟨"D"⟩, ⟨"X"⟩, ⟨"B"⟩, ⟨"OnType"⟩] := by
    simp [chainOf, named, typeX, typeB, type]
  rcases lists_collect sources policies (pure ()) resolved with ⟨listed, reordered⟩
  have found := listed _ declB leads condition attached (by rw [chain]; decide)
    (by rw [type]; decide) (by rw [type]; exact apart _ declB)
  rw [type, lists] at found
  refine ⟨decl, resolved, named, steady, found, ?_⟩
  intro others other reorders foundOther
  exact (reordered steady others other reorders foundOther ⟨"OnType"⟩ [⟨"Q"⟩]).mp found

/--
Two annotation types carry each other, and the annotation on the second one that
closes the cycle also stands on a trail without it.  The types that it lists are
overlooked, and are found if the annotations of the first type on the way are in
the other order.
-/
theorem list_overlooked_cycle :
    let sources := fun (both : List (String × List String)) => ClassFile.Outline.sources
      [{ name := "D", annotations := [("X", [])] }, { name := "X", annotations := both },
        { name := "A", annotations := [("B", [])] },
        { name := "B", annotations := [("A", ["P"])] }]
    let policies : PolicyTable := ⟨[(⟨"A"⟩, { skipIfMissing := true })]⟩
    let first := sources [("A", []), ("B", [])]
    let second := sources [("B", []), ("A", [])]
    (∃ decl trail host occurrence,
        first.lookup decl.name = some decl ∧ decl.name = ⟨"D"⟩ ∧
        Leads first.lookup decl trail host ∧ occurrence ∈ host.occurrences ∧
        (chainOf decl.name (trail ++ [occurrence])).Nodup ∧
        (policies.get? occurrence.type).isSome = true ∧
        ¬ ∃ hint ∈ Session.resultAfter first (pure ())
            (collect policies first.depthBound decl),
          hint.type = occurrence.type ∧ hint.referenced = occurrence.use.valueTypes) ∧
      (second.lookup ⟨"D"⟩).map (fun decl =>
          (Session.resultAfter second (pure ())
            (collect policies second.depthBound decl)).map fun hint =>
              (hint.type, hint.referenced)) =
        some [(⟨"A"⟩, [⟨"P"⟩]), (⟨"A"⟩, [])] := by
  intro sources policies first second
  refine ⟨?_, by decide +kernel⟩
  have collected : (first.lookup ⟨"D"⟩).map (fun decl =>
      (Session.resultAfter first (pure ())
        (collect policies first.depthBound decl)).map fun hint =>
          (hint.type, hint.referenced)) = some [(⟨"A"⟩, [])] := by
    decide +kernel
  have onD : listedAt? first.lookup ⟨"D"⟩ 0 = some (⟨"X"⟩, []) := by decide +kernel
  have onX : listedAt? first.lookup ⟨"X"⟩ 1 = some (⟨"B"⟩, []) := by decide +kernel
  have onB : listedAt? first.lookup ⟨"B"⟩ 0 = some (⟨"A"⟩, [⟨"P"⟩]) := by decide +kernel
  rcases exists_occurrence_of_listedAt? onD with ⟨decl, foundD, useX, attachedX, typeX, _⟩
  rcases exists_occurrence_of_listedAt? onX with ⟨declX, foundX, useB, attachedB, typeB, _⟩
  rcases exists_occurrence_of_listedAt? onB with ⟨declB, foundB, useA, attachedA, typeA, lists⟩
  have named : decl.name = ⟨"D"⟩ := (Sources.lookup_eq_some foundD).1
  have leads : Leads first.lookup decl ([useX] ++ [useB]) declB :=
    .snoc (.snoc .nil attachedX (typeX.symm ▸ foundX)) attachedB (typeB.symm ▸ foundB)
  refine ⟨decl, [useX] ++ [useB], declB, useA, named.symm ▸ foundD, named, leads, attachedA,
    ?_, ?_, ?_⟩
  · have chain : chainOf decl.name ([useX] ++ [useB] ++ [useA]) =
        [⟨"D"⟩, ⟨"X"⟩, ⟨"B"⟩, ⟨"A"⟩] := by
      simp [chainOf, named, typeX, typeB, typeA]
    rw [chain]
    decide
  · rw [typeA]
    decide
  · rintro ⟨hint, member, ofType, referenced⟩
    rw [typeA] at ofType
    rw [lists] at referenced
    rw [foundD, Option.map_some, Option.some.injEq] at collected
    have reported := List.mem_map_of_mem (f := fun hint : Hint => (hint.type, hint.referenced))
      member
    rw [collected, ofType, referenced] at reported
    exact absurd reported (by decide)

end TypeReach.Hint
