import TypeReach.Proofs.Hierarchy
import TypeReach.Proofs.Hint.Coverage
import TypeReach.Stereotype

/-!
# Which stereotype a type has

A marker is looked for among the annotations of a type, those of its annotation
types and so on.  That search marks annotation types and not the declarations
that it looks at, so it may look at a declaration twice; it stops at a type that
was marked before, whether that type resolves or not.  It finds a declaration that
carries the marker exactly if the annotations lead to one.

The three searches for a stereotype are made one after the other, each with a set
of seen types of its own.  So the stereotype of a type is decided by what its
annotations and its supertypes lead to, and not by the order of the searches within
them.
-/

namespace TypeReach.Stereotype

open BoundedQuery (Ends)
open Hierarchy (Concludes Exhausts Extends)
open Hint (Annotated)
open Reach.World (remaining remaining_cons_lt remaining_le_of_subset)
open Relation (ReflTransGen TransGen)
open Resolution (Session Sources)

variable {lookup : TypeName → Option TypeDecl} {known : List TypeName}

/-! ## Carriers of a marker -/

theorem carries_iff
    {decl : TypeDecl} {marker : TypeName} :
    decl.carries marker = true ↔ marker ∈ decl.annotations.map AnnotationUse.type := by
  simp [TypeDecl.carries, TypeDecl.annotationOf?]

/-- The other declaration carries a marker itself, and annotations lead to it. -/
structure Carried
    (lookup : TypeName → Option TypeDecl) (marker : TypeName) (decl host : TypeDecl) :
    Prop where
  reached : ReflTransGen (Annotated lookup) decl host
  carries : host.carries marker = true

/-- A name leads to the types of the annotations that its declaration carries. -/
def LeadsBelow (lookup : TypeName → Option TypeDecl) (name next : TypeName) : Prop :=
  ∃ decl, lookup name = some decl ∧ next ∈ decl.annotations.map AnnotationUse.type

/-- What a query comes to that looks for a marker from some annotation types on. -/
abbrev Seeks
    (lookup : TypeName → Option TypeDecl) (marker : TypeName) (start : TypeDecl)
    (roots before : List TypeName) (query : BoundedQuery Hierarchy.Found) :
    Prop :=
  Ends lookup
    (Concludes (LeadsBelow lookup) (· = marker)
      (fun name => ∃ host, Carried lookup marker start host ∧ host.name = name) roots before)
    query

section

variable
  {marker : TypeName} {start : TypeDecl}
  (complete : ∀ name, (lookup name).isSome = true → name ∈ known)

include complete

theorem seeks_carrierAmong
    {host : TypeDecl}
    {visit : TypeDecl → List TypeName → BoundedQuery Hierarchy.Found} {depth : Nat}
    {uses : List AnnotationUse}
    (carried : marker ∈ uses.map AnnotationUse.type → Carried lookup marker start host)
    (visits : ∀ use ∈ uses, ∀ decl, lookup use.type = some decl → ∀ seen,
      remaining known seen < depth →
      Seeks lookup marker start (decl.annotations.map AnnotationUse.type) seen (visit decl seen))
    {seen : List TypeName}
    (enough : remaining known seen ≤ depth) :
    Seeks lookup marker start (uses.map AnnotationUse.type) seen
      (carrierAmong marker host.name visit uses seen) := by
  induction uses generalizing seen with
  | nil => exact .pure (.ofSeen (List.nil_subset _))
  | cons use rest inductive_hypothesis =>
      rw [List.map_cons] at carried
      -- Once the first annotation is done with, the others follow.
      have goOn : ∀ between, Exhausts (LeadsBelow lookup) (· = marker) [use.type] seen between →
          Seeks lookup marker start ((use :: rest).map AnnotationUse.type) seen
            (carrierAmong marker host.name visit rest between) := by
        intro between exhausted
        apply exhausted.ends_append
        apply inductive_hypothesis
        · intro later
          exact carried (List.mem_cons_of_mem _ later)
        · intro next member
          exact visits next (List.mem_cons_of_mem _ member)
        · exact Nat.le_trans (remaining_le_of_subset exhausted.kept) enough
      simp only [carrierAmong]
      split_ifs with entered marked
      · exact goOn seen (.ofSeen (List.cons_subset.mpr ⟨entered, List.nil_subset _⟩))
      · exact .pure ⟨host, carried (marked ▸ List.mem_cons_self), rfl⟩
      · apply Ends.ask
        rw [Query.answer_find]
        cases found : lookup use.type with
        | none =>
            have nothing : ∀ next, LeadsBelow lookup use.type next → next ∈ [] := by
              rintro next ⟨decl, resolved, _⟩
              rw [found] at resolved
              cases resolved
            exact goOn _ (.ofEntered marked nothing (.ofSeen (List.nil_subset _)))
        | some decl =>
            have covered : ∀ next, LeadsBelow lookup use.type next →
                next ∈ decl.annotations.map AnnotationUse.type := by
              rintro next ⟨other, resolved, listed⟩
              rw [found] at resolved
              exact Option.some.inj resolved ▸ listed
            have fewer := remaining_cons_lt (complete use.type (by rw [found]; rfl)) entered
            apply (visits use List.mem_cons_self decl found (use.type :: seen)
              (Nat.lt_of_lt_of_le fewer enough)).bind
            rintro ⟨carrier, between⟩ concluded
            cases carrier with
            | some name => exact .pure concluded
            | none => exact goOn between (.ofEntered marked covered concluded)

/--
Every search for a marker within a sufficient depth comes to an end.  The
induction is on the depth; an annotation type whose declaration is looked at was
just taken from those that remain.
-/
theorem seeks_carrierFrom
    {depth : Nat} {decl : TypeDecl} {seen : List TypeName}
    (reached : ReflTransGen (Annotated lookup) start decl)
    (enough : remaining known seen < depth) :
    Seeks lookup marker start (decl.annotations.map AnnotationUse.type) seen
      (carrierFrom marker depth decl seen) := by
  induction depth generalizing decl seen with
  | zero => exact absurd enough (Nat.not_lt_zero _)
  | succ depth inductive_hypothesis =>
      rw [carrierFrom]
      apply seeks_carrierAmong complete
      · intro listed
        exact ⟨reached, carries_iff.mpr listed⟩
      · intro use member next found seen nextEnough
        exact inductive_hypothesis (reached.tail ⟨use, member, found⟩) nextEnough
      · exact Nat.le_of_lt_succ enough

end

/-- A search that found nothing from the start has seen all annotations that it leads to. -/
theorem type_mem_of_exhausts
    {hit : TypeName → Prop} {start : TypeDecl} {after : List TypeName}
    (exhausted : Exhausts (LeadsBelow lookup) hit
      (start.annotations.map AnnotationUse.type) [] after)
    {host : TypeDecl}
    (reached : ReflTransGen (Annotated lookup) start host) :
    host.annotations.map AnnotationUse.type ⊆ after := by
  induction reached with
  | refl => exact exhausted.rooted
  | tail _ annotated inductive_hypothesis =>
      rcases annotated with ⟨use, member, found⟩
      intro type listed
      exact exhausted.closed use.type (inductive_hypothesis (List.mem_map_of_mem member))
        List.not_mem_nil type ⟨_, found, listed⟩

/-- A search for a marker gives a declaration that carries it, or none does. -/
theorem carrier_cases
    {bound : Nat}
    (sufficient : Resolution.Suffices bound lookup)
    (marker : TypeName) (decl : TypeDecl) :
    (∃ host, Carried lookup marker decl host ∧
        (carrier bound marker decl).answer lookup = some host.name) ∨
      (¬ ∃ host, Carried lookup marker decl host) ∧
        (carrier bound marker decl).answer lookup = none := by
  rcases sufficient with ⟨known, below, complete⟩
  have enough : remaining known [] < bound :=
    Nat.lt_of_le_of_lt List.countP_le_length below
  have concluded := (@seeks_carrierFrom lookup known marker decl complete bound decl []
    .refl enough).holds_getD (none, [])
  rw [carrier, Query.answer_bind, Query.answer_pure]
  generalize ((carrierFrom marker bound decl []).getD (none, [])).answer lookup = result
    at concluded ⊢
  rcases result with ⟨found, after⟩
  cases found with
  | some name =>
      rcases concluded with ⟨host, carried, rfl⟩
      exact Or.inl ⟨host, carried, rfl⟩
  | none =>
      have exhausted : Exhausts _ _ _ [] after := concluded
      refine Or.inr ⟨?_, rfl⟩
      rintro ⟨host, carried⟩
      have seen := type_mem_of_exhausts exhausted carried.reached (carries_iff.mp carried.carries)
      exact exhausted.missed marker seen List.not_mem_nil rfl

/-! ## Stereotypes -/

/-- The other declaration is a supertype that carries the marker of indexed types itself. -/
structure Inherited
    (lookup : TypeName → Option TypeDecl) (decl above : TypeDecl) : Prop where
  reached : TransGen (Extends lookup) decl above
  carries : above.carries indexed = true

/-- The last search gives a supertype that is marked as indexed, or there is none. -/
theorem search_indexed_cases
    (sound : ∀ name decl, lookup name = some decl → decl.name = name)
    {bound : Nat}
    (sufficient : Resolution.Suffices bound lookup)
    {decl : TypeDecl}
    (resolved : lookup decl.name = some decl)
    (uncarried : ¬ ∃ host, Carried lookup indexed decl host) :
    (∃ above, Inherited lookup decl above ∧
        (Hierarchy.search bound (·.carries indexed) decl).answer lookup = some above.name) ∨
      (¬ ∃ above, Inherited lookup decl above) ∧
        (Hierarchy.search bound (·.carries indexed) decl).answer lookup = none := by
  rcases Hierarchy.search_cases sound sufficient resolved (·.carries indexed) with
    ⟨above, reached, carries, found⟩ | ⟨none, found⟩
  · rcases Relation.reflTransGen_iff_eq_or_transGen.mp reached with same | above
    · -- The type itself would have been found by the first search.
      rw [same] at carries
      exact absurd ⟨decl, .refl, carries⟩ uncarried
    · exact Or.inl ⟨_, ⟨above, carries⟩, found⟩
  · refine Or.inr ⟨?_, found⟩
    rintro ⟨above, inherited⟩
    have unmarked := none above inherited.reached.to_reflTransGen
    rw [inherited.carries] at unmarked
    cases unmarked

/--
The stereotype of a type is a declaration that its annotations lead to and that is
marked as indexed; if there is none, it is the marker of entities if the
annotations lead to a declaration that carries it; if there is none of these
either, it is a supertype that is marked as indexed.  A type has no stereotype
exactly if there is none of the three.
-/
theorem of_cases
    (sources : Sources) (earlier : Query α)
    {decl : TypeDecl}
    (resolved : sources.lookup decl.name = some decl) :
    let stereotype := Session.resultAfter sources earlier (of sources.depthBound decl)
    let isIndexed := ∃ host, Carried sources.lookup indexed decl host
    let isEntity := ∃ host, Carried sources.lookup entity decl host
    let inheritsIndexed := ∃ above, Inherited sources.lookup decl above
    (isIndexed →
        ∃ host, Carried sources.lookup indexed decl host ∧ stereotype = some host.name) ∧
      (¬ isIndexed → isEntity → stereotype = some entity) ∧
      (¬ isIndexed → ¬ isEntity → inheritsIndexed →
        ∃ above, Inherited sources.lookup decl above ∧ stereotype = some above.name) ∧
      (stereotype = none ↔ ¬ isIndexed ∧ ¬ isEntity ∧ ¬ inheritsIndexed) := by
  intro stereotype isIndexed isEntity inheritsIndexed
  have sufficient := sources.suffices_depthBound
  have sound := sources.sound_lookup
  have given : stereotype = (of sources.depthBound decl).answer sources.lookup :=
    Session.resultAfter_eq_answer sources earlier _
  rw [of, Query.answer_bind] at given
  rcases carrier_cases sufficient indexed decl with
    ⟨host, carried, found⟩ | ⟨notIndexed, found⟩
  · rw [found] at given
    have named : stereotype = some host.name := given
    have holds : isIndexed := ⟨host, carried⟩
    rw [named]
    exact ⟨fun _ => ⟨host, carried, rfl⟩, fun no => absurd holds no,
      fun no => absurd holds no, by simp [holds]⟩
  rw [found] at given
  change stereotype = (_ >>= _ : Query _).answer sources.lookup at given
  rw [Query.answer_bind] at given
  rcases carrier_cases sufficient entity decl with ⟨host, carried, found⟩ | ⟨notEntity, found⟩
  · rw [found] at given
    have named : stereotype = some entity := given
    have holds : isEntity := ⟨host, carried⟩
    rw [named]
    exact ⟨fun yes => absurd yes notIndexed, fun _ _ => rfl,
      fun _ no => absurd holds no, by simp [holds]⟩
  rw [found] at given
  change stereotype = (Hierarchy.search _ _ decl).answer sources.lookup at given
  rcases search_indexed_cases sound sufficient resolved notIndexed with
    ⟨above, inherited, found⟩ | ⟨notInherited, found⟩
  · rw [found] at given
    have holds : inheritsIndexed := ⟨above, inherited⟩
    rw [given]
    exact ⟨fun yes => absurd yes notIndexed, fun _ yes => absurd yes notEntity,
      fun _ _ _ => ⟨above, inherited, rfl⟩, by simp [holds]⟩
  · rw [found] at given
    rw [given]
    exact ⟨fun yes => absurd yes notIndexed, fun _ yes => absurd yes notEntity,
      fun _ _ yes => absurd yes notInherited,
      fun _ => ⟨notIndexed, notEntity, notInherited⟩, fun _ => rfl⟩

/-- An annotation type carries its user again, and a marker that has no declaration. -/
theorem of_cases_mutual :
    let sources := ClassFile.Outline.sources
      [{ name := "User", annotations := [("Component", [])] },
        { name := "Component", annotations := [("User", []), (indexed.slashed, [])] }]
    ∃ decl, sources.lookup decl.name = some decl ∧ decl.name = ⟨"User"⟩ ∧
      (∃ host, Carried sources.lookup indexed decl host) ∧
      ∃ host, Carried sources.lookup indexed decl host ∧
        Session.resultAfter sources (Query.find ⟨"Component"⟩)
          (of sources.depthBound decl) = some host.name := by
  intro sources
  have user : (sources.lookup ⟨"User"⟩).map (·.annotations.map AnnotationUse.type) =
      some [⟨"Component"⟩] := by
    decide +kernel
  have component : (sources.lookup ⟨"Component"⟩).map (·.carries indexed) = some true := by
    decide +kernel
  rcases Option.map_eq_some_iff.mp user with ⟨decl, found, types⟩
  rcases Option.map_eq_some_iff.mp component with ⟨host, foundHost, carries⟩
  have named : decl.name = ⟨"User"⟩ := (Sources.lookup_eq_some found).1
  have resolved : sources.lookup decl.name = some decl := named.symm ▸ found
  have listed : ⟨"Component"⟩ ∈ decl.annotations.map AnnotationUse.type :=
    types ▸ List.mem_cons_self
  rcases List.mem_map.mp listed with ⟨use, attached, type⟩
  have carried : ∃ host, Carried sources.lookup indexed decl host :=
    ⟨host, .single ⟨use, attached, type ▸ foundHost⟩, carries⟩
  exact ⟨decl, resolved, named, carried,
    (of_cases sources (Query.find ⟨"Component"⟩) resolved).1 carried⟩

end TypeReach.Stereotype
