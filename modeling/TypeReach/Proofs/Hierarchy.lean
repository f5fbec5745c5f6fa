import Mathlib.Logic.Relation
import TypeReach.Hierarchy
import TypeReach.Proofs.Outline
import TypeReach.Proofs.Query
import TypeReach.Proofs.Reach.Traversal
import TypeReach.Proofs.Resolution.Transparency

/-!
# Searches through hierarchies

A search enters each type once, and a type that was entered is not looked at
again, also while what is above it is still being searched.  That hides nothing:
a search that finds nothing has seen everything that its roots lead to, since
every type that it entered has all types above it among those seen when the
search returns.  `Exhausts` says so.  It is kept under sequencing, and it speaks
of names and of a relation between them, so that it serves searches along
annotations as well.

The supertypes of a declaration are the declarations that it extends, directly
or through others.  A search finds one of them that passes its test exactly if
there is one, and in particular a type implements an interface exactly if some
supertype lists it, whether the interface itself can be resolved or not.
-/

namespace TypeReach.Hierarchy

open BoundedQuery (Ends)
open Reach.World (remaining remaining_cons_lt remaining_le_of_subset)
open Relation (ReflTransGen)
open Resolution (Session Sources)

variable {lookup : TypeName → Option TypeDecl} {known : List TypeName}

/-! ## Searches that find nothing -/

/--
A search from some roots has seen the names after it, and found no hit among
those that were not seen before.
-/
structure Exhausts
    (leads : TypeName → TypeName → Prop) (hit : TypeName → Prop)
    (roots before after : List TypeName) : Prop where
  kept : before ⊆ after
  rooted : roots ⊆ after
  missed : ∀ name ∈ after, name ∉ before → ¬ hit name
  closed : ∀ name ∈ after, name ∉ before → ∀ next, leads name next → next ∈ after

namespace Exhausts

variable
  {leads : TypeName → TypeName → Prop} {hit : TypeName → Prop}
  {roots before after : List TypeName}

/-- Roots that were all seen before change nothing. -/
theorem ofSeen
    (seen : roots ⊆ before) :
    Exhausts leads hit roots before before where
  kept := List.Subset.refl before
  rooted := seen
  missed := fun _ member new => absurd member new
  closed := fun _ member new => absurd member new

/-- One search after another has the roots of both. -/
theorem append
    {first second between : List TypeName}
    (left : Exhausts leads hit first before between)
    (right : Exhausts leads hit second between after) :
    Exhausts leads hit (first ++ second) before after where
  kept := List.Subset.trans left.kept right.kept
  rooted := List.append_subset.mpr
    ⟨List.Subset.trans left.rooted right.kept, right.rooted⟩
  missed := by
    intro name member new
    by_cases earlier : name ∈ between
    · exact left.missed name earlier new
    · exact right.missed name member earlier
  closed := by
    intro name member new next step
    by_cases earlier : name ∈ between
    · exact right.kept (left.closed name earlier new next step)
    · exact right.closed name member earlier next step

/-- A name that is no hit is seen, and then all names that it leads to. -/
theorem ofEntered
    {root : TypeName}
    (missed : ¬ hit root)
    (covered : ∀ next, leads root next → next ∈ roots)
    (above : Exhausts leads hit roots (root :: before) after) :
    Exhausts leads hit [root] before after where
  kept := fun _ member => above.kept (List.mem_cons_of_mem _ member)
  rooted := List.cons_subset.mpr ⟨above.kept List.mem_cons_self, List.nil_subset _⟩
  missed := by
    intro name member new
    by_cases isRoot : name = root
    · rw [isRoot]
      exact missed
    · exact above.missed name member (List.not_mem_cons_of_ne_of_not_mem isRoot new)
  closed := by
    intro name member new next step
    by_cases isRoot : name = root
    · rw [isRoot] at step
      exact above.rooted (covered next step)
    · exact above.closed name member (List.not_mem_cons_of_ne_of_not_mem isRoot new) next step

end Exhausts

/-- What a search comes to: a name that counts as found, or nothing after all was seen. -/
def Concludes
    (leads : TypeName → TypeName → Prop) (hit finds : TypeName → Prop)
    (roots before : List TypeName) :
    Found → Prop
  | (some name, _) => finds name
  | (none, after) => Exhausts leads hit roots before after

section

variable
  {leads : TypeName → TypeName → Prop} {hit finds : TypeName → Prop}
  {before between : List TypeName} {query : BoundedQuery Found}

/-- A search goes on where another one found nothing. -/
theorem Exhausts.ends_append
    {first second : List TypeName}
    (earlier : Exhausts leads hit first before between)
    (ends : Ends lookup (Concludes leads hit finds second between) query) :
    Ends lookup (Concludes leads hit finds (first ++ second) before) query := by
  apply ends.mono
  rintro ⟨found, after⟩ concluded
  cases found with
  | some name => exact concluded
  | none => exact earlier.append concluded

theorem ends_firstOf
    {visit : TypeDecl → List TypeName → BoundedQuery Found} {depth : Nat}
    {decls : List TypeDecl}
    (visits : ∀ decl ∈ decls, ∀ seen, remaining known seen < depth →
      Ends lookup (Concludes leads hit finds [decl.name] seen) (visit decl seen))
    (enough : remaining known before < depth) :
    Ends lookup (Concludes leads hit finds (decls.map TypeDecl.name) before)
      (firstOf visit decls before) := by
  induction decls generalizing before with
  | nil => exact .pure (.ofSeen (List.nil_subset _))
  | cons decl rest inductive_hypothesis =>
      apply (visits decl List.mem_cons_self before enough).bind
      rintro ⟨found, between⟩ concluded
      cases found with
      | some name => exact .pure concluded
      | none =>
          have exhausted : Exhausts leads hit [decl.name] before between := concluded
          apply exhausted.ends_append
          apply inductive_hypothesis
          · intro next member
            exact visits next (List.mem_cons_of_mem _ member)
          · exact Nat.lt_of_le_of_lt (remaining_le_of_subset exhausted.kept) enough

end

/-! ## Supertypes -/

/-- A declaration lists the other one, by its name, as an interface or as its superclass. -/
def Extends (lookup : TypeName → Option TypeDecl) (decl above : TypeDecl) : Prop :=
  ∃ name ∈ decl.interfaces ++ decl.superclass.toList, lookup name = some above

theorem answer_find?
    (name? : Option TypeName) :
    (Query.find? name?).answer lookup = name?.bind lookup := by
  cases name? <;> rfl

theorem mem_parents_iff
    {decl above : TypeDecl} :
    above ∈ decl.interfaces.filterMap lookup ++ (decl.superclass.bind lookup).toList ↔
      Extends lookup decl above := by
  simp only [Extends, List.mem_append, List.mem_filterMap, Option.mem_toList,
    Option.bind_eq_some_iff, or_and_right, exists_or]

/-- A name leads to the names of what its declaration extends. -/
def LeadsAbove (lookup : TypeName → Option TypeDecl) (name next : TypeName) : Prop :=
  ∃ decl above, lookup name = some decl ∧ Extends lookup decl above ∧ above.name = next

/-- What a query comes to that looks for a supertype from some types on. -/
abbrev Seeks
    (lookup : TypeName → Option TypeDecl) (test : TypeDecl → Bool) (start : TypeDecl)
    (roots before : List TypeName) (query : BoundedQuery Found) :
    Prop :=
  Ends lookup
    (Concludes (LeadsAbove lookup)
      (fun name => ∃ decl, lookup name = some decl ∧ test decl = true)
      (fun name => ∃ above, ReflTransGen (Extends lookup) start above ∧
        test above = true ∧ above.name = name) roots before)
    query

theorem mem_map_of_leadsAbove
    {decl : TypeDecl} {next : TypeName}
    (resolved : lookup decl.name = some decl)
    (leads : LeadsAbove lookup decl.name next) :
    next ∈ (decl.interfaces.filterMap lookup ++
      (decl.superclass.bind lookup).toList).map TypeDecl.name := by
  rcases leads with ⟨other, above, found, extending, rfl⟩
  rw [resolved] at found
  rw [← Option.some.inj found] at extending
  exact List.mem_map_of_mem (mem_parents_iff.mpr extending)

section

variable
  (sound : ∀ name decl, lookup name = some decl → decl.name = name)
  {start : TypeDecl}

include sound

theorem Extends.lookup_name
    {decl above : TypeDecl}
    (extending : Extends lookup decl above) :
    lookup above.name = some above := by
  rcases extending with ⟨name, _, found⟩
  rw [sound name above found]
  exact found

/-- Whatever is above a declaration is what its name resolves to. -/
theorem lookup_name_of_reflTransGen
    (resolved : lookup start.name = some start)
    {above : TypeDecl}
    (reached : ReflTransGen (Extends lookup) start above) :
    lookup above.name = some above := by
  cases reached with
  | refl => exact resolved
  | tail _ extending => exact extending.lookup_name sound

/-! ## Searches -/

/--
Every search within a sufficient depth comes to an end.  The induction is on the
depth; a type that is entered is taken from those that remain, and so is every
type above it that was seen before the search goes on with the superclass.
-/
theorem seeks_searchFrom
    (complete : ∀ name, (lookup name).isSome = true → name ∈ known)
    (test : TypeDecl → Bool)
    {depth : Nat} {decl : TypeDecl} {seen : List TypeName}
    (reached : ReflTransGen (Extends lookup) start decl)
    (resolved : lookup decl.name = some decl)
    (enough : remaining known seen < depth) :
    Seeks lookup test start [decl.name] seen (searchFrom test depth decl seen) := by
  induction depth generalizing decl seen with
  | zero => exact absurd enough (Nat.not_lt_zero _)
  | succ depth inductive_hypothesis =>
      simp only [searchFrom]
      split_ifs with entered passes
      · exact .pure (.ofSeen (List.cons_subset.mpr ⟨entered, List.nil_subset _⟩))
      · exact .pure ⟨decl, reached, passes, rfl⟩
      · have isKnown := complete decl.name (by rw [resolved]; rfl)
        have fewer : remaining known (decl.name :: seen) < depth :=
          Nat.lt_of_lt_of_le (remaining_cons_lt isKnown entered) (Nat.le_of_lt_succ enough)
        have missed : ¬ ∃ other, lookup decl.name = some other ∧ test other = true := by
          rintro ⟨other, found, passing⟩
          rw [resolved] at found
          exact passes (Option.some.inj found ▸ passing)
        have covered := fun next (leads : LeadsAbove lookup decl.name next) =>
          mem_map_of_leadsAbove resolved leads
        have visits : ∀ next, Extends lookup decl next → ∀ seen,
            remaining known seen < depth →
              Seeks lookup test start [next.name] seen (searchFrom test depth next seen) :=
          fun next extending _ nextEnough =>
            inductive_hypothesis (reached.tail extending) (extending.lookup_name sound) nextEnough
        have interfaces := @ends_firstOf lookup known _ _ _ (decl.name :: seen) _ depth
          (decl.interfaces.filterMap lookup)
          (fun next member =>
            visits next (mem_parents_iff.mp (List.mem_append_left _ member)))
          fewer
        apply Ends.ask
        apply interfaces.bind
        rintro ⟨found, between⟩ concluded
        cases found with
        | some name => exact .pure concluded
        | none =>
            have exhausted : Exhausts _ _ _ (decl.name :: seen) between := concluded
            apply Ends.ask
            rw [answer_find?]
            cases superclass : decl.superclass.bind lookup with
            | none =>
                rw [superclass, Option.toList_none, List.append_nil] at covered
                exact .pure (exhausted.ofEntered missed covered)
            | some next =>
                rw [superclass, Option.toList_some, List.map_append] at covered
                have extending : Extends lookup decl next := by
                  apply mem_parents_iff.mp
                  rw [superclass]
                  exact List.mem_append_right _ List.mem_cons_self
                have enoughAbove := Nat.lt_of_le_of_lt (remaining_le_of_subset exhausted.kept) fewer
                apply (exhausted.ends_append (visits next extending between enoughAbove)).mono
                rintro ⟨found, after⟩ concludedAbove
                cases found with
                | some name => exact concludedAbove
                | none => exact concludedAbove.ofEntered missed covered

/-- A search that found nothing from the start has seen everything above. -/
theorem Exhausts.name_mem
    {hit : TypeName → Prop} {after : List TypeName}
    (exhausted : Exhausts (LeadsAbove lookup) hit [start.name] [] after)
    (resolved : lookup start.name = some start)
    {above : TypeDecl}
    (reached : ReflTransGen (Extends lookup) start above) :
    above.name ∈ after := by
  induction reached with
  | refl => exact exhausted.rooted List.mem_cons_self
  | tail below extending inductive_hypothesis =>
      have found := lookup_name_of_reflTransGen sound resolved below
      exact exhausted.closed _ inductive_hypothesis List.not_mem_nil _
        ⟨_, _, found, extending, rfl⟩

/-- A search gives a supertype that passes its test, or none passes. -/
theorem search_cases
    {bound : Nat}
    (sufficient : Resolution.Suffices bound lookup)
    (resolved : lookup start.name = some start)
    (test : TypeDecl → Bool) :
    (∃ above, ReflTransGen (Extends lookup) start above ∧ test above = true ∧
        (search bound test start).answer lookup = some above.name) ∨
      (∀ above, ReflTransGen (Extends lookup) start above → test above = false) ∧
        (search bound test start).answer lookup = none := by
  rcases sufficient with ⟨known, below, complete⟩
  have enough : remaining known [] < bound :=
    Nat.lt_of_le_of_lt List.countP_le_length below
  have concluded := (seeks_searchFrom sound complete test .refl resolved enough).holds_getD
    (none, [])
  rw [search, Query.answer_bind, Query.answer_pure]
  generalize ((searchFrom test bound start []).getD (none, [])).answer lookup = result
    at concluded ⊢
  rcases result with ⟨found, after⟩
  cases found with
  | some name =>
      rcases concluded with ⟨above, reached, passes, rfl⟩
      exact Or.inl ⟨above, reached, passes, rfl⟩
  | none =>
      have exhausted : Exhausts _ _ [start.name] [] after := concluded
      refine Or.inr ⟨?_, rfl⟩
      intro above reached
      have seen := exhausted.name_mem sound resolved reached
      have missed := exhausted.missed above.name seen List.not_mem_nil
      have found := lookup_name_of_reflTransGen sound resolved reached
      rw [Bool.eq_false_iff]
      exact fun passes => missed ⟨above, found, passes⟩

end

/-! ## Interfaces -/

/--
A type implements an interface exactly if the type itself or one of its
supertypes lists the interface.
-/
theorem implements_iff
    (sources : Sources) (earlier : Query α)
    {decl : TypeDecl}
    (resolved : sources.lookup decl.name = some decl)
    (interface : TypeName) :
    Session.resultAfter sources earlier
        (implements sources.depthBound decl interface) = true ↔
      ∃ above, ReflTransGen (Extends sources.lookup) decl above ∧
        interface ∈ above.interfaces := by
  have sound := sources.sound_lookup
  rw [Session.resultAfter_eq_answer, implements, Query.answer_bind, Query.answer_pure]
  rcases search_cases sound sources.suffices_depthBound resolved
      (·.interfaces.contains interface) with
    ⟨above, reached, lists, found⟩ | ⟨none, found⟩
  · rw [found]
    exact ⟨fun _ => ⟨above, reached, List.contains_iff_mem.mp lists⟩, fun _ => rfl⟩
  · rw [found]
    constructor
    · intro impossible
      cases impossible
    · rintro ⟨above, reached, listed⟩
      have unlisted := none above reached
      rw [List.contains_iff_mem.mpr listed] at unlisted
      cases unlisted

/--
Two interfaces that extend each other, below a class that is its own
superclass's superclass.  The interface asked for has no declaration.
-/
theorem implements_iff_cyclic :
    let sources := ClassFile.Outline.sources
      [{ name := "Low", superclass := some "High", interfaces := ["A", "B"] },
        { name := "High", superclass := some "Low", interfaces := ["B", "Asked"] },
        { name := "A", interfaces := ["B"] }, { name := "B", interfaces := ["A"] }]
    ∃ decl, sources.lookup decl.name = some decl ∧ decl.name = ⟨"Low"⟩ ∧
      Session.resultAfter sources (Query.find ⟨"B"⟩)
        (implements sources.depthBound decl ⟨"Asked"⟩) = true ∧
      ∃ above, ReflTransGen (Extends sources.lookup) decl above ∧
        ⟨"Asked"⟩ ∈ above.interfaces := by
  intro sources
  have computed : (sources.lookup ⟨"Low"⟩).map (fun decl =>
      Session.resultAfter sources (Query.find ⟨"B"⟩)
        (implements sources.depthBound decl ⟨"Asked"⟩)) = some true := by
    decide +kernel
  rcases Option.map_eq_some_iff.mp computed with ⟨decl, found, given⟩
  have named : decl.name = ⟨"Low"⟩ := (Sources.lookup_eq_some found).1
  have resolved : sources.lookup decl.name = some decl := named.symm ▸ found
  exact ⟨decl, resolved, named, given,
    (implements_iff sources (Query.find ⟨"B"⟩) resolved ⟨"Asked"⟩).mp given⟩

end TypeReach.Hierarchy
