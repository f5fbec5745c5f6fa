import Mathlib.Data.Set.Card
import TypeReach.Proofs.Analysis.Depth
import TypeReach.Proofs.Reach.Collecting
import TypeReach.Proofs.Stereotype

/-!
# Every traversal ends

Imports, nesting, annotations and hierarchies may all be cyclic.  A traversal ends
nevertheless: the types that calls in progress are concerned with resolve and differ
from each other, all but one of them, so that no more calls are in progress than there
are resolvable types and one more.  What takes a type away from those that are left is
another thing in each recursion: the units visited, the chain above an annotation, the
annotation types seen, and the declarations seen.  The one that is left over is the
innermost call, which is made before its type turns out to be known or missing; only
the search for the carrier of a marker checks before it calls, and there it is the
outermost, whose own name was not seen.

A call is given the number of calls that may be in progress from there on, itself
included.  It gives one less to the calls that it makes, and where none is left the
whole recursion gives up.  So a recursion that does not give up within a depth does not
nest deeper, and `EndsWithin` says that of a depth and all greater ones.
-/

namespace TypeReach

open BoundedQuery (Ends)
open Reach.World (remaining remaining_append_lt remaining_cons_lt remaining_le_of_subset)
open Resolution (Session Sources)

/-! ## Resolvable types -/

namespace Resolution.Sources

/-- The names that resolve. -/
def resolvable (sources : Sources) : Set TypeName :=
  {name | (sources.lookup name).isSome = true}

theorem finite_resolvable (sources : Sources) : sources.resolvable.Finite := by
  apply (List.finite_toSet sources.declared).subset
  intro name resolves
  exact mem_declared resolves

/-- Some list of names has all that resolve and is no longer than there are of these. -/
theorem exists_known (sources : Sources) :
    ∃ known : List TypeName, known.length = sources.resolvable.ncard ∧
      ∀ name, (sources.lookup name).isSome = true → name ∈ known := by
  refine ⟨sources.finite_resolvable.toFinset.toList, ?_, ?_⟩
  · rw [Finset.length_toList, Set.ncard_eq_toFinset_card _ sources.finite_resolvable]
  · intro name resolves
    rw [Finset.mem_toList, Set.Finite.mem_toFinset]
    exact resolves

/-- The depth that sources allow exceeds the number of resolvable names. -/
theorem ncard_resolvable_lt_depthBound (sources : Sources) :
    sources.resolvable.ncard < sources.depthBound := by
  have listed : sources.resolvable ⊆ (sources.declared.toFinset : Set TypeName) := by
    intro name resolves
    rw [Finset.mem_coe, List.mem_toFinset]
    exact mem_declared resolves
  calc sources.resolvable.ncard
      ≤ (sources.declared.toFinset : Set TypeName).ncard :=
        Set.ncard_le_ncard listed (Finset.finite_toSet _)
    _ = sources.declared.toFinset.card := Set.ncard_coe_finset _
    _ ≤ sources.declared.length := List.toFinset_card_le _
    _ ≤ sources.contents.length := List.length_filterMap_le _ _
    _ < sources.depthBound := Nat.lt_succ_self _

end Resolution.Sources

/-! ## Recursions that end -/

/--
From some number of nested calls on, a recursion does not give up, and what it comes
to is always the same, whatever was asked before.
-/
def Resolution.Session.EndsWithin
    (sources : Sources) (limit : Nat) (recursion : Nat → BoundedQuery α) : Prop :=
  ∃ value, ∀ depth, limit ≤ depth → ∀ (β : Type) (earlier : Query β),
    resultAfter sources earlier (recursion depth).run = some value

open Resolution.Session (EndsWithin)

theorem Resolution.Session.EndsWithin.ofEnds
    {sources : Sources} {limit : Nat} {recursion : Nat → BoundedQuery α} {holds : α → Prop}
    (ends : Ends sources.lookup holds (recursion limit))
    (same : ∀ depth, limit ≤ depth →
      (recursion limit).run.answer sources.lookup =
        (recursion depth).run.answer sources.lookup) :
    EndsWithin sources limit recursion := by
  rcases ends with ⟨value, answered, _⟩
  refine ⟨value, ?_⟩
  intro depth deeper _ earlier
  rw [Session.resultAfter_eq_answer, ← same depth deeper, answered]

namespace Hint

variable {lookup : TypeName → Option TypeDecl} {known : List TypeName}

theorem ends_walkEach
    {visit : Place → AnnotationUse → List Place → BoundedQuery Walked}
    (visits : ∀ place use visited, Ends lookup (fun _ => True) (visit place use visited))
    (host : TypeName) (position : Nat) (uses : List AnnotationUse) (visited : List Place) :
    Ends lookup (fun _ => True) (walkEach visit host position uses visited) := by
  induction uses generalizing position visited with
  | nil => exact .pure trivial
  | cons use rest inductive_hypothesis =>
      apply (visits (host, position) use visited).bind
      rintro ⟨hints, between⟩ _
      apply (inductive_hypothesis (position + 1) between).bind
      intro more _
      exact .pure trivial

/-- Whatever the chain is and whatever was visited, the types off the chain bound the depth. -/
theorem ends_walkFrom
    (complete : ∀ name, (lookup name).isSome = true → name ∈ known)
    (policies : PolicyTable)
    {depth : Nat} {chain : List TypeName}
    (place : Place) (use : AnnotationUse) (visited : List Place)
    (enough : remaining known chain < depth) :
    Ends lookup (fun _ => True) (walkFrom policies depth chain place use visited) := by
  induction depth generalizing chain place use visited with
  | zero => exact absurd enough (Nat.not_lt_zero _)
  | succ depth inductive_hypothesis =>
      simp only [walkFrom]
      split_ifs with before cyclic
      · exact .pure trivial
      · exact .pure trivial
      · apply Ends.ask
        cases found : (Query.find use.type).answer lookup with
        | none => exact .pure trivial
        | some decl =>
            have resolves := complete use.type (Option.isSome_iff_exists.mpr ⟨decl, found⟩)
            have fewer : remaining known (chain ++ [use.type]) < depth :=
              Nat.lt_of_lt_of_le (remaining_append_lt resolves cyclic) (Nat.le_of_lt_succ enough)
            have deeper := @ends_walkEach lookup (walkFrom policies depth (chain ++ [use.type]))
              fun place use visited => inductive_hypothesis place use visited fewer
            apply (deeper _ _ _ _).bind
            intro below _
            exact .pure trivial

end Hint

namespace Hierarchy

variable {lookup : TypeName → Option TypeDecl} {known : List TypeName}

theorem ends_firstOf_of_subset
    {visit : TypeDecl → List TypeName → BoundedQuery Found}
    {before : List TypeName} {decls : List TypeDecl}
    (visits : ∀ decl ∈ decls, ∀ seen, before ⊆ seen →
      Ends lookup (fun found => seen ⊆ found.2) (visit decl seen))
    {seen : List TypeName}
    (kept : before ⊆ seen) :
    Ends lookup (fun found => before ⊆ found.2) (firstOf visit decls seen) := by
  induction decls generalizing seen with
  | nil => exact .pure kept
  | cons decl rest inductive_hypothesis =>
      apply (visits decl List.mem_cons_self seen kept).bind
      rintro ⟨found, after⟩ grown
      have keptAfter : before ⊆ after := List.Subset.trans kept grown
      cases found with
      | some name => exact .pure keptAfter
      | none =>
          apply inductive_hypothesis _ keptAfter
          intro next member
          exact visits next (List.mem_cons_of_mem _ member)

/-- The declaration may come from elsewhere, as long as its name is among those known. -/
theorem ends_searchFrom
    (sound : ∀ name decl, lookup name = some decl → decl.name = name)
    (complete : ∀ name, (lookup name).isSome = true → name ∈ known)
    (test : TypeDecl → Bool)
    {depth : Nat} {decl : TypeDecl} {seen : List TypeName}
    (isKnown : decl.name ∈ known)
    (enough : remaining known seen < depth) :
    Ends lookup (fun found => seen ⊆ found.2) (searchFrom test depth decl seen) := by
  induction depth generalizing decl seen with
  | zero => exact absurd enough (Nat.not_lt_zero _)
  | succ depth inductive_hypothesis =>
      simp only [searchFrom]
      split_ifs with entered passes
      · exact .pure (List.Subset.refl _)
      · exact .pure (List.subset_cons_self _ _)
      · have fewer : remaining known (decl.name :: seen) < depth :=
          Nat.lt_of_lt_of_le (remaining_cons_lt isKnown entered) (Nat.le_of_lt_succ enough)
        have above : ∀ next, Extends lookup decl next → ∀ after, decl.name :: seen ⊆ after →
            Ends lookup (fun found => after ⊆ found.2) (searchFrom test depth next after) := by
          intro next extending after kept
          have nextKnown := complete next.name (by rw [extending.lookup_name sound]; rfl)
          exact inductive_hypothesis nextKnown
            (Nat.lt_of_le_of_lt (remaining_le_of_subset kept) fewer)
        have interfaces := @ends_firstOf_of_subset lookup (searchFrom test depth)
          (decl.name :: seen) (decl.interfaces.filterMap lookup)
          (fun next member =>
            above next (mem_parents_iff.mp (List.mem_append_left _ member)))
          _ (List.Subset.refl _)
        apply Ends.ask
        apply interfaces.bind
        rintro ⟨found, between⟩ kept
        have keptSeen : seen ⊆ between := List.Subset.trans (List.subset_cons_self _ _) kept
        cases found with
        | some name => exact .pure keptSeen
        | none =>
            apply Ends.ask
            rw [answer_find?]
            cases superclass : decl.superclass.bind lookup with
            | none => exact .pure keptSeen
            | some next =>
                have extending : Extends lookup decl next := by
                  apply mem_parents_iff.mp
                  rw [superclass]
                  exact List.mem_append_right _ List.mem_cons_self
                apply (above next extending between kept).mono
                intro found grown
                exact List.Subset.trans keptSeen grown

end Hierarchy

section

variable (sources : Sources)

theorem Reach.endsWithin_evaluateFrom
    (rules : Rules) (unit : TypeName) (state : Evaluation) :
    EndsWithin sources (sources.resolvable.ncard + 1) fun depth =>
      evaluateFrom rules depth unit state := by
  rcases sources.exists_known with ⟨known, length, complete⟩
  have enough : remaining known state.visited ≤ known.length := List.countP_le_length
  rw [← length]
  have ends : Ends sources.lookup (fun _ => True)
      (evaluateFrom rules (known.length + 1) unit state) := by
    rcases @World.exists_traversal_evaluateFrom ⟨sources.lookup, rules⟩ known complete
      (known.length + 1) unit state (Nat.lt_succ_of_le enough) with
      ⟨accepted, _, after, evaluated, _⟩
    exact ⟨(accepted, after), evaluated, trivial⟩
  apply EndsWithin.ofEnds ends
  intro depth deeper
  have like : Rules.Like sources.lookup rules rules := ⟨fun _ => rfl, rfl, rfl⟩
  exact (agree_evaluateFrom complete like unit enough (Nat.lt_succ_self _) deeper).same

theorem Hint.endsWithin_walkFrom
    (policies : PolicyTable) (chain : List TypeName)
    (place : Place) (use : AnnotationUse) (visited : List Place) :
    EndsWithin sources (sources.resolvable.ncard + 1) fun depth =>
      walkFrom policies depth chain place use visited := by
  rcases sources.exists_known with ⟨known, length, complete⟩
  have enough : remaining known chain < known.length + 1 :=
    Nat.lt_succ_of_le List.countP_le_length
  rw [← length]
  apply EndsWithin.ofEnds (ends_walkFrom complete policies place use visited enough)
  intro depth deeper
  exact (agree_walkFrom complete policies place use visited enough
    (Nat.lt_of_lt_of_le enough deeper)).same

theorem Stereotype.endsWithin_carrierFrom
    (marker : TypeName) (decl : TypeDecl) (seen : List TypeName) :
    EndsWithin sources (sources.resolvable.ncard + 1) fun depth =>
      carrierFrom marker depth decl seen := by
  rcases sources.exists_known with ⟨known, length, complete⟩
  have enough : remaining known seen ≤ known.length := List.countP_le_length
  rw [← length]
  apply EndsWithin.ofEnds (seeks_carrierFrom complete .refl (Nat.lt_succ_of_le enough))
  intro depth deeper
  exact (agree_carrierFrom complete marker decl enough (Nat.lt_succ_self _) deeper).same

theorem Hierarchy.endsWithin_searchFrom
    (test : TypeDecl → Bool) {decl : TypeDecl} (seen : List TypeName)
    (resolves : decl.name ∈ sources.resolvable) :
    EndsWithin sources (sources.resolvable.ncard + 1) fun depth =>
      searchFrom test depth decl seen := by
  rcases sources.exists_known with ⟨known, length, complete⟩
  have isKnown := complete decl.name resolves
  have enough : remaining known seen ≤ known.length := List.countP_le_length
  rw [← length]
  apply EndsWithin.ofEnds
    (ends_searchFrom sources.sound_lookup complete test isKnown (Nat.lt_succ_of_le enough))
  intro depth deeper
  exact (agree_searchFrom sources.sound_lookup complete test isKnown enough
    (Nat.lt_succ_self _) deeper).same

/-- A declaration from elsewhere can be in progress besides those of all resolvable types. -/
theorem Hierarchy.endsWithin_searchFrom_foreign
    (test : TypeDecl → Bool) (decl : TypeDecl) (seen : List TypeName) :
    EndsWithin sources (sources.resolvable.ncard + 2) fun depth =>
      searchFrom test depth decl seen := by
  rcases sources.exists_known with ⟨known, length, complete⟩
  have completeWith : ∀ name, (sources.lookup name).isSome = true →
      name ∈ decl.name :: known :=
    fun name resolves => List.mem_cons_of_mem _ (complete name resolves)
  have enough : remaining (decl.name :: known) seen ≤ known.length + 1 :=
    List.countP_le_length
  rw [← length]
  apply EndsWithin.ofEnds (ends_searchFrom sources.sound_lookup completeWith test
    List.mem_cons_self (Nat.lt_succ_of_le enough))
  intro depth deeper
  exact (agree_searchFrom sources.sound_lookup completeWith test List.mem_cons_self enough
    (Nat.lt_succ_self _) deeper).same

end

/--
On every finite world, however cyclic, all traversals end, and none of them has more
calls in progress than there are resolvable types and one more: the evaluation of
units, the walk over annotations, the search for the carrier of a marker, and the search
through supertypes, whatever it looks for.  The depth that sources allow is enough for
that.  Only a search that is given a declaration whose name does not resolve may have
that one in progress as well.

The evaluation of a candidate collects the hints of each unit that it visits, that is
not excluded and that resolves, and of none of them twice.  This is said by what is
asked for: if collecting the hints of a declaration asks for further names, whichever
these are, the evaluation asks for the names of each such unit once more.
-/
theorem traversals_end (sources : Sources) :
    let limit := sources.resolvable.ncard + 1
    sources.resolvable.Finite ∧ limit ≤ sources.depthBound ∧
      (∀ rules unit state, EndsWithin sources limit fun depth =>
        Reach.evaluateFrom rules depth unit state) ∧
      (∀ policies chain place use visited, EndsWithin sources limit fun depth =>
        Hint.walkFrom policies depth chain place use visited) ∧
      (∀ marker decl seen, EndsWithin sources limit fun depth =>
        Stereotype.carrierFrom marker depth decl seen) ∧
      (∀ test decl seen, decl.name ∈ sources.resolvable →
        EndsWithin sources limit fun depth => Hierarchy.searchFrom test depth decl seen) ∧
      (∀ test decl seen, EndsWithin sources (limit + 1) fun depth =>
        Hierarchy.searchFrom test depth decl seen) ∧
      ∀ (rules : Reach.Rules) candidate depth, limit ≤ depth →
        ∃ accepted after, ∃ collected : List TypeDecl,
          (∀ (β : Type) (earlier : Query β),
            Session.resultAfter sources earlier
                (Reach.evaluateFrom rules depth candidate .start).run =
              some (accepted, after) ∧
            Session.resultAfter sources earlier (Reach.evaluateRoot rules depth candidate) =
              .ofEvaluation candidate accepted after) ∧
          (collected.map TypeDecl.name).Nodup ∧
          (∀ decl, decl ∈ collected ↔ decl.name ∈ after.visited ∧
            rules.isExcluded decl.name = false ∧ sources.lookup decl.name = some decl) ∧
          ∀ extra : TypeDecl → List TypeName,
            (Reach.evaluateFrom (rules.asking extra) depth candidate .start).run.answer
                sources.lookup = some (accepted, after) ∧
              List.Perm
                ((Reach.evaluateFrom (rules.asking extra) depth candidate .start).run.asked
                  sources.lookup)
                ((Reach.evaluateFrom rules depth candidate .start).run.asked sources.lookup ++
                  collected.flatMap extra) := by
  intro limit
  refine ⟨sources.finite_resolvable, sources.ncard_resolvable_lt_depthBound,
    Reach.endsWithin_evaluateFrom sources, Hint.endsWithin_walkFrom sources,
    Stereotype.endsWithin_carrierFrom sources,
    fun test _ seen => Hierarchy.endsWithin_searchFrom sources test seen,
    Hierarchy.endsWithin_searchFrom_foreign sources, ?_⟩
  intro rules candidate depth deeper
  let world : Reach.World := ⟨sources.lookup, rules⟩
  rcases sources.exists_known with ⟨known, length, complete⟩
  have enough : known.length < depth := by
    rw [length]
    exact deeper
  rcases @Reach.World.exists_collected world known complete depth candidate enough with
    ⟨accepted, after, evaluated, distinct, asking⟩
  refine ⟨accepted, after, world.collected after.visited, ?_,
    Reach.World.nodup_map_name_collected sources.sound_lookup distinct,
    fun _ => Reach.World.mem_collected_iff sources.sound_lookup, asking⟩
  intro β earlier
  rw [Session.resultAfter_eq_answer, Session.resultAfter_eq_answer]
  refine ⟨evaluated, ?_⟩
  have answered : (Reach.evaluateFrom rules depth candidate .start).run.answer sources.lookup =
      some (accepted, after) := evaluated
  simp [Reach.evaluateRoot, Reach.evaluate, BoundedQuery.getD, answered]

/--
Two types that are each other's superclass: a search has the first of them in progress
twice, and two calls are not enough.  Where it starts from a declaration whose name does
not resolve, below these two, three are not enough either.
-/
theorem traversals_end_cycle :
    let sources := ClassFile.Outline.sources
      [{ name := "Low", superclass := some "High" }, { name := "High", superclass := some "Low" }]
    let search := Hierarchy.searchFrom (·.interfaces.contains ⟨"Asked"⟩)
    sources.resolvable.ncard = 2 ∧
      ∃ decl foreign, decl.name ∈ sources.resolvable ∧ decl.name = ⟨"Low"⟩ ∧
        (search 2 decl []).run.answer sources.lookup = none ∧
        (EndsWithin sources 3 fun depth => search depth decl []) ∧
        foreign.name ∉ sources.resolvable ∧
        (search 3 foreign []).run.answer sources.lookup = none ∧
        EndsWithin sources 4 fun depth => search depth foreign [] := by
  intro sources search
  have declared : sources.declared = [⟨"Low"⟩, ⟨"High"⟩] := by decide +kernel
  have lowResolves : (sources.lookup ⟨"Low"⟩).isSome = true := by decide +kernel
  have highResolves : (sources.lookup ⟨"High"⟩).isSome = true := by decide +kernel
  have both : sources.resolvable = {⟨"Low"⟩, ⟨"High"⟩} := by
    ext name
    constructor
    · intro resolves
      have listed := Sources.mem_declared resolves
      rw [declared] at listed
      simpa using listed
    · rintro (rfl | rfl)
      · exact lowResolves
      · exact highResolves
  have two : sources.resolvable.ncard = 2 := by
    rw [both]
    exact Set.ncard_pair (by decide)
  have computed : (sources.lookup ⟨"Low"⟩).map (fun decl =>
      (((search 2 decl []).run.answer sources.lookup).isNone,
        ((search 3 { decl with name := ⟨"Foreign"⟩ } []).run.answer
          sources.lookup).isNone)) = some (true, true) := by
    decide +kernel
  rcases Option.map_eq_some_iff.mp computed with ⟨decl, found, gaveUp⟩
  rw [Prod.mk.injEq, Option.isNone_iff_eq_none, Option.isNone_iff_eq_none] at gaveUp
  have named : decl.name = ⟨"Low"⟩ := (Sources.lookup_eq_some found).1
  have resolves : decl.name ∈ sources.resolvable := by
    rw [named]
    exact lowResolves
  have missing : (⟨"Foreign"⟩ : TypeName) ∉ sources.resolvable := by
    rw [both]
    simp
  have ends := traversals_end sources
  have searchEnds := ends.2.2.2.2.2.1 (·.interfaces.contains ⟨"Asked"⟩) decl [] resolves
  have foreignEnds := ends.2.2.2.2.2.2.1 (·.interfaces.contains ⟨"Asked"⟩)
    { decl with name := ⟨"Foreign"⟩ } []
  rw [two] at searchEnds foreignEnds
  exact ⟨two, decl, { decl with name := ⟨"Foreign"⟩ }, resolves, named, gaveUp.1, searchEnds,
    missing, gaveUp.2, foreignEnds⟩

end TypeReach
