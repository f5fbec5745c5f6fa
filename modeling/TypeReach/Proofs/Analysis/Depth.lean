import TypeReach.Proofs.Analysis.Emission
import TypeReach.Proofs.Hint.Walk
import TypeReach.Proofs.Query

/-!
# The depth makes no difference

The traversals of an analysis are allowed a depth, so that they end on every
input.  Any depth that suffices for the look-ups gives the same result as any
other.  Each recursion is compared with itself at another depth by an induction
on the first; what keeps both from running out is the number of resolvable
types that were not entered yet, which the types seen so far, or the chain
above an annotation, take away from.
-/

namespace TypeReach

open BoundedQuery (Agree)
open Reach.World (remaining remaining_cons_lt remaining_le_of_subset)
open Resolution (Suffices)

variable {lookup : TypeName → Option TypeDecl} {known : List TypeName}

/-! ## Hierarchies -/

namespace Hierarchy

theorem agree_firstOf
    {holds : List TypeName → Prop}
    {visit other : TypeDecl → List TypeName → BoundedQuery Found}
    {decls : List TypeDecl}
    (visits : ∀ decl ∈ decls, ∀ seen, holds seen →
      Agree lookup (fun found => holds found.2) (visit decl seen) (other decl seen))
    {seen : List TypeName}
    (start : holds seen) :
    Agree lookup (fun found => holds found.2)
      (firstOf visit decls seen) (firstOf other decls seen) := by
  induction decls generalizing seen with
  | nil => exact .pure start
  | cons decl rest inductive_hypothesis =>
      apply (visits decl List.mem_cons_self seen start).bind
      rintro ⟨found, after⟩ holding
      cases found with
      | some name => exact .pure holding
      | none =>
          apply inductive_hypothesis _ holding
          intro next member
          exact visits next (List.mem_cons_of_mem _ member)

/-- A search is the same at any two depths above the number of types that it has not seen. -/
theorem agree_searchFrom
    (sound : ∀ name decl, lookup name = some decl → decl.name = name)
    (complete : ∀ name, (lookup name).isSome = true → name ∈ known)
    (test : TypeDecl → Bool)
    {depth other left : Nat} {decl : TypeDecl} {seen : List TypeName}
    (resolved : decl.name ∈ known)
    (enough : remaining known seen ≤ left)
    (below : left < depth)
    (belowOther : left < other) :
    Agree lookup (fun found => remaining known found.2 ≤ left)
      (searchFrom test depth decl seen) (searchFrom test other decl seen) := by
  induction depth generalizing other left decl seen with
  | zero => exact absurd below (Nat.not_lt_zero _)
  | succ depth inductive_hypothesis =>
      rcases Nat.exists_eq_succ_of_ne_zero (Nat.ne_of_gt (Nat.zero_lt_of_lt belowOther)) with
        ⟨other, rfl⟩
      have declared : ∀ name decl, lookup name = some decl → decl.name ∈ known := by
        intro name decl found
        rw [sound name decl found]
        exact complete name (by rw [found]; rfl)
      simp only [searchFrom]
      split_ifs with entered passes
      · exact .pure enough
      · exact .pure (Nat.le_trans (remaining_le_of_subset (List.subset_cons_self _ _)) enough)
      · -- The type itself was not entered before, so fewer types are left above it.
        have fewer := Nat.lt_of_lt_of_le (remaining_cons_lt resolved entered) enough
        have above : ∀ next : TypeDecl, next.name ∈ known → ∀ seen,
            remaining known seen < left →
            Agree lookup (fun found => remaining known found.2 < left)
              (searchFrom test depth next seen) (searchFrom test other next seen) := by
          intro next nextKnown seen nextEnough
          apply (inductive_hypothesis nextKnown (Nat.le_sub_one_of_lt nextEnough)
            (by omega) (by omega)).mono
          intro found kept
          omega
        apply Agree.ask
        have interfaces := @agree_firstOf lookup (remaining known · < left)
          (searchFrom test depth) (searchFrom test other)
          (decl.interfaces.filterMap lookup)
          (by
            intro next member
            rcases List.mem_filterMap.mp member with ⟨name, _, found⟩
            exact above next (declared name next found))
          (decl.name :: seen) fewer
        apply interfaces.bind
        rintro ⟨found, after⟩ kept
        cases found with
        | some name => exact .pure (Nat.le_of_lt kept)
        | none =>
            apply Agree.ask
            cases superclass : (Query.find? decl.superclass).answer lookup with
            | none => exact .pure (Nat.le_of_lt kept)
            | some next =>
                have nextKnown : next.name ∈ known := by
                  cases written : decl.superclass with
                  | none =>
                      rw [written] at superclass
                      cases superclass
                  | some name =>
                      rw [written] at superclass
                      exact declared name next superclass
                exact (above next nextKnown after kept).mono fun _ => Nat.le_of_lt

end Hierarchy

/-! ## Stereotypes -/

namespace Stereotype

theorem agree_carrierAmong
    (complete : ∀ name, (lookup name).isSome = true → name ∈ known)
    (marker host : TypeName) {left : Nat}
    {visit other : TypeDecl → List TypeName → BoundedQuery Hierarchy.Found}
    (visits : ∀ decl seen, remaining known seen < left →
      Agree lookup (fun found => remaining known found.2 < left)
        (visit decl seen) (other decl seen))
    (uses : List AnnotationUse) {seen : List TypeName}
    (enough : remaining known seen ≤ left) :
    Agree lookup (fun found => remaining known found.2 ≤ left)
      (carrierAmong marker host visit uses seen)
      (carrierAmong marker host other uses seen) := by
  induction uses generalizing seen with
  | nil => exact .pure enough
  | cons use rest inductive_hypothesis =>
      have enoughAfter := Nat.le_trans
        (remaining_le_of_subset (List.subset_cons_self use.type seen)) enough
      simp only [carrierAmong]
      split_ifs with entered marked
      · exact inductive_hypothesis enough
      · exact .pure enoughAfter
      · apply Agree.ask
        cases found : (Query.find use.type).answer lookup with
        | none => exact inductive_hypothesis enoughAfter
        | some decl =>
            have resolves := complete use.type (Option.isSome_iff_exists.mpr ⟨decl, found⟩)
            have fewer := remaining_cons_lt resolves entered
            apply (visits decl _ (Nat.lt_of_lt_of_le fewer enough)).bind
            rintro ⟨carrier, after⟩ kept
            cases carrier with
            | some name => exact .pure (Nat.le_of_lt kept)
            | none => exact inductive_hypothesis (Nat.le_of_lt kept)

theorem agree_carrierFrom
    (complete : ∀ name, (lookup name).isSome = true → name ∈ known)
    (marker : TypeName)
    {depth other left : Nat} (decl : TypeDecl) {seen : List TypeName}
    (enough : remaining known seen ≤ left)
    (below : left < depth)
    (belowOther : left < other) :
    Agree lookup (fun found => remaining known found.2 ≤ left)
      (carrierFrom marker depth decl seen) (carrierFrom marker other decl seen) := by
  induction depth generalizing other left decl seen with
  | zero => exact absurd below (Nat.not_lt_zero _)
  | succ depth inductive_hypothesis =>
      rcases Nat.exists_eq_succ_of_ne_zero (Nat.ne_of_gt (Nat.zero_lt_of_lt belowOther)) with
        ⟨other, rfl⟩
      simp only [carrierFrom]
      apply agree_carrierAmong complete _ _ _ _ enough
      intro next seen nextEnough
      apply (inductive_hypothesis next (Nat.le_sub_one_of_lt nextEnough)
        (by omega) (by omega)).mono
      intro found kept
      omega

end Stereotype

theorem Index.Scan.answer_stereotyped
    (bound : Nat) (names : List TypeName) :
    (stereotyped bound names).answer lookup =
      names.filterMap fun name =>
        (lookup name).bind fun decl =>
          if decl.access.isAnnotationType then none
          else ((Stereotype.of bound decl).answer lookup).map (name, ·) := by
  induction names with
  | nil => rfl
  | cons name rest inductive_hypothesis =>
      rw [stereotyped, Query.answer_bind, Query.answer_find, List.filterMap_cons]
      cases lookup name with
      | none => exact inductive_hypothesis
      | some decl =>
          by_cases skipped : decl.access.isAnnotationType = true
          · simp [skipped, inductive_hypothesis]
          · simp only [skipped, Bool.false_eq_true, if_false, Query.answer_bind,
              Option.bind_some]
            cases (Stereotype.of bound decl).answer lookup with
            | none => exact inductive_hypothesis
            | some stereotype => simp [inductive_hypothesis]

/-! ## Hints -/

namespace Hint

theorem agree_walkEach
    {visit other : Place → AnnotationUse → List Place → BoundedQuery Walked}
    (visits : ∀ place use visited,
      Agree lookup (fun _ => True) (visit place use visited) (other place use visited))
    (host : TypeName) (position : Nat) (uses : List AnnotationUse) (visited : List Place) :
    Agree lookup (fun _ => True)
      (walkEach visit host position uses visited)
      (walkEach other host position uses visited) := by
  induction uses generalizing position visited with
  | nil => exact .pure trivial
  | cons use rest inductive_hypothesis =>
      apply (visits (host, position) use visited).bind
      rintro ⟨hints, between⟩ _
      apply (inductive_hypothesis (position + 1) between).bind
      intro more _
      exact .pure trivial

/-- The chain above an annotation takes its types away from those that are left. -/
theorem agree_walkFrom
    (complete : ∀ name, (lookup name).isSome = true → name ∈ known)
    (policies : PolicyTable)
    {depth other : Nat} {chain : List TypeName}
    (place : Place) (use : AnnotationUse) (visited : List Place)
    (below : remaining known chain < depth)
    (belowOther : remaining known chain < other) :
    Agree lookup (fun _ => True)
      (walkFrom policies depth chain place use visited)
      (walkFrom policies other chain place use visited) := by
  induction depth generalizing other chain place use visited with
  | zero => exact absurd below (Nat.not_lt_zero _)
  | succ depth inductive_hypothesis =>
      rcases Nat.exists_eq_succ_of_ne_zero (Nat.ne_of_gt (Nat.zero_lt_of_lt belowOther)) with
        ⟨other, rfl⟩
      simp only [walkFrom]
      split_ifs with before cyclic
      · exact .pure trivial
      · exact .pure trivial
      · apply Agree.ask
        cases found : (Query.find use.type).answer lookup with
        | none => exact .pure trivial
        | some decl =>
            have resolves := complete use.type (Option.isSome_iff_exists.mpr ⟨decl, found⟩)
            have fewer := Reach.World.remaining_append_lt resolves cyclic
            have deeper := @agree_walkEach lookup
              (walkFrom policies depth (chain ++ [use.type]))
              (walkFrom policies other (chain ++ [use.type]))
              (fun place use visited =>
                inductive_hypothesis place use visited (by omega) (by omega))
            apply (deeper _ _ _ _).bind
            intro below _
            exact .pure trivial

end Hint

/-! ## Evaluations -/

namespace Reach

theorem agree_evaluateEach
    {holds : Evaluation → Prop}
    {visit other : TypeName → Evaluation → BoundedQuery (Bool × Evaluation)}
    (visits : ∀ unit state, holds state →
      Agree lookup (fun result => holds result.2) (visit unit state) (other unit state))
    (units : List TypeName) {state : Evaluation}
    (start : holds state) :
    Agree lookup holds (evaluateEach visit units state) (evaluateEach other units state) := by
  induction units generalizing state with
  | nil => exact .pure start
  | cons unit rest inductive_hypothesis =>
      apply (visits unit state start).bind
      rintro ⟨accepted, after⟩ holding
      exact inductive_hypothesis holding

/-- Rules that differ in how deep they look for hints. -/
structure Rules.Like
    (lookup : TypeName → Option TypeDecl) (first second : Rules) :
    Prop where
  hints : ∀ decl, (first.hintsOf decl).answer lookup = (second.hintsOf decl).answer lookup
  isExcluded : first.isExcluded = second.isExcluded
  capabilities : first.capabilities = second.capabilities

namespace World

variable {first second : Rules}

theorem hints_eq
    (like : Rules.Like lookup first second)
    (unit : TypeName) :
    World.hints ⟨lookup, first⟩ unit = World.hints ⟨lookup, second⟩ unit := by
  simp only [World.hints]
  cases lookup unit with
  | none => rfl
  | some decl => exact like.hints decl

theorem verdict_eq
    (like : Rules.Like lookup first second)
    (unit : TypeName) :
    World.verdict ⟨lookup, first⟩ unit = World.verdict ⟨lookup, second⟩ unit := by
  simp only [verdict, hints_eq like, like.isExcluded]
  rfl

theorem below_eq
    (like : Rules.Like lookup first second)
    (unit : TypeName) :
    World.below ⟨lookup, first⟩ unit = World.below ⟨lookup, second⟩ unit := by
  simp only [World.below, imports, hints_eq like]
  rfl

theorem enter_eq
    (like : Rules.Like lookup first second)
    (unit : TypeName) (state : Evaluation) :
    World.enter ⟨lookup, first⟩ unit state = World.enter ⟨lookup, second⟩ unit state := by
  simp only [enter, entryRequests, checked, hints_eq like, like.capabilities]

theorem settle_eq
    (like : Rules.Like lookup first second)
    (unit : TypeName) (state : Evaluation) :
    World.settle ⟨lookup, first⟩ unit state = World.settle ⟨lookup, second⟩ unit state := by
  simp only [settle, exitRequests, unresolvable, plain, hints_eq like, like.capabilities]
  rfl

end World

/-- Every evaluation within a sufficient depth leaves no more types than it began with. -/
theorem World.remaining_evaluateFrom_le
    {world : World}
    (complete : ∀ name, world.Resolves name → name ∈ known)
    {depth : Nat} {unit : TypeName} {state : Evaluation} {result : Bool × Evaluation}
    (enough : remaining known state.visited < depth)
    (evaluated :
      (evaluateFrom world.rules depth unit state).run.answer world.lookup = some result) :
    remaining known result.2.visited ≤ remaining known state.visited := by
  rcases exists_traversal_evaluateFrom complete depth unit state enough with
    ⟨accepted, fresh, after, reached, traversal⟩
  rw [evaluated] at reached
  rw [Option.some.inj reached, traversal.visited]
  exact remaining_append_le _ _ _

theorem agree_evaluateFrom
    (complete : ∀ name, (lookup name).isSome = true → name ∈ known)
    {first second : Rules}
    (like : Rules.Like lookup first second)
    {depth other left : Nat} (unit : TypeName) {state : Evaluation}
    (enough : remaining known state.visited ≤ left)
    (below : left < depth)
    (belowOther : left < other) :
    Agree lookup (fun result => remaining known result.2.visited ≤ left)
      (evaluateFrom first depth unit state) (evaluateFrom second other unit state) := by
  let world : World := ⟨lookup, first⟩
  let likeWorld : World := ⟨lookup, second⟩
  refine ⟨?_, fun result evaluated => Nat.le_trans
    (@World.remaining_evaluateFrom_le known world complete depth unit state result
      (Nat.lt_of_le_of_lt enough below) evaluated) enough⟩
  -- The number of types left bounds both depths, and every accepted unit lowers it.
  induction depth generalizing other left unit state with
  | zero => exact absurd below (Nat.not_lt_zero _)
  | succ depth inductive_hypothesis =>
      rcases Nat.exists_eq_succ_of_ne_zero (Nat.ne_of_gt (Nat.zero_lt_of_lt belowOther)) with
        ⟨other, rfl⟩
      by_cases visited : unit ∈ state.visited
      · rw [world.answer_evaluateFrom_visited depth visited,
          likeWorld.answer_evaluateFrom_visited other visited]
      · have sameVerdict : world.verdict unit = likeWorld.verdict unit :=
          World.verdict_eq like unit
        cases judged : world.verdict unit with
        | some reason =>
            rw [world.answer_evaluateFrom_rejected depth visited judged,
              likeWorld.answer_evaluateFrom_rejected other visited (sameVerdict ▸ judged)]
        | none =>
            have resolves := complete unit (World.verdict_eq_none_iff.mp judged).resolves
            have fewer : remaining known (world.enter unit state).visited < left :=
              Nat.lt_of_lt_of_le (World.remaining_append_lt resolves visited) enough
            have visits : ∀ next state, remaining known state.visited < left →
                Agree lookup (fun result => remaining known result.2.visited < left)
                  (evaluateFrom first depth next state)
                  (evaluateFrom second other next state) := by
              intro next state nextEnough
              constructor
              · exact inductive_hypothesis next (Nat.le_sub_one_of_lt nextEnough)
                  (by omega) (by omega)
              · intro result evaluated
                have kept := @World.remaining_evaluateFrom_le known world complete
                  depth next state result (by omega) evaluated
                omega
            have each := @agree_evaluateEach lookup
              (fun state => remaining known state.visited < left)
              (evaluateFrom first depth) (evaluateFrom second other) visits
              (world.below unit) (world.enter unit state) fewer
            rw [world.answer_evaluateFrom_accepted depth visited judged,
              likeWorld.answer_evaluateFrom_accepted other visited (sameVerdict ▸ judged)]
            change (Option.map _ ((evaluateEach (evaluateFrom first depth)
              (world.below unit) (world.enter unit state)).run.answer lookup)) = _
            rw [each.same]
            have below : likeWorld.below unit = world.below unit :=
              (World.below_eq like unit).symm
            have enter : likeWorld.enter unit state = world.enter unit state :=
              (World.enter_eq like unit state).symm
            have settle : likeWorld.settle unit = world.settle unit :=
              funext fun state => (World.settle_eq like unit state).symm
            rw [below, enter, settle]

end Reach

/-! ## Analyses -/

namespace Resolution

theorem Suffices.exists_known
    {first second : Nat}
    (sufficient : Suffices first lookup)
    (sufficientToo : Suffices second lookup) :
    ∃ known : List TypeName, known.length < first ∧ known.length < second ∧
      ∀ name, (lookup name).isSome = true → name ∈ known := by
  rcases sufficient with ⟨known, below, complete⟩
  rcases sufficientToo with ⟨other, otherBelow, otherComplete⟩
  rcases Nat.le_total first second with less | less
  · exact ⟨known, below, Nat.lt_of_lt_of_le below less, complete⟩
  · exact ⟨other, Nat.lt_of_lt_of_le otherBelow less, otherBelow, otherComplete⟩

end Resolution

end TypeReach
