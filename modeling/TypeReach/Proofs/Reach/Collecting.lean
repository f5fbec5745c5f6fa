import TypeReach.Proofs.Query
import TypeReach.Proofs.Reach.Traversal

/-!
# Whose hints are collected

How often an evaluation collects hints cannot be seen from what it comes to.  It can
be seen from what it asks for, if collecting the hints of a declaration asks for some
further names as well.  Whatever these names are, the same evaluation by such rules
comes to the same, and what it asks for in addition is the names of certain
declarations, each of them once.  These are the declarations of the units that it
visits, that are not excluded and that resolve.  Since no unit is visited twice, no
hints are collected twice.
-/

namespace TypeReach

open List (Perm)

/-- Ask for types, whatever comes of it. -/
def Query.findAll : List TypeName → Query Unit
  | [] => return ()
  | name :: rest => do
    let _ ← find name
    findAll rest

theorem Query.asked_findAll
    {lookup : TypeName → Option TypeDecl} (names : List TypeName) :
    (findAll names).asked lookup = names := by
  induction names with
  | nil => rfl
  | cons name rest inductive_hypothesis =>
      rw [findAll, asked_bind, inductive_hypothesis]
      rfl

namespace Reach

/-- Rules by which collecting the hints of a declaration asks for further names. -/
def Rules.asking (extra : TypeDecl → List TypeName) (rules : Rules) : Rules :=
  { rules with
    hintsOf := fun decl => do
      Query.findAll (extra decl)
      rules.hintsOf decl }

namespace World

/-! ## Asking for more -/

/-- The declarations of those units that are not excluded. -/
def collected (world : World) (units : List TypeName) : List TypeDecl :=
  (units.filter fun unit => ! world.rules.isExcluded unit).filterMap world.lookup

theorem collected_append
    (world : World) (first second : List TypeName) :
    world.collected (first ++ second) = world.collected first ++ world.collected second := by
  rw [collected, List.filter_append, List.filterMap_append]
  rfl

/--
Two evaluations that have visited the same units before come to the same, also where
they give up.  The second one asks for more, by the units that are visited.
-/
def AsksMore
    (world : World) (extra : TypeDecl → List TypeName) (before : List TypeName)
    (visited : α → List TypeName) (plain asking : BoundedQuery α) : Prop :=
  (plain.run.answer world.lookup = none ∧ asking.run.answer world.lookup = none) ∨
    ∃ value fresh,
      plain.run.answer world.lookup = some value ∧
        asking.run.answer world.lookup = some value ∧
        visited value = before ++ fresh ∧
        Perm (asking.run.asked world.lookup)
          (plain.run.asked world.lookup ++ (world.collected fresh).flatMap extra)

namespace AsksMore

variable
  {world : World} {extra : TypeDecl → List TypeName} {before : List TypeName}
  {visited : α → List TypeName}

protected theorem pure
    {value : α} (fresh : List TypeName)
    (grown : visited value = before ++ fresh)
    (nothing : world.collected fresh = []) :
    world.AsksMore extra before visited (pure value) (pure value) := by
  refine Or.inr ⟨value, fresh, rfl, rfl, grown, ?_⟩
  rw [nothing]
  exact Perm.refl _

protected theorem bind
    {between : β → List TypeName}
    {first second : BoundedQuery β} {next other : β → BoundedQuery α}
    (more : world.AsksMore extra before between first second)
    (following : ∀ value, first.run.answer world.lookup = some value →
      world.AsksMore extra (between value) visited (next value) (other value)) :
    world.AsksMore extra before visited (first >>= next) (second >>= other) := by
  rcases more with ⟨gaveUp, gaveUpAsking⟩ | ⟨value, units, answered, answeredAsking, grown, asks⟩
  · exact Or.inl ⟨by simp [gaveUp], by simp [gaveUpAsking]⟩
  rcases following value answered with
    ⟨gaveUp, gaveUpAsking⟩ | ⟨result, rest, answeredNext, answeredOther, grownMore, asksNext⟩
  · exact Or.inl ⟨by simp [answered, gaveUp], by simp [answeredAsking, gaveUpAsking]⟩
  · refine Or.inr ⟨result, units ++ rest, by simp [answered, answeredNext],
      by simp [answeredAsking, answeredOther], ?_, ?_⟩
    · rw [grownMore, grown, List.append_assoc]
    · have left : (first >>= next).run.asked world.lookup =
          first.run.asked world.lookup ++ (next value).run.asked world.lookup := by
        change (first.run >>= _).asked world.lookup = _
        rw [Query.asked_bind, answered]
      have right : (second >>= other).run.asked world.lookup =
          second.run.asked world.lookup ++ (other value).run.asked world.lookup := by
        change (second.run >>= _).asked world.lookup = _
        rw [Query.asked_bind, answeredAsking]
      rw [left, right, collected_append, List.flatMap_append]
      have both := asks.append asksNext
      rw [List.perm_iff_count] at both ⊢
      intro name
      have counted := both name
      simp only [List.count_append] at counted ⊢
      omega

theorem asked_run_lift
    (query : Query β) :
    (monadLift query : BoundedQuery β).run.asked world.lookup = query.asked world.lookup := by
  change (query >>= fun value => pure (some value)).asked world.lookup = _
  rw [Query.asked_bind]
  exact List.append_nil _

/-- A query that is the same for both visits nothing. -/
theorem ask
    {query : Query β} {next other : β → BoundedQuery α}
    (following : world.AsksMore extra before visited
      (next (query.answer world.lookup)) (other (query.answer world.lookup))) :
    world.AsksMore extra before visited
      (monadLift query >>= next) (monadLift query >>= other) := by
  have same : world.AsksMore extra before (fun _ => before)
      (monadLift query) (monadLift query) :=
    Or.inr ⟨_, [], BoundedQuery.answer_run_lift _ _, BoundedQuery.answer_run_lift _ _,
      (List.append_nil _).symm, by simp [collected]⟩
  apply same.bind
  intro value answered
  rw [BoundedQuery.answer_run_lift] at answered
  rw [← Option.some.inj answered]
  exact following

/-- Where hints are collected, the names for the declaration are asked for once. -/
theorem collect
    {unit : TypeName} {decl : TypeDecl}
    (allowed : world.rules.isExcluded unit = false)
    (found : world.lookup unit = some decl)
    {next other : List Hint → BoundedQuery α}
    (following : ∀ hints, world.AsksMore extra (before ++ [unit]) visited
      (next hints) (other hints)) :
    world.AsksMore extra before visited
      (monadLift (world.rules.hintsOf decl) >>= next)
      (monadLift ((world.rules.asking extra).hintsOf decl) >>= other) := by
  have own : world.collected [unit] = [decl] := by
    simp [collected, allowed, found]
  have asks : ((world.rules.asking extra).hintsOf decl).asked world.lookup =
      extra decl ++ (world.rules.hintsOf decl).asked world.lookup := by
    rw [Rules.asking, Query.asked_bind, Query.asked_findAll]
  have more : world.AsksMore extra before (fun _ => before ++ [unit])
      (monadLift (world.rules.hintsOf decl))
      (monadLift ((world.rules.asking extra).hintsOf decl)) := by
    refine Or.inr ⟨_, [unit], BoundedQuery.answer_run_lift _ _, ?_, rfl, ?_⟩
    · rw [BoundedQuery.answer_run_lift, Rules.asking, Query.answer_bind]
    · rw [asked_run_lift, asked_run_lift, asks, own, List.flatMap_singleton]
      exact List.perm_append_comm
  apply more.bind
  intro hints _
  exact following hints

end AsksMore

/-! ## Evaluations -/

theorem asksMore_evaluateEach
    {world : World} {extra : TypeDecl → List TypeName}
    {visit other : TypeName → Evaluation → BoundedQuery (Bool × Evaluation)}
    (visits : ∀ unit state,
      world.AsksMore extra state.visited (·.2.visited) (visit unit state) (other unit state))
    (units : List TypeName) (state : Evaluation) :
    world.AsksMore extra state.visited Evaluation.visited
      (evaluateEach visit units state) (evaluateEach other units state) := by
  induction units generalizing state with
  | nil => exact .pure [] (List.append_nil _).symm rfl
  | cons unit rest inductive_hypothesis =>
      apply (visits unit state).bind
      rintro ⟨_, between⟩ _
      exact inductive_hypothesis between

/-- The induction is on the depth; each call that collects hints visits its own unit first. -/
theorem asksMore_evaluateFrom
    (world : World) (extra : TypeDecl → List TypeName)
    (depth : Nat) (unit : TypeName) (state : Evaluation) :
    world.AsksMore extra state.visited (·.2.visited)
      (evaluateFrom world.rules depth unit state)
      (evaluateFrom (world.rules.asking extra) depth unit state) := by
  induction depth generalizing unit state with
  | zero => exact Or.inl ⟨rfl, rfl⟩
  | succ depth inductive_hypothesis =>
      have each := @asksMore_evaluateEach world extra _ _ inductive_hypothesis
      have sameExclusion : (world.rules.asking extra).isExcluded = world.rules.isExcluded := rfl
      simp only [evaluateFrom, sameExclusion]
      split_ifs with before excluded
      · exact .pure [] (List.append_nil _).symm rfl
      · exact .pure [unit] rfl (by simp [collected, excluded])
      · apply AsksMore.ask
        cases found : (Query.find unit).answer world.lookup with
        | none => exact .pure [unit] rfl (by simpa [collected] using fun _ => found)
        | some decl =>
            apply AsksMore.collect (by simpa using excluded) found
            intro hints
            apply AsksMore.ask
            cases (failing (hints.filter Hint.skipIfMissing)).answer world.lookup with
            | some reason => exact .pure [] (List.append_nil _).symm rfl
            | none =>
                have entered : (registerUnit world.rules unit hints
                    (state.visit unit)).visited = state.visited ++ [unit] := by
                  rw [registerUnit, foldl_register_eq]
                  rfl
                rw [← entered]
                apply (each _ _).bind
                intro afterImports _
                apply (each _ _).bind
                intro afterNested _
                apply AsksMore.ask
                refine .pure [] ?_ rfl
                rw [world.answer_registerResolvable, List.append_nil]

/--
Within a sufficient depth, an evaluation in a traversal of its own collects the hints of
the units that it visits, as far as they are not excluded and resolve, and of each of
these once.
-/
theorem exists_collected
    {world : World} {known : List TypeName}
    (complete : ∀ name, world.Resolves name → name ∈ known)
    {depth : Nat} (candidate : TypeName)
    (enough : known.length < depth) :
    ∃ accepted after,
      (evaluateFrom world.rules depth candidate .start).run.answer world.lookup =
          some (accepted, after) ∧
        after.visited.Nodup ∧
        ∀ extra : TypeDecl → List TypeName,
          (evaluateFrom (world.rules.asking extra) depth candidate .start).run.answer
              world.lookup = some (accepted, after) ∧
            Perm
              ((evaluateFrom (world.rules.asking extra) depth candidate .start).run.asked
                world.lookup)
              ((evaluateFrom world.rules depth candidate .start).run.asked world.lookup ++
                (world.collected after.visited).flatMap extra) := by
  have few : remaining known Evaluation.start.visited < depth :=
    Nat.lt_of_le_of_lt List.countP_le_length enough
  rcases exists_traversal_evaluateFrom complete depth candidate .start few with
    ⟨accepted, fresh, after, evaluated, traversal⟩
  have visited : after.visited = fresh := traversal.visited
  refine ⟨accepted, after, evaluated, visited ▸ traversal.distinct, ?_⟩
  intro extra
  rcases world.asksMore_evaluateFrom extra depth candidate .start with
    ⟨gaveUp, _⟩ | ⟨_, units, same, asking, grown, asks⟩
  · rw [evaluated] at gaveUp
    cases gaveUp
  · rw [evaluated] at same
    cases same
    have all : after.visited = units := grown
    rw [all]
    exact ⟨asking, asks⟩

theorem mem_collected_iff
    {world : World}
    (sound : ∀ name decl, world.lookup name = some decl → decl.name = name)
    {units : List TypeName} {decl : TypeDecl} :
    decl ∈ world.collected units ↔
      decl.name ∈ units ∧ world.rules.isExcluded decl.name = false ∧
        world.lookup decl.name = some decl := by
  simp only [collected, List.mem_filterMap, List.mem_filter, Bool.not_eq_true']
  constructor
  · rintro ⟨unit, ⟨member, allowed⟩, found⟩
    rw [sound unit decl found]
    exact ⟨member, allowed, found⟩
  · rintro ⟨member, allowed, found⟩
    exact ⟨decl.name, ⟨member, allowed⟩, found⟩

theorem nodup_map_name_collected
    {world : World}
    (sound : ∀ name decl, world.lookup name = some decl → decl.name = name)
    {units : List TypeName}
    (distinct : units.Nodup) :
    ((world.collected units).map TypeDecl.name).Nodup := by
  rw [collected, List.map_filterMap]
  apply (distinct.filter _).filterMap
  intro first second name firstNamed secondNamed
  simp only [Option.mem_def, Option.map_eq_some_iff] at firstNamed secondNamed
  rcases firstNamed with ⟨decl, found, rfl⟩
  rcases secondNamed with ⟨other, otherFound, same⟩
  rw [← sound first decl found, ← sound second other otherFound, same]

end World

end Reach

end TypeReach
