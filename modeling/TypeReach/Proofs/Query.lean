import Mathlib.Data.List.Basic
import TypeReach.Query

/-!
# What an answer depends on

A query depends on the declarations of the types that it asks for and on no
others, so two look-up functions that agree on these give the same answer.

Two bounded queries can agree although they were allowed different depths.
`Agree` says that they come to the same, and what holds of that; it is kept
under sequencing, with what holds of the first part known in the second.
`Ends` says of one bounded query that it does not give up, and what holds of its
result; it is kept under sequencing in the same way.
-/

namespace TypeReach

variable {α β : Type} {lookup : TypeName → Option TypeDecl}

namespace Query

theorem asked_bind
    (query : Query α) (following : α → Query β) :
    (query >>= following).asked lookup =
      query.asked lookup ++ (following (query.answer lookup)).asked lookup := by
  induction query with
  | done value => rfl
  | ask name next inductive_hypothesis =>
      exact congrArg (name :: ·) (inductive_hypothesis _)
  | askInterfaces decl next inductive_hypothesis =>
      refine (congrArg (decl.interfaces ++ ·) (inductive_hypothesis _)).trans ?_
      exact (List.append_assoc _ _ _).symm

end Query

namespace BoundedQuery

/-- Two queries come to the same, and if that is a result, something holds of it. -/
structure Agree
    (lookup : TypeName → Option TypeDecl) (holds : α → Prop)
    (first second : BoundedQuery α) :
    Prop where
  same : first.run.answer lookup = second.run.answer lookup
  holding : ∀ value, first.run.answer lookup = some value → holds value

namespace Agree

variable {holds : α → Prop}

protected theorem pure
    {value : α}
    (holding : holds value) :
    Agree lookup holds (pure value) (pure value) where
  same := rfl
  holding := by
    intro result answered
    rw [← Option.some.inj answered]
    exact holding

protected theorem bind
    {between : β → Prop}
    {first second : BoundedQuery β} {next other : β → BoundedQuery α}
    (agree : Agree lookup between first second)
    (following : ∀ value, between value → Agree lookup holds (next value) (other value)) :
    Agree lookup holds (first >>= next) (second >>= other) := by
  cases answered : first.run.answer lookup with
  | none =>
      have gaveUp : (first >>= next).run.answer lookup = none := by
        simp [answered]
      refine ⟨?_, fun value result => ?_⟩
      · rw [gaveUp, answer_run_bind, ← agree.same, answered]
        rfl
      · rw [gaveUp] at result
        cases result
  | some value =>
      have continued := following value (agree.holding value answered)
      have left : (first >>= next).run.answer lookup = (next value).run.answer lookup := by
        simp [answered]
      refine ⟨?_, fun result reached => continued.holding result (left ▸ reached)⟩
      rw [left, continued.same, answer_run_bind, ← agree.same, answered]
      rfl

/-- The answer to a query is the same for both. -/
theorem ask
    {query : Query β} {next other : β → BoundedQuery α}
    (following : Agree lookup holds (next (query.answer lookup)) (other (query.answer lookup))) :
    Agree lookup holds (monadLift query >>= next) (monadLift query >>= other) := by
  have answered : Agree lookup (fun value => value = query.answer lookup)
      (monadLift query) (monadLift query) := by
    refine ⟨rfl, ?_⟩
    intro value result
    rw [answer_run_lift] at result
    exact (Option.some.inj result).symm
  apply answered.bind
  rintro value rfl
  exact following

theorem mono
    {stronger : α → Prop} {first second : BoundedQuery α}
    (agree : Agree lookup stronger first second)
    (weaken : ∀ value, stronger value → holds value) :
    Agree lookup holds first second :=
  ⟨agree.same, fun value answered => weaken value (agree.holding value answered)⟩

end Agree

/-- A query does not give up, and something holds of its result. -/
def Ends
    (lookup : TypeName → Option TypeDecl) (holds : α → Prop) (query : BoundedQuery α) :
    Prop :=
  ∃ value, query.run.answer lookup = some value ∧ holds value

namespace Ends

variable {holds : α → Prop}

protected theorem pure
    {value : α}
    (holding : holds value) :
    Ends lookup holds (pure value) :=
  ⟨value, rfl, holding⟩

protected theorem bind
    {between : β → Prop} {first : BoundedQuery β} {next : β → BoundedQuery α}
    (ends : Ends lookup between first)
    (following : ∀ value, between value → Ends lookup holds (next value)) :
    Ends lookup holds (first >>= next) := by
  rcases ends with ⟨value, answered, holding⟩
  rcases following value holding with ⟨result, answeredNext, holdingNext⟩
  refine ⟨result, ?_, holdingNext⟩
  rw [answer_run_bind, answered]
  exact answeredNext

/-- Asking for something does not make a query give up. -/
theorem ask
    {query : Query β} {next : β → BoundedQuery α}
    (following : Ends lookup holds (next (query.answer lookup))) :
    Ends lookup holds (monadLift query >>= next) := by
  have answered : Ends lookup (fun value => value = query.answer lookup)
      (monadLift query) :=
    ⟨_, answer_run_lift lookup query, rfl⟩
  apply answered.bind
  rintro value rfl
  exact following

theorem mono
    {stronger : α → Prop} {query : BoundedQuery α}
    (ends : Ends lookup stronger query)
    (weaken : ∀ value, stronger value → holds value) :
    Ends lookup holds query := by
  rcases ends with ⟨value, answered, holding⟩
  exact ⟨value, answered, weaken value holding⟩

/-- The substitute for a query that gave up is not needed. -/
theorem holds_getD
    {query : BoundedQuery α}
    (ends : Ends lookup holds query)
    (substitute : α) :
    holds ((query.getD substitute).answer lookup) := by
  rcases ends with ⟨value, answered, holding⟩
  simpa [getD, answered] using holding

end Ends

end BoundedQuery

end TypeReach
