import Mathlib.Data.List.Forall2

/-!
# Steps that can fail

What a sequence of steps did when it succeeded: each step succeeded, and gave
what the next one was given.
-/

namespace TypeReach

theorem exists_of_bind_eq_ok
    {ε α β : Type}
    {first : Except ε α} {following : α → Except ε β} {result : β}
    (succeeded : (first >>= following) = .ok result) :
    ∃ value, first = .ok value ∧ following value = .ok result := by
  cases first with
  | error refusal => cases succeeded
  | ok value => exact ⟨value, rfl, succeeded⟩

/-- What every step keeps, steps that all succeed keep. -/
theorem of_foldlM_eq_ok
    {ε α β : Type}
    (property : β → Prop)
    {step : β → α → Except ε β} {inputs : List α}
    (keeps : ∀ {state input next}, property state → step state input = .ok next → property next)
    {state result : β}
    (holds : property state)
    (succeeded : inputs.foldlM step state = .ok result) :
    property result := by
  induction inputs generalizing state with
  | nil =>
      cases succeeded
      exact holds
  | cons input rest inductive_hypothesis =>
      rw [List.foldlM_cons] at succeeded
      rcases exists_of_bind_eq_ok succeeded with ⟨next, here, below⟩
      exact inductive_hypothesis (keeps holds here) below

theorem exists_of_forall₂
    {α β : Type} {related : α → β → Prop}
    {inputs : List α} {results : List β}
    (all : List.Forall₂ related inputs results) :
    ∀ result ∈ results, ∃ input ∈ inputs, related input result := by
  induction all with
  | nil =>
      intro result member
      cases member
  | cons first _ inductive_hypothesis =>
      intro result member
      rcases List.mem_cons.mp member with rfl | later
      · exact ⟨_, List.mem_cons_self, first⟩
      · rcases inductive_hypothesis result later with ⟨input, inputMember, holds⟩
        exact ⟨input, List.mem_cons_of_mem _ inputMember, holds⟩

end TypeReach
