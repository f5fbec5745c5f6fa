import TypeReach.Capability
import TypeReach.Keyed
import TypeReach.TypeName

/-!
# Registries

A registry keeps the capabilities that were asked for each type, ordered by the
slashed names.
-/

namespace TypeReach.Reach

namespace Registry

/-- The order of the entries. -/
def isBefore (left right : TypeName) : Bool :=
  decide (left.slashed < right.slashed)

theorem isOrder_isBefore : Keyed.IsOrder isBefore where
  irrefl name := decide_eq_false (String.lt_irrefl name.slashed)
  trans first second := by
    simp only [isBefore, decide_eq_true_eq] at first second ⊢
    exact String.lt_trans first second
  total {left right} different := by
    simp only [isBefore, decide_eq_true_eq]
    by_cases before : left.slashed < right.slashed
    · exact Or.inl before
    · by_cases after : right.slashed < left.slashed
      · exact Or.inr after
      · have same := String.le_antisymm (String.not_lt.mp after) (String.not_lt.mp before)
        exact (different (congrArg TypeName.mk same)).elim

end Registry

/-- Types with their capabilities, in ascending order of their names. -/
structure Registry where
  entries : List (TypeName × CapabilitySet)
  ordered : Keyed.InOrder Registry.isBefore entries
  deriving DecidableEq, Repr

namespace Registry

def empty : Registry := ⟨[], List.Pairwise.nil⟩

def size (registry : Registry) : Nat := registry.entries.length

/-- Add capabilities of a type. -/
def register (registry : Registry) (name : TypeName) (capabilities : CapabilitySet) :
    Registry where
  entries := Keyed.alterInOrder isBefore name (·.union capabilities) capabilities registry.entries
  ordered := registry.ordered.alterInOrder isOrder_isBefore

/-- The capabilities of a type, if it is registered. -/
def get? (registry : Registry) (name : TypeName) : Option CapabilitySet :=
  Keyed.get? name registry.entries

/-! ## Laws -/

@[simp]
theorem get?_empty (name : TypeName) : empty.get? name = none :=
  rfl

/-- Registering adds to what one name has and leaves the other names alone. -/
theorem get?_register (registry : Registry) (name other : TypeName)
    (capabilities : CapabilitySet) :
    (registry.register name capabilities).get? other =
      (registry.get? other).merge CapabilitySet.union
        (if other = name then some capabilities else none) := by
  by_cases same : other = name
  · subst other
    simp only [get?, register, Keyed.get?_alterInOrder_self isOrder_isBefore name _ _
      registry.ordered, if_true]
    cases Keyed.get? name registry.entries <;> rfl
  · simp [get?, register, Keyed.get?_alterInOrder_of_ne same, same]

/-- Registries are equal when they give each type the same capabilities. -/
theorem ext_get? {left right : Registry} (same : ∀ name, left.get? name = right.get? name) :
    left = right := by
  have entries : left.entries = right.entries :=
    left.ordered.ext isOrder_isBefore right.ordered same
  cases left
  cases right
  cases entries
  rfl

end Registry

end TypeReach.Reach
