import TypeReach.Text.Quoted

/-!
# Capabilities

What a build may do with a registered type by reflection: eight flags, and
sets of them in one fixed order.
-/

namespace TypeReach

/-- One kind of reflective access. -/
inductive Capability where
  | declaredConstructors
  | publicConstructors
  | declaredMethods
  | publicMethods
  | declaredFields
  | publicFields
  | declaredClasses
  | publicClasses
  deriving DecidableEq, Repr

namespace Capability

/-- All capabilities in the order in which they are listed everywhere. -/
def all : List Capability :=
  [declaredConstructors, publicConstructors, declaredMethods, publicMethods,
    declaredFields, publicFields, declaredClasses, publicClasses]

/-- The flag that a reflection configuration uses. -/
def flag : Capability → String
  | declaredConstructors => "allDeclaredConstructors"
  | publicConstructors => "allPublicConstructors"
  | declaredMethods => "allDeclaredMethods"
  | publicMethods => "allPublicMethods"
  | declaredFields => "allDeclaredFields"
  | publicFields => "allPublicFields"
  | declaredClasses => "allDeclaredClasses"
  | publicClasses => "allPublicClasses"

/-- The capability with a given flag. -/
def ofFlag? (flag : String) : Option Capability :=
  all.find? fun capability => capability.flag = flag

/-- The message for a flag that names no capability. -/
def unknownMessage (flag : String) : String :=
  "unknown capability " ++ Text.quoted flag

/-- The position in the fixed order. -/
def index : Capability → Fin 8
  | declaredConstructors => 0
  | publicConstructors => 1
  | declaredMethods => 2
  | publicMethods => 3
  | declaredFields => 4
  | publicFields => 5
  | declaredClasses => 6
  | publicClasses => 7

theorem exists_index_eq (position : Fin 8) :
    ∃ capability : Capability, capability.index = position := by
  match position with
  | 0 => exact ⟨.declaredConstructors, rfl⟩
  | 1 => exact ⟨.publicConstructors, rfl⟩
  | 2 => exact ⟨.declaredMethods, rfl⟩
  | 3 => exact ⟨.publicMethods, rfl⟩
  | 4 => exact ⟨.declaredFields, rfl⟩
  | 5 => exact ⟨.publicFields, rfl⟩
  | 6 => exact ⟨.declaredClasses, rfl⟩
  | 7 => exact ⟨.publicClasses, rfl⟩

end Capability

/-- A set of capabilities, one bit for each in the fixed order. -/
structure CapabilitySet where
  bits : BitVec 8
  deriving DecidableEq, Repr

namespace CapabilitySet

/-- The set without members. -/
def empty : CapabilitySet := ⟨0⟩

/-- The members of either set. -/
def union (left right : CapabilitySet) : CapabilitySet :=
  ⟨left.bits ||| right.bits⟩

/-- Whether a capability is a member. -/
def contains (set : CapabilitySet) (capability : Capability) : Bool :=
  set.bits.getLsb capability.index

/-- The set with one more member. -/
def insert (set : CapabilitySet) (capability : Capability) : CapabilitySet :=
  set.union ⟨1#8 <<< capability.index.val⟩

/-- The set of the members of a list. -/
def ofList (capabilities : List Capability) : CapabilitySet :=
  capabilities.foldl insert empty

/-- The members in the fixed order. -/
def toList (set : CapabilitySet) : List Capability :=
  Capability.all.filter set.contains

/-- Whether there are no members. -/
def isEmpty (set : CapabilitySet) : Bool :=
  set.bits = 0

/-- The flags of the members in the fixed order. -/
def flags (set : CapabilitySet) : List String :=
  set.toList.map Capability.flag

/-- What a configuration unit and the types it checks are registered with. -/
def configuration : CapabilitySet :=
  ofList [.declaredConstructors, .declaredMethods]

/-- What an indexed component is registered with. -/
def component : CapabilitySet :=
  ofList [.declaredConstructors, .declaredMethods, .declaredClasses]

/-- The set that some flags name, or the first flag that names nothing. -/
def ofFlags : List String → Except String CapabilitySet
  | [] => .ok empty
  | flag :: rest =>
    match Capability.ofFlag? flag with
    | none => .error flag
    | some capability =>
      match ofFlags rest with
      | .error unknown => .error unknown
      | .ok set => .ok ((ofList [capability]).union set)

/-! ## Laws of unions -/

theorem union_comm (left right : CapabilitySet) : left.union right = right.union left := by
  simp [union, BitVec.or_comm]

theorem union_assoc (first second third : CapabilitySet) :
    (first.union second).union third = first.union (second.union third) := by
  simp [union, BitVec.or_assoc]

instance : Std.Commutative union := ⟨union_comm⟩

instance : Std.Associative union := ⟨union_assoc⟩

@[simp]
theorem contains_empty (capability : Capability) : empty.contains capability = false := by
  simp [empty, contains]

@[simp]
theorem contains_union (left right : CapabilitySet) (capability : Capability) :
    (left.union right).contains capability =
      (left.contains capability || right.contains capability) := by
  simp [union, contains]

/-- Sets with the same members are equal. -/
theorem ext_contains {left right : CapabilitySet}
    (same : ∀ capability, left.contains capability = right.contains capability) :
    left = right := by
  have bits : left.bits = right.bits := by
    apply BitVec.eq_of_getElem_eq
    intro position below
    obtain ⟨capability, index⟩ := Capability.exists_index_eq ⟨position, below⟩
    have agree := same capability
    simpa [contains, index] using agree
  exact congrArg CapabilitySet.mk bits

end CapabilitySet

end TypeReach
