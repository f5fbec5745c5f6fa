import TypeReach.Text.Split

/-!
# Types of fields and methods

A field type is a primitive type, `void` or a class, under any number of array
dimensions.  It has a compact form in descriptors (`[Ljava/lang/String;`) and
the form of source texts (`java.lang.String[]`).  The descriptor of a method
lists its parameter types in parentheses and then its result.
-/

namespace TypeReach

/-- A type below all array dimensions. -/
inductive BaseType where
  | byte | char | double | float | int | long | short | boolean | void
  /-- A class by its slashed name. -/
  | reference (name : List Char)
  deriving DecidableEq, Repr

namespace BaseType

/-- The form in descriptors. -/
def encode : BaseType → List Char
  | byte => ['B']
  | char => ['C']
  | double => ['D']
  | float => ['F']
  | int => ['I']
  | long => ['J']
  | short => ['S']
  | boolean => ['Z']
  | void => ['V']
  | reference name => 'L' :: name ++ [';']

/-- The form in source texts. -/
def sourceName : BaseType → List Char
  | byte => "byte".toList
  | char => "char".toList
  | double => "double".toList
  | float => "float".toList
  | int => "int".toList
  | long => "long".toList
  | short => "short".toList
  | boolean => "boolean".toList
  | void => "void".toList
  | reference name => Text.replaceChar '/' '.' name

/-- Read the base type that a descriptor starts with, and what follows it. -/
def read? : List Char → Option (BaseType × List Char)
  | 'B' :: rest => some (byte, rest)
  | 'C' :: rest => some (char, rest)
  | 'D' :: rest => some (double, rest)
  | 'F' :: rest => some (float, rest)
  | 'I' :: rest => some (int, rest)
  | 'J' :: rest => some (long, rest)
  | 'S' :: rest => some (short, rest)
  | 'Z' :: rest => some (boolean, rest)
  | 'V' :: rest => some (void, rest)
  | 'L' :: rest => (Text.cut? ';' rest).map fun sides => (reference sides.1, sides.2)
  | _ => none

end BaseType

/-- A base type under some array dimensions. -/
structure JvmType where
  dimensions : Nat
  base : BaseType
  deriving DecidableEq, Repr

namespace JvmType

/-- The form in descriptors. -/
def encode (type : JvmType) : List Char :=
  List.replicate type.dimensions '[' ++ type.base.encode

/-- The form in source texts, with one `[]` for each dimension. -/
def sourceName (type : JvmType) : List Char :=
  type.base.sourceName ++ (List.replicate type.dimensions ['[', ']']).flatten

/-- Read the type that a descriptor starts with, and what follows it. -/
def read? : List Char → Option (JvmType × List Char)
  | '[' :: rest => (read? rest).map fun result =>
      (⟨result.1.dimensions + 1, result.1.base⟩, result.2)
  | descriptor => (BaseType.read? descriptor).map fun result =>
      (⟨0, result.1⟩, result.2)

/-- Reading consumes at least one character. -/
theorem length_lt_of_cut? {separator : Char} {text left right : List Char}
    (equality : Text.cut? separator text = some (left, right)) :
    right.length < text.length := by
  induction text generalizing left right with
  | nil => simp [Text.cut?] at equality
  | cons character rest inductive_hypothesis =>
    unfold Text.cut? at equality
    split at equality
    · simp only [Option.some.injEq, Prod.mk.injEq] at equality
      simp [equality.2]
    · simp only [Option.map_eq_some_iff, Prod.mk.injEq] at equality
      obtain ⟨⟨first, second⟩, found, -, rfl⟩ := equality
      have shorter := inductive_hypothesis found
      simp only [List.length_cons]
      omega

/-- What follows a base type is shorter than the text it was read from. -/
theorem length_lt_of_baseRead? {text rest : List Char} {base : BaseType}
    (equality : BaseType.read? text = some (base, rest)) :
    rest.length < text.length := by
  unfold BaseType.read? at equality
  split at equality
  all_goals
    first
    | (simp only [Option.some.injEq, Prod.mk.injEq] at equality
       simp [equality.2])
    | (simp only [Option.map_eq_some_iff, Prod.mk.injEq] at equality
       obtain ⟨⟨first, second⟩, found, -, rfl⟩ := equality
       have shorter := length_lt_of_cut? found
       simp only [List.length_cons]
       omega)
    | simp at equality

/-- What follows a type is shorter than the text it was read from. -/
theorem length_lt_of_read? {text rest : List Char} {type : JvmType}
    (equality : read? text = some (type, rest)) :
    rest.length < text.length := by
  induction text generalizing rest type with
  | nil => simp [read?, BaseType.read?] at equality
  | cons character tail inductive_hypothesis =>
    unfold read? at equality
    split at equality
    next start =>
      simp only [List.cons.injEq] at start
      obtain ⟨-, rfl⟩ := start
      simp only [Option.map_eq_some_iff, Prod.mk.injEq] at equality
      obtain ⟨⟨first, second⟩, found, -, rfl⟩ := equality
      have shorter := inductive_hypothesis found
      simp only [List.length_cons]
      omega
    next =>
      simp only [Option.map_eq_some_iff, Prod.mk.injEq] at equality
      obtain ⟨⟨first, second⟩, found, -, rfl⟩ := equality
      exact length_lt_of_baseRead? found

/-- The types at the front of a descriptor, up to the first that is none. -/
def readMany (descriptor : List Char) : List JvmType :=
  match _found : read? descriptor with
  | none => []
  | some (type, rest) => type :: readMany rest
termination_by descriptor.length
decreasing_by exact length_lt_of_read? ‹_›

end JvmType

/-- The types of a member in source form. -/
structure Shape where
  parameters : List String
  result : String
  deriving DecidableEq, Repr

namespace Shape

/-- The type that a descriptor starts with; a text with none stands for itself. -/
def typeName (descriptor : List Char) : String :=
  match JvmType.read? descriptor with
  | some (type, _) => String.ofList type.sourceName
  | none => String.ofList descriptor

/-- The shape of a field: no parameters, and its type as the result. -/
def ofField (descriptor : String) : Shape :=
  ⟨[], typeName descriptor.toList⟩

/--
The shape of a method or constructor.  A descriptor without its pair of
parentheses stands for the result as a whole.
-/
def ofMethod (descriptor : String) : Shape :=
  match descriptor.toList with
  | '(' :: rest =>
    match Text.cut? ')' rest with
    | some (parameters, result) =>
      ⟨(JvmType.readMany parameters).map fun type => String.ofList type.sourceName,
        typeName result⟩
    | none => ⟨[], descriptor⟩
  | _ => ⟨[], descriptor⟩

end Shape

end TypeReach
