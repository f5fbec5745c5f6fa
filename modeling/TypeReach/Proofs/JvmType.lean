import TypeReach.TypeDecl

/-!
# Shapes of members

The descriptor of a field is its type, and that of a method or constructor its
parameters in parentheses and its result.  What a member has as its shape are the
source names of these types, which are said here apart from any reading.

The parameters of a method are taken to end at the first closing parenthesis.  A
class name may hold one, so its shape is right if and only if none among the
parameters does: the first one that does is cut in two, and then neither it nor a
later one is found.
-/

namespace TypeReach

/-! ## Reading several types -/

namespace JvmType

theorem readMany_of_some
    {descriptor rest : List Char} {type : JvmType}
    (found : read? descriptor = some (type, rest)) :
    readMany descriptor = type :: readMany rest := by
  rw [readMany]
  split
  · simp_all
  · simp_all

theorem readMany_of_none
    {descriptor : List Char} (unread : read? descriptor = none) :
    readMany descriptor = [] := by
  rw [readMany]
  split
  · rfl
  · simp_all

end JvmType

/-! ## Field types -/

/-- The names that primitive types and `void` have in source texts. -/
def keywords : List (BaseType × String) :=
  [(.byte, "byte"), (.char, "char"), (.double, "double"), (.float, "float"), (.int, "int"),
    (.long, "long"), (.short, "short"), (.boolean, "boolean"), (.void, "void")]

theorem reference_not_mem_keywords
    {name : List Char} {source : String} :
    (BaseType.reference name, source) ∉ keywords := by
  simp [keywords]

theorem eq_sourceName_of_mem_keywords
    {base : BaseType} {name : String} (listed : (base, name) ∈ keywords) :
    name = String.ofList base.sourceName := by
  have all : ∀ entry ∈ keywords, entry.2 = String.ofList entry.1.sourceName := by decide
  exact all (base, name) listed

/-- A type that can be told from what follows it in a descriptor. -/
inductive FieldType where
  | keyword (base : BaseType) (name : String) (listed : (base, name) ∈ keywords)
  | reference (name : List Char) (closed : ';' ∉ name)
  | array (element : FieldType)

namespace FieldType

def jvmType : FieldType → JvmType
  | keyword base _ _ => ⟨0, base⟩
  | reference name _ => ⟨0, .reference name⟩
  | array element => ⟨element.jvmType.dimensions + 1, element.jvmType.base⟩

/-- The form in descriptors. -/
def encode (type : FieldType) : List Char :=
  type.jvmType.encode

/-- The name in source texts. -/
def source : FieldType → String
  | keyword _ name _ => name
  | reference name _ => String.ofList (Text.replaceChar '/' '.' name)
  | array element => element.source ++ "[]"

/-- The name of the class below all dimensions; nothing if there is none. -/
def className : FieldType → List Char
  | keyword _ _ _ => []
  | reference name _ => name
  | array element => element.className

theorem encode_keyword
    {base : BaseType} {name : String} (listed : (base, name) ∈ keywords) :
    (keyword base name listed).encode = base.encode :=
  rfl

theorem encode_reference
    (name : List Char) (closed : ';' ∉ name) :
    (reference name closed).encode = 'L' :: name ++ [';'] :=
  rfl

theorem encode_array (element : FieldType) :
    (array element).encode = '[' :: element.encode :=
  rfl

/-! ## One type -/

theorem read?_keyword
    {base : BaseType} {name : String} (listed : (base, name) ∈ keywords) (rest : List Char) :
    JvmType.read? (base.encode ++ rest) = some (⟨0, base⟩, rest) := by
  cases base with
  | reference => exact absurd listed reference_not_mem_keywords
  | _ => rfl

/-- A type is read from the front of a descriptor, whatever follows. -/
theorem read?_encode_append
    (type : FieldType) (rest : List Char) :
    JvmType.read? (type.encode ++ rest) = some (type.jvmType, rest) := by
  induction type with
  | keyword base name listed => exact read?_keyword listed rest
  | reference name closed =>
      have cut : Text.cut? ';' (name ++ [';'] ++ rest) = some (name, rest) :=
        Text.cut?_eq_some_iff.mpr ⟨(List.append_cons name ';' rest).symm, closed⟩
      show ((Text.cut? ';' (name ++ [';'] ++ rest)).map _).map _ = _
      rw [cut]
      rfl
  | array element inductive_hypothesis =>
      show (JvmType.read? (element.encode ++ rest)).map _ = _
      rw [inductive_hypothesis]
      rfl

/-- What is read of a type has the name that the type has in source texts. -/
theorem ofList_sourceName (type : FieldType) :
    String.ofList type.jvmType.sourceName = type.source := by
  induction type with
  | keyword base name listed =>
      show String.ofList (base.sourceName ++ []) = name
      rw [List.append_nil, ← eq_sourceName_of_mem_keywords listed]
  | reference name closed =>
      show String.ofList (Text.replaceChar '/' '.' name ++ []) = _
      rw [List.append_nil, source]
  | array element inductive_hypothesis =>
      have longer : (array element).jvmType.sourceName =
          element.jvmType.sourceName ++ ['[', ']'] := by
        simp [jvmType, JvmType.sourceName, List.replicate_succ']
      rw [longer, String.ofList_append, inductive_hypothesis]
      rfl

theorem typeName_encode (type : FieldType) :
    Shape.typeName type.encode = type.source := by
  have read := type.read?_encode_append []
  rw [List.append_nil] at read
  rw [Shape.typeName, read]
  exact type.ofList_sourceName

/-! ## Parameters -/

/-- The types at the front of a descriptor are read one by one, whatever follows. -/
theorem readMany_flatMap_append
    (types : List FieldType) (rest : List Char) :
    JvmType.readMany (types.flatMap encode ++ rest) =
      types.map jvmType ++ JvmType.readMany rest := by
  induction types with
  | nil => rfl
  | cons type others inductive_hypothesis =>
      have read := type.read?_encode_append (others.flatMap encode ++ rest)
      rw [List.flatMap_cons, List.append_assoc, JvmType.readMany_of_some read,
        inductive_hypothesis]
      rfl

theorem close_not_mem_encode
    {type : FieldType} (plain : ')' ∉ type.className) :
    ')' ∉ type.encode := by
  induction type with
  | keyword base name listed =>
      rw [encode_keyword listed]
      cases base with
      | reference => exact absurd listed reference_not_mem_keywords
      | _ => decide
  | reference name closed => simpa [encode_reference, className] using plain
  | array element inductive_hypothesis => simpa [encode_array] using inductive_hypothesis plain

/--
A type whose class name holds a closing parenthesis is no longer one when it is cut
there.
-/
theorem exists_cut
    {type : FieldType} (holds : ')' ∈ type.className) :
    ∃ front back, type.encode = front ++ ')' :: back ∧ ')' ∉ front ∧
      JvmType.read? front = none := by
  induction type with
  | keyword base name listed => cases holds
  | reference name closed =>
      cases cut : Text.cut? ')' name with
      | none => exact absurd holds (Text.cut?_eq_none_iff.mp cut)
      | some sides =>
          rcases Text.cut?_eq_some_iff.mp cut with ⟨rfl, first⟩
          have unended : Text.cut? ';' sides.1 = none :=
            Text.cut?_eq_none_iff.mpr fun member => closed (List.mem_append_left _ member)
          refine ⟨'L' :: sides.1, sides.2 ++ [';'], by simp [encode_reference], ?_, ?_⟩
          · simpa using first
          · show ((Text.cut? ';' sides.1).map _).map _ = none
            rw [unended]
            rfl
  | array element inductive_hypothesis =>
      rcases inductive_hypothesis holds with ⟨front, back, encoded, first, unread⟩
      refine ⟨'[' :: front, back, by rw [encode_array, encoded]; rfl, ?_, ?_⟩
      · simpa using first
      · show (JvmType.read? front).map _ = none
        rw [unread]
        rfl

/-- Some parameter is missed if a class name among them holds a closing parenthesis. -/
theorem exists_cut_among
    {types : List FieldType} (holds : ∃ type ∈ types, ')' ∈ type.className)
    (rest : List Char) :
    ∃ front back, Text.cut? ')' (types.flatMap encode ++ rest) = some (front, back) ∧
      (JvmType.readMany front).length < types.length := by
  induction types with
  | nil => simp at holds
  | cons type others inductive_hypothesis =>
      by_cases here : ')' ∈ type.className
      · rcases exists_cut here with ⟨front, back, encoded, first, unread⟩
        refine ⟨front, back ++ (others.flatMap encode ++ rest), ?_, ?_⟩
        · exact Text.cut?_eq_some_iff.mpr ⟨by simp [encoded], first⟩
        · rw [JvmType.readMany_of_none unread]
          exact Nat.succ_pos _
      · have later : ∃ type ∈ others, ')' ∈ type.className := by
          simpa [here] using holds
        rcases inductive_hypothesis later with ⟨front, back, cut, fewer⟩
        rcases Text.cut?_eq_some_iff.mp cut with ⟨split, first⟩
        refine ⟨type.encode ++ front, back, Text.cut?_eq_some_iff.mpr ⟨?_, ?_⟩, ?_⟩
        · rw [List.flatMap_cons, List.append_assoc, split, List.append_assoc]
        · rw [List.mem_append, not_or]
          exact ⟨close_not_mem_encode here, first⟩
        · rw [JvmType.readMany_of_some (type.read?_encode_append front)]
          exact Nat.succ_lt_succ fewer

end FieldType

/-! ## Members -/

namespace Shape

/-- The descriptor of a method with given parameters and a result. -/
def methodDescriptor (parameters : List FieldType) (result : FieldType) : List Char :=
  '(' :: (parameters.flatMap FieldType.encode ++ ')' :: result.encode)

theorem ofMethod_of_cut
    {text front back : List Char} (cut : Text.cut? ')' text = some (front, back)) :
    ofMethod (String.ofList ('(' :: text)) =
      ⟨(JvmType.readMany front).map fun type => String.ofList type.sourceName,
        typeName back⟩ := by
  rw [ofMethod, String.toList_ofList]
  simp only [cut]

theorem ofMethod_of_plain
    {parameters : List FieldType} (plain : ∀ type ∈ parameters, ')' ∉ type.className)
    (result : FieldType) :
    ofMethod (String.ofList (methodDescriptor parameters result)) =
      ⟨parameters.map FieldType.source, result.source⟩ := by
  have unclosed : ')' ∉ parameters.flatMap FieldType.encode := by
    simp only [List.mem_flatMap, not_exists, not_and]
    exact fun type member => FieldType.close_not_mem_encode (plain type member)
  have ended : JvmType.readMany [] = [] := JvmType.readMany_of_none rfl
  have read := FieldType.readMany_flatMap_append parameters []
  rw [List.append_nil, ended, List.append_nil] at read
  rw [methodDescriptor, ofMethod_of_cut (Text.cut?_eq_some_iff.mpr ⟨rfl, unclosed⟩), read,
    result.typeName_encode, List.map_map]
  refine congrArg (Shape.mk · _) (List.map_congr_left ?_)
  exact fun type _ => type.ofList_sourceName

theorem length_parameters_ofMethod_lt
    {parameters : List FieldType} (holds : ∃ type ∈ parameters, ')' ∈ type.className)
    (result : FieldType) :
    (ofMethod (String.ofList (methodDescriptor parameters result))).parameters.length <
      parameters.length := by
  rcases FieldType.exists_cut_among holds (')' :: result.encode) with ⟨front, back, cut, fewer⟩
  rw [methodDescriptor, ofMethod_of_cut cut, List.length_map]
  exact fewer

theorem ofMethod_methodDescriptor_iff
    (parameters : List FieldType) (result : FieldType) :
    ofMethod (String.ofList (methodDescriptor parameters result)) =
        ⟨parameters.map FieldType.source, result.source⟩ ↔
      ∀ type ∈ parameters, ')' ∉ type.className := by
  constructor
  · intro same type member holds
    have fewer := length_parameters_ofMethod_lt ⟨type, member, holds⟩ result
    rw [same, List.length_map] at fewer
    exact Nat.lt_irrefl _ fewer
  · intro plain
    exact ofMethod_of_plain plain result

end Shape

/--
A field has the source name of its type as its shape.  A method or constructor has
those of its parameters and its result, if and only if no class among its parameters
has a closing parenthesis in its name.
-/
theorem Member.shape_of_encoded (member : Member) :
    (∀ type : FieldType, member.kind = .field →
      member.descriptor = String.ofList type.encode →
      member.shape = ⟨[], type.source⟩) ∧
    ∀ (parameters : List FieldType) (result : FieldType), member.kind ≠ .field →
      member.descriptor = String.ofList (Shape.methodDescriptor parameters result) →
      (member.shape = ⟨parameters.map FieldType.source, result.source⟩ ↔
        ∀ type ∈ parameters, ')' ∉ type.className) := by
  constructor
  · intro type field encoded
    rw [Member.shape, field]
    show Shape.ofField member.descriptor = _
    rw [Shape.ofField, encoded, String.toList_ofList, type.typeName_encode]
  · intro parameters result other encoded
    have shape : member.shape = Shape.ofMethod member.descriptor := by
      rw [Member.shape]
      cases kind : member.kind with
      | field => exact absurd kind other
      | method => rfl
      | constructor => rfl
    rw [shape, encoded]
    exact Shape.ofMethod_methodDescriptor_iff parameters result

/-- Arrays, a method without parameters, and a class name that is cut at its parenthesis. -/
theorem Member.shape_of_encoded_samples :
    Member.shape ⟨.field, "f", "[[Lfix/Box;", ⟨0⟩, []⟩ = ⟨[], "fix.Box[][]"⟩ ∧
      Member.shape ⟨.method, "g", "()V", ⟨0⟩, []⟩ = ⟨[], "void"⟩ ∧
      Member.shape ⟨.method, "h", "([JLfix/Box;Z)[I", ⟨0⟩, []⟩ =
        ⟨["long[]", "fix.Box", "boolean"], "int[]"⟩ ∧
      Member.shape ⟨.constructor, "<init>", "(I[Lfix/a)b;J)V", ⟨0⟩, []⟩ ≠
        ⟨["int", "fix.a)b[]", "long"], "void"⟩ := by
  have box : ';' ∉ "fix/Box".toList := by decide
  have cut : ';' ∉ "fix/a)b".toList := by decide
  have plain : ')' ∉ "fix/Box".toList := by decide
  have holding : ')' ∈ "fix/a)b".toList := by decide
  refine ⟨?_, ?_, ?_, ?_⟩
  · exact (shape_of_encoded _).1 (.array (.array (.reference _ box))) rfl rfl
  · exact ((shape_of_encoded _).2 [] (.keyword .void "void" (by decide))
      (by decide) rfl).mpr (List.forall_mem_nil _)
  · refine ((shape_of_encoded _).2
      [.array (.keyword .long "long" (by decide)), .reference _ box,
        .keyword .boolean "boolean" (by decide)]
      (.array (.keyword .int "int" (by decide))) (by decide) rfl).mpr ?_
    simp only [List.forall_mem_cons]
    exact ⟨List.not_mem_nil, plain, List.not_mem_nil, List.forall_mem_nil _⟩
  · refine mt ((shape_of_encoded _).2
      [.keyword .int "int" (by decide), .array (.reference _ cut),
        .keyword .long "long" (by decide)]
      (.keyword .void "void" (by decide)) (by decide) rfl).mp fun spared => ?_
    exact spared (.array (.reference _ cut)) (.tail _ (.head _)) holding

end TypeReach
