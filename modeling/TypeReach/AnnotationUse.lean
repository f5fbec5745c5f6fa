import TypeReach.TypeName

/-!
# Uses of annotations

An annotation on a type or member names its annotation type and gives values
to some of its elements.  A value is a constant, an enum constant, a type, a
further annotation or a list of values.
-/

namespace TypeReach

/--
A constant element value.  Floating-point numbers are kept as their bits, so
that a constant is never changed by reading it.
-/
inductive Constant where
  | int (value : Int32)
  | long (value : Int64)
  | float (bits : UInt32)
  | double (bits : UInt64)
  | bool (value : Bool)
  | char (value : Char)
  | text (value : String)
  deriving DecidableEq, Repr

/-- The value of one element. -/
inductive ElementValue where
  | constant (value : Constant)
  | enumConstant (typeDescriptor constant : String)
  /-- A type, as the descriptor found in the class file. -/
  | typeToken (descriptor : String)
  /-- An annotation as a value: its type and its own elements. -/
  | inner (type : TypeName) (elements : List (String × ElementValue))
  | array (items : List ElementValue)

namespace ElementValue

mutual

/-- The class types that a type token or an array of such tokens lists. -/
def types : ElementValue → List TypeName
  | typeToken descriptor => (TypeName.ofDescriptor? descriptor).toList
  | array items => typesOfAll items
  | constant _ => []
  | enumConstant _ _ => []
  | inner _ _ => []

/-- The class types that some values list, in order. -/
def typesOfAll : List ElementValue → List TypeName
  | [] => []
  | item :: rest => item.types ++ typesOfAll rest

end

mutual

/-- The texts that a text constant or an array of such constants lists. -/
def texts : ElementValue → List String
  | constant (.text value) => [value]
  | array items => textsOfAll items
  | constant _ => []
  | typeToken _ => []
  | enumConstant _ _ => []
  | inner _ _ => []

/-- The texts that some values list, in order. -/
def textsOfAll : List ElementValue → List String
  | [] => []
  | item :: rest => item.texts ++ textsOfAll rest

end

end ElementValue

/-- One use of an annotation: its type and its elements in order. -/
structure AnnotationUse where
  type : TypeName
  elements : List (String × ElementValue)

namespace AnnotationUse

/-- The first value given to an element. -/
def element? (use : AnnotationUse) (key : String) : Option ElementValue :=
  (use.elements.find? fun entry => entry.1 = key).map Prod.snd

/-- The types listed by the element `value`. -/
def valueTypes (use : AnnotationUse) : List TypeName :=
  match use.element? "value" with
  | some value => value.types
  | none => []

end AnnotationUse

end TypeReach
