import TypeReach.Json
import TypeReach.TypeDecl

/-!
# Declarations as JSON

The JSON tree of a declaration, with all names in dotted form.
-/

namespace TypeReach

/-- A constant by its bare value. -/
def Constant.toJson : Constant → Json
  | int value => .integer value.toInt
  | long value => .integer value.toInt
  | float bits => .ofSingleBits bits
  | double bits => .ofDoubleBits bits
  | bool value => .bool value
  | char value => .text (String.singleton value)
  | text value => .text value

/-- The name of a kind of members. -/
def MemberKind.label : MemberKind → String
  | field => "field"
  | method => "method"
  | constructor => "constructor"

namespace ElementValue

/-- A value under the name of its kind. -/
def labelled (kind : String) (value : Json) : Json :=
  .object [("kind", .text kind), ("value", value)]

/-- An annotation from its type and the trees of its elements. -/
def annotationTree (type : TypeName) (elements : List Json) : Json :=
  .object [("type_id", .text type.dotted), ("values", .array elements)]

mutual

def toJson : ElementValue → Json
  | constant value => labelled "const" value.toJson
  | enumConstant type value =>
    labelled "enum" (.object [("type_desc", .text type), ("constant", .text value)])
  | typeToken descriptor => labelled "class" (.text descriptor)
  | inner type elements => labelled "annotation" (annotationTree type (elementsToJson elements))
  | array items => labelled "array" (.array (itemsToJson items))

def itemsToJson : List ElementValue → List Json
  | [] => []
  | item :: rest => item.toJson :: itemsToJson rest

def elementToJson : String × ElementValue → Json
  | (key, value) => .array [.text key, value.toJson]

def elementsToJson : List (String × ElementValue) → List Json
  | [] => []
  | element :: rest => elementToJson element :: elementsToJson rest

end

end ElementValue

def AnnotationUse.toJson (use : AnnotationUse) : Json :=
  ElementValue.annotationTree use.type (ElementValue.elementsToJson use.elements)

def Member.toJson (member : Member) : Json :=
  .object
    [("kind", .text member.kind.label), ("name", .text member.name),
      ("descriptor", .text member.descriptor), ("access", .integer member.access.bits.toNat),
      ("attributes", .array (member.annotations.map AnnotationUse.toJson))]

/-- The tree of a declaration. -/
def TypeDecl.toJson (decl : TypeDecl) : Json :=
  .object
    [("name", .text decl.name.dotted), ("access", .integer decl.access.bits.toNat),
      ("superclass", .ofText? (decl.superclass.map TypeName.dotted)),
      ("interfaces", .ofTexts (decl.interfaces.map TypeName.dotted)),
      ("nested", .ofTexts (decl.nested.map TypeName.dotted)),
      ("attributes", .array (decl.annotations.map AnnotationUse.toJson)),
      ("members", .array (decl.members.map Member.toJson)),
      ("signature", .ofText? decl.signature)]

end TypeReach
