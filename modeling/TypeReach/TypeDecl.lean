import TypeReach.AnnotationUse
import TypeReach.JvmType

/-!
# Declarations of types

What is known of a compiled type: its flags, its supertypes, the types nested
in it, its annotations and the signatures of its members.
-/

namespace TypeReach

/-- The access flags of a type or member. -/
structure Access where
  bits : UInt16
  deriving DecidableEq, Repr

namespace Access

def isPublic (access : Access) : Bool := access.bits &&& 0x0001 ≠ 0

def isInterface (access : Access) : Bool := access.bits &&& 0x0200 ≠ 0

/-- Whether the flags are those of an annotation type. -/
def isAnnotationType (access : Access) : Bool := access.bits &&& 0x2000 ≠ 0

end Access

/-- The kinds of members. -/
inductive MemberKind where
  | field
  | method
  | constructor
  deriving DecidableEq, Repr

/-- A declared field, method or constructor. -/
structure Member where
  kind : MemberKind
  name : String
  descriptor : String
  access : Access
  annotations : List AnnotationUse

/-- The types of a member in source form. -/
def Member.shape (member : Member) : Shape :=
  match member.kind with
  | .field => Shape.ofField member.descriptor
  | .method => Shape.ofMethod member.descriptor
  | .constructor => Shape.ofMethod member.descriptor

/-- The declaration of a type. -/
structure TypeDecl where
  name : TypeName
  access : Access := ⟨0⟩
  superclass : Option TypeName := none
  interfaces : List TypeName := []
  nested : List TypeName := []
  annotations : List AnnotationUse := []
  members : List Member := []
  signature : Option String := none

namespace TypeDecl

/-- The first annotation of a given type on the declaration itself. -/
def annotationOf? (decl : TypeDecl) (type : TypeName) : Option AnnotationUse :=
  decl.annotations.find? fun use => use.type = type

/-- Whether the declaration itself carries an annotation of a given type. -/
def carries (decl : TypeDecl) (type : TypeName) : Bool :=
  (decl.annotationOf? type).isSome

end TypeDecl

end TypeReach
