import TypeReach.ClassFile.Elements
import TypeReach.TypeDecl

/-!
# Class files

The reading of a whole class file.  Only structure is read: code and all other
attributes are passed over by their lengths.
-/

namespace TypeReach.ClassFile

/-- The number that every class file starts with. -/
def magic : UInt32 := 0xCAFEBABE

/-- An attribute of a type or member: its name and its body. -/
structure AttributeBlock where
  name : String
  body : List UInt8

/-- An attribute, its body not looked into. -/
def readAttribute (pool : ConstantPool) : Reader AttributeBlock := do
  let name ← Reader.indexed pool.text
  let length ← Reader.u4
  let body ← Reader.bytes length.toNat
  return ⟨name, body⟩

/-- The name of a type in the pool, taken as it stands. -/
def readClassName (pool : ConstantPool) : Reader TypeName :=
  return ⟨← Reader.indexed pool.className⟩

/-- The name of a type in the pool, where slot zero stands for no type. -/
def readClassName? (pool : ConstantPool) : Reader (Option TypeName) :=
  return (← Reader.indexed pool.className?).map TypeName.mk

/-- Take the annotations of a member from one of its attributes, if it holds them. -/
def readMemberAttribute (pool : ConstantPool) (annotations : List AnnotationUse) :
    Reader (List AnnotationUse) := do
  let block ← readAttribute pool
  if block.name = "RuntimeVisibleAnnotations" then
    Reader.within block.body (readAnnotations pool)
  else return annotations

/-- Run a step a given number of times, handing a value on. -/
def Reader.iterated (step : α → Reader α) : Nat → α → Reader α
  | 0, value => return value
  | count + 1, value => do
    let next ← step value
    Reader.iterated step count next

/-- A field or method; `kindOf` tells its kind by its name. -/
def readMember (pool : ConstantPool) (kindOf : String → MemberKind) : Reader Member := do
  let access ← Reader.u2
  let name ← Reader.indexed pool.text
  let descriptor ← Reader.indexed pool.text
  let count ← Reader.u2
  let annotations ← Reader.iterated (readMemberAttribute pool) count.toNat []
  return ⟨kindOf name, name, descriptor, ⟨access⟩, annotations⟩

/-- The kind of a method. -/
def methodKind (name : String) : MemberKind :=
  if name = "<init>" then .constructor else .method

/-- One entry of the table of inner classes: the inner type and its outer one. -/
def readInnerClass (pool : ConstantPool) : Reader (TypeName × Option TypeName) := do
  let inner ← readClassName pool
  let outer ← readClassName? pool
  let _ ← Reader.u2
  let _ ← Reader.u2
  return (inner, outer)

/-- The types of a table of inner classes that are declared in `this` itself. -/
def nestedIn (this : TypeName) (table : List (TypeName × Option TypeName)) : List TypeName :=
  (table.filter fun entry => entry.2 = some this && entry.1 ≠ this).map Prod.fst

/-- Take what an attribute of the class says over into its declaration. -/
def readClassAttribute (pool : ConstantPool) (decl : TypeDecl) : Reader TypeDecl := do
  let block ← readAttribute pool
  if block.name = "RuntimeVisibleAnnotations" then
    let annotations ← Reader.within block.body (readAnnotations pool)
    return { decl with annotations := annotations }
  else if block.name = "InnerClasses" then
    let table ← Reader.within block.body (Reader.counted (readInnerClass pool))
    return { decl with nested := nestedIn decl.name table }
  else if block.name = "Signature" then
    let signature ← Reader.within block.body (Reader.indexed pool.text)
    return { decl with signature := some signature }
  else return decl

/-- Everything after the pool. -/
def readBody (pool : ConstantPool) : Reader TypeDecl := do
  let access ← Reader.u2
  let name ← readClassName pool
  let superclass ← readClassName? pool
  let interfaces ← Reader.counted (readClassName pool)
  let fields ← Reader.counted (readMember pool fun _ => .field)
  let methods ← Reader.counted (readMember pool methodKind)
  let decl : TypeDecl :=
    { name := name, access := ⟨access⟩, superclass := superclass, interfaces := interfaces,
      members := fields ++ methods.filter fun member => member.name ≠ "<clinit>" }
  let count ← Reader.u2
  Reader.iterated (readClassAttribute pool) count.toNat decl

/-- A class file without regard to what follows it. -/
def readClass : Reader TypeDecl := do
  let found ← Reader.u4
  if found ≠ magic then
    throw (.badMagic found)
  let _ ← Reader.u2
  let _ ← Reader.u2
  let pool ← ConstantPool.read
  readBody pool

/-- The declaration that a class file holds. -/
def decode (bytes : List UInt8) : Except Fault TypeDecl :=
  match readClass (Cursor.start bytes) with
  | .error fault => .error fault
  | .ok (decl, cursor) =>
    match cursor.rest.length with
    | 0 => .ok decl
    | extra => .error (.trailingBytes extra)

end TypeReach.ClassFile
