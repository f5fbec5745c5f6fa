import TypeReach.ClassFile.ConstantPool
import TypeReach.AnnotationUse

/-!
# Annotations in class files

Element values nest through arrays and through annotations, and the reader
refuses to go deeper than a fixed limit, so that a hostile file costs no more
than its length.
-/

namespace TypeReach.ClassFile

/-- The character of a number; U+FFFD for a number that is no scalar value. -/
def charOf (number : Int32) : Char :=
  let code := number.toUInt32.toNat
  if code.isValidChar then Char.ofNat code else '�'

/-- The type of an annotation, given by its descriptor. -/
def readAnnotationType (pool : ConstantPool) : Reader TypeName := do
  let descriptor ← Reader.indexed pool.text
  match TypeName.ofDescriptor? descriptor with
  | some type => return type
  | none => throw (.badDescriptor descriptor)

/-- An element: its key, and its value by the given reader. -/
def readElement (pool : ConstantPool) (readValue : Reader ElementValue) :
    Reader (String × ElementValue) := do
  let key ← Reader.indexed pool.text
  let value ← readValue
  return (key, value)

/-- An annotation whose values are read by the given reader. -/
def readUseWith (pool : ConstantPool) (readValue : Reader ElementValue) :
    Reader AnnotationUse := do
  let type ← readAnnotationType pool
  let elements ← Reader.counted (readElement pool readValue)
  return ⟨type, elements⟩

/-- The value with a given tag; what nests in it is read by the given reader. -/
def readTagged (pool : ConstantPool) (readNested : Reader ElementValue) (tag : UInt8) :
    Reader ElementValue :=
  match Char.ofNat tag.toNat with
  | 'B' => return .constant (.int (← Reader.indexed pool.integer))
  | 'I' => return .constant (.int (← Reader.indexed pool.integer))
  | 'S' => return .constant (.int (← Reader.indexed pool.integer))
  | 'Z' => return .constant (.bool ((← Reader.indexed pool.integer) ≠ 0))
  | 'C' => return .constant (.char (charOf (← Reader.indexed pool.integer)))
  | 'J' => return .constant (.long (← Reader.indexed pool.long))
  | 'F' => return .constant (.float (← Reader.indexed pool.float))
  | 'D' => return .constant (.double (← Reader.indexed pool.double))
  | 's' => return .constant (.text (← Reader.indexed pool.text))
  | 'e' => do
    let type ← Reader.indexed pool.text
    let constant ← Reader.indexed pool.text
    return .enumConstant type constant
  | 'c' => return .typeToken (← Reader.indexed pool.text)
  | '@' => do
    let use ← readUseWith pool readNested
    return .inner use.type use.elements
  | '[' => return .array (← Reader.counted readNested)
  | other => throw (.badElementTag other)

/-- An element value that nests at most a given number of levels deep. -/
def readValue (pool : ConstantPool) : Nat → Reader ElementValue
  | 0 => throw .tooDeep
  | depth + 1 => do
    let tag ← Reader.u1
    readTagged pool (readValue pool depth) tag

/-- An annotation on a type or member. -/
def readUse (pool : ConstantPool) : Reader AnnotationUse :=
  readUseWith pool (readValue pool depthLimit)

/-- The annotations on a type or member. -/
def readAnnotations (pool : ConstantPool) : Reader (List AnnotationUse) :=
  Reader.counted (readUse pool)

end TypeReach.ClassFile
