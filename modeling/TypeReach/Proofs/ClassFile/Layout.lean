import Mathlib.Data.Finset.Lattice.Fold
import Mathlib.Data.Fintype.Basic
import Mathlib.Order.Lattice.Nat
import TypeReach.Proofs.ClassFile.Numbering

/-!
# Layouts of class files

A layout is a class file before it is turned into bytes: its pool item by item,
and everything else by indices into that pool.  The parts carry what makes them
well formed.  A counted list fits its count, a reference comes with what the pool
holds at its index, and an annotation nests no deeper than allowed.  So each
layout has its bytes, and it has its meaning, the declaration that it describes,
which is said without any reading of bytes.
-/

namespace TypeReach.ClassFile

/-! ## Numbers and counted lists -/

def bytes2 (number : UInt16) : List UInt8 :=
  [.ofNat (number.toNat / 256), .ofNat (number.toNat % 256)]

def bytes4 (number : UInt32) : List UInt8 :=
  [.ofNat (number.toNat / 16777216), .ofNat (number.toNat / 65536 % 256),
    .ofNat (number.toNat / 256 % 256), .ofNat (number.toNat % 256)]

def bytes8 (number : UInt64) : List UInt8 :=
  bytes4 (.ofNat (number.toNat / 4294967296)) ++
    bytes4 (.ofNat (number.toNat % 4294967296))

/-- The number of some chunks in two bytes, and then the chunks. -/
def withCount (chunks : List (List UInt8)) : List UInt8 :=
  bytes2 (.ofNat chunks.length) ++ chunks.flatten

/-- A list whose length fits two bytes. -/
structure Counted (α : Type) where
  items : List α
  fits : items.length < 65536

def Counted.encode (write : α → List UInt8) (list : Counted α) : List UInt8 :=
  withCount (list.items.map write)

/-! ## The pool -/

/-- The two ways to write a text. -/
inductive TextCoding where
  | plain
  | modified

def TextCoding.encode (text : String) : TextCoding → List UInt8
  | plain => Text.Utf8.encode text.toList
  | modified => Text.ModifiedUtf8.encode text.toList

/-- The kinds of items that say nothing about the structure of a type. -/
inductive OtherKind where
  | fieldRef
  | methodRef
  | interfaceMethodRef
  | nameAndType
  | methodHandle
  | methodType
  | dynamic
  | invokeDynamic
  | module
  | package

namespace OtherKind

def tag : OtherKind → UInt8
  | fieldRef => 9
  | methodRef => 10
  | interfaceMethodRef => 11
  | nameAndType => 12
  | methodHandle => 15
  | methodType => 16
  | dynamic => 17
  | invokeDynamic => 18
  | module => 19
  | package => 20

/-- How many bytes follow the tag. -/
def length : OtherKind → Nat
  | methodHandle => 3
  | methodType => 2
  | module => 2
  | package => 2
  | _ => 4

end OtherKind

/-- One item of a pool. -/
inductive PoolItem where
  | text (coding : TextCoding) (content : String)
      (fits : (coding.encode content).length < 65536)
  | integer (number : Int32)
  | float (bits : UInt32)
  | long (number : Int64)
  | double (bits : UInt64)
  | classRef (nameIndex : UInt16)
  | stringRef (textIndex : UInt16)
  | other (kind : OtherKind) (content : List UInt8)
      (whole : content.length = kind.length)

namespace PoolItem

def tag : PoolItem → UInt8
  | text _ _ _ => 1
  | integer _ => 3
  | float _ => 4
  | long _ => 5
  | double _ => 6
  | classRef _ => 7
  | stringRef _ => 8
  | other kind _ _ => kind.tag

def content : PoolItem → List UInt8
  | text coding content _ =>
    bytes2 (.ofNat (coding.encode content).length) ++ coding.encode content
  | integer number => bytes4 number.toUInt32
  | float bits => bytes4 bits
  | long number => bytes8 number.toUInt64
  | double bits => bytes8 bits
  | classRef nameIndex => bytes2 nameIndex
  | stringRef textIndex => bytes2 textIndex
  | other _ content _ => content

def encode (item : PoolItem) : List UInt8 :=
  item.tag :: item.content

/-- What an item stands for. -/
def entry : PoolItem → PoolEntry
  | text _ content _ => .utf8 content
  | integer number => .integer number
  | float bits => .float bits
  | long number => .long number
  | double bits => .double bits
  | classRef nameIndex => .classRef nameIndex
  | stringRef textIndex => .stringRef textIndex
  | other _ _ _ => .other

end PoolItem

/-- The items of a pool, whose slots can be counted in two bytes. -/
structure PoolLayout where
  items : List PoolItem
  fits : 1 + ConstantPool.slotCount (items.map PoolItem.entry) < 65536

namespace PoolLayout

def entries (pool : PoolLayout) : List PoolEntry :=
  pool.items.map PoolItem.entry

def encode (pool : PoolLayout) : List UInt8 :=
  bytes2 (.ofNat (1 + ConstantPool.slotCount pool.entries)) ++
    pool.items.flatMap PoolItem.encode

/-- The entry that begins in a slot, when the first of some entries begins in `start`. -/
def entryFrom (start : Nat) : List PoolEntry → Nat → Option PoolEntry
  | [], _ => none
  | entry :: rest, slot =>
    if slot = start then some entry else entryFrom (start + entry.width) rest slot

/-- What the item that begins in a slot stands for. -/
def entryAt? (pool : PoolLayout) (index : UInt16) : Option PoolEntry :=
  entryFrom 1 pool.entries index.toNat

end PoolLayout

/-! ## References -/

/-- An index together with what it refers to. -/
structure Ref (holds : UInt16 → α → Prop) where
  index : UInt16
  value : α
  found : holds index value

namespace PoolLayout

abbrev TextRef (pool : PoolLayout) :=
  Ref fun index text => pool.entryAt? index = some (.utf8 text)

abbrev IntegerRef (pool : PoolLayout) :=
  Ref fun index number => pool.entryAt? index = some (.integer number)

abbrev LongRef (pool : PoolLayout) :=
  Ref fun index number => pool.entryAt? index = some (.long number)

abbrev FloatRef (pool : PoolLayout) :=
  Ref fun index bits => pool.entryAt? index = some (.float bits)

abbrev DoubleRef (pool : PoolLayout) :=
  Ref fun index bits => pool.entryAt? index = some (.double bits)

/-- A class, by its name. -/
abbrev ClassRef (pool : PoolLayout) :=
  Ref fun index name => ∃ nameIndex,
    pool.entryAt? index = some (.classRef nameIndex) ∧
      pool.entryAt? nameIndex = some (.utf8 name)

/-- A character, by the integer that is its code point. -/
abbrev CharRef (pool : PoolLayout) :=
  Ref fun index (character : Char) =>
    pool.entryAt? index = some (.integer character.val.toInt32)

/-- The type of an annotation, by the text that is its descriptor. -/
abbrev AnnotationTypeRef (pool : PoolLayout) :=
  Ref fun index (type : TypeName) =>
    pool.entryAt? index = some (.utf8 type.descriptor) ∧ type.slashed ≠ "" ∧
      '.' ∉ type.slashed.toList

/-- The index of a class that may be absent. -/
def optionalIndex {pool : PoolLayout} : Option pool.ClassRef → UInt16
  | none => 0
  | some ref => ref.index

end PoolLayout

/-! ## Element values -/

inductive ConstantLayout (pool : PoolLayout) where
  | byte (number : pool.IntegerRef)
  | short (number : pool.IntegerRef)
  | int (number : pool.IntegerRef)
  | bool (number : pool.IntegerRef)
  | char (character : pool.CharRef)
  | long (number : pool.LongRef)
  | float (bits : pool.FloatRef)
  | double (bits : pool.DoubleRef)
  | text (content : pool.TextRef)

namespace ConstantLayout

def tag : ConstantLayout pool → Char
  | byte _ => 'B'
  | short _ => 'S'
  | int _ => 'I'
  | bool _ => 'Z'
  | char _ => 'C'
  | long _ => 'J'
  | float _ => 'F'
  | double _ => 'D'
  | text _ => 's'

def index : ConstantLayout pool → UInt16
  | byte number => number.index
  | short number => number.index
  | int number => number.index
  | bool number => number.index
  | char character => character.index
  | long number => number.index
  | float bits => bits.index
  | double bits => bits.index
  | text content => content.index

def value : ConstantLayout pool → Constant
  | byte number => .int number.value
  | short number => .int number.value
  | int number => .int number.value
  | bool number => .bool (number.value ≠ 0)
  | char character => .char character.value
  | long number => .long number.value
  | float bits => .float bits.value
  | double bits => .double bits.value
  | text content => .text content.value

end ConstantLayout

/--
An element value.  Arrays and annotations have as many parts as their count says,
so that no tree is too wide for its bytes.
-/
inductive ValueLayout (pool : PoolLayout) where
  | constant (content : ConstantLayout pool)
  | enumConstant (type name : pool.TextRef)
  | typeToken (descriptor : pool.TextRef)
  | inner (type : pool.AnnotationTypeRef) (count : UInt16)
      (key : Fin count.toNat → pool.TextRef)
      (element : Fin count.toNat → ValueLayout pool)
  | array (count : UInt16) (item : Fin count.toNat → ValueLayout pool)

namespace ValueLayout

def encode : ValueLayout pool → List UInt8
  | constant content => content.tag.toUInt8 :: bytes2 content.index
  | enumConstant type name => 'e'.toUInt8 :: (bytes2 type.index ++ bytes2 name.index)
  | typeToken descriptor => 'c'.toUInt8 :: bytes2 descriptor.index
  | inner type _ key element =>
    '@'.toUInt8 :: (bytes2 type.index ++
      withCount (List.ofFn fun i => bytes2 (key i).index ++ (element i).encode))
  | array _ item => '['.toUInt8 :: withCount (List.ofFn fun i => (item i).encode)

def value : ValueLayout pool → ElementValue
  | constant content => .constant content.value
  | enumConstant type name => .enumConstant type.value name.value
  | typeToken descriptor => .typeToken descriptor.value
  | inner type _ key element =>
    .inner type.value (List.ofFn fun i => ((key i).value, (element i).value))
  | array _ item => .array (List.ofFn fun i => (item i).value)

/-- How deep a value nests; one that has no parts nests one level. -/
def height : ValueLayout pool → Nat
  | constant _ => 1
  | enumConstant _ _ => 1
  | typeToken _ => 1
  | inner _ _ _ element => Finset.univ.sup (fun i => (element i).height) + 1
  | array _ item => Finset.univ.sup (fun i => (item i).height) + 1

end ValueLayout

/-! ## Annotations -/

structure AnnotationLayout (pool : PoolLayout) where
  type : pool.AnnotationTypeRef
  elements : Counted (pool.TextRef × ValueLayout pool)
  shallow : ∀ element ∈ elements.items, element.2.height ≤ depthLimit

namespace AnnotationLayout

def encode (layout : AnnotationLayout pool) : List UInt8 :=
  bytes2 layout.type.index ++
    layout.elements.encode fun element => bytes2 element.1.index ++ element.2.encode

def use (layout : AnnotationLayout pool) : AnnotationUse where
  type := layout.type.value
  elements := layout.elements.items.map fun element => (element.1.value, element.2.value)

end AnnotationLayout

/-! ## Attributes -/

/-- An attribute whose name decides what it may hold, given how that is written. -/
structure AttributeLayout (pool : PoolLayout) {Content : String → Type}
    (write : ∀ name, Content name → List UInt8) where
  name : pool.TextRef
  content : Content name.value
  fits : (write name.value content).length < 4294967296

namespace AttributeLayout

def body
    {Content : String → Type} {write : ∀ name, Content name → List UInt8}
    (block : AttributeLayout pool write) : List UInt8 :=
  write block.name.value block.content

def encode
    {Content : String → Type} {write : ∀ name, Content name → List UInt8}
    (block : AttributeLayout pool write) : List UInt8 :=
  bytes2 block.name.index ++ (bytes4 (.ofNat block.body.length) ++ block.body)

end AttributeLayout

/-- What an attribute of a member holds. -/
inductive MemberContent (pool : PoolLayout) (name : String) where
  | annotations (named : name = "RuntimeVisibleAnnotations")
      (uses : Counted (AnnotationLayout pool))
  | other (unread : name ≠ "RuntimeVisibleAnnotations") (body : List UInt8)

namespace MemberContent

def encode (name : String) : MemberContent pool name → List UInt8
  | annotations _ uses => uses.encode AnnotationLayout.encode
  | other _ body => body

def uses? : MemberContent pool name → Option (List AnnotationUse)
  | annotations _ uses => some (uses.items.map AnnotationLayout.use)
  | other _ _ => none

end MemberContent

abbrev MemberAttribute (pool : PoolLayout) :=
  AttributeLayout pool (@MemberContent.encode pool)

/-- An entry of the table of inner classes. -/
structure InnerClassLayout (pool : PoolLayout) where
  inner : pool.ClassRef
  outer : Option pool.ClassRef
  nameIndex : UInt16
  flags : UInt16

def InnerClassLayout.encode (entry : InnerClassLayout pool) : List UInt8 :=
  bytes2 entry.inner.index ++ (bytes2 (PoolLayout.optionalIndex entry.outer) ++
    (bytes2 entry.nameIndex ++ bytes2 entry.flags))

/-- What an attribute of a class holds. -/
inductive ClassContent (pool : PoolLayout) (name : String) where
  | annotations (named : name = "RuntimeVisibleAnnotations")
      (uses : Counted (AnnotationLayout pool))
  | innerClasses (named : name = "InnerClasses")
      (entries : Counted (InnerClassLayout pool))
  | signature (named : name = "Signature") (text : pool.TextRef)
  | other (unread : name ∉ ["RuntimeVisibleAnnotations", "InnerClasses", "Signature"])
      (body : List UInt8)

namespace ClassContent

def encode (name : String) : ClassContent pool name → List UInt8
  | annotations _ uses => uses.encode AnnotationLayout.encode
  | innerClasses _ entries => entries.encode InnerClassLayout.encode
  | signature _ text => bytes2 text.index
  | other _ body => body

def uses? : ClassContent pool name → Option (List AnnotationUse)
  | annotations _ uses => some (uses.items.map AnnotationLayout.use)
  | _ => none

/-- The types that a table of inner classes puts directly into `this`. -/
def nested? (this : String) : ClassContent pool name → Option (List TypeName)
  | innerClasses _ entries =>
    some ((entries.items.filter fun entry =>
      entry.outer.map Ref.value = some this && entry.inner.value ≠ this).map
        fun entry => ⟨entry.inner.value⟩)
  | _ => none

def signature? : ClassContent pool name → Option String
  | signature _ text => some text.value
  | _ => none

end ClassContent

abbrev ClassAttribute (pool : PoolLayout) :=
  AttributeLayout pool (@ClassContent.encode pool)

/-! ## Members and classes -/

structure MemberLayout (pool : PoolLayout) where
  access : UInt16
  name : pool.TextRef
  descriptor : pool.TextRef
  attributes : Counted (MemberAttribute pool)

namespace MemberLayout

def encode (member : MemberLayout pool) : List UInt8 :=
  bytes2 member.access ++ (bytes2 member.name.index ++ (bytes2 member.descriptor.index ++
    member.attributes.encode AttributeLayout.encode))

/-- The member; of several lists of annotations the last one counts. -/
def member (kind : MemberKind) (layout : MemberLayout pool) : Member where
  kind := kind
  name := layout.name.value
  descriptor := layout.descriptor.value
  access := ⟨layout.access⟩
  annotations := (layout.attributes.items.filterMap (·.content.uses?)).getLastD []

/-- A method is a constructor if it is named as one. -/
def method (layout : MemberLayout pool) : Member :=
  layout.member (if layout.name.value = "<init>" then .constructor else .method)

end MemberLayout

structure ClassLayout where
  minor : UInt16
  major : UInt16
  pool : PoolLayout
  access : UInt16
  this : pool.ClassRef
  superclass : Option pool.ClassRef
  interfaces : Counted pool.ClassRef
  fields : Counted (MemberLayout pool)
  methods : Counted (MemberLayout pool)
  attributes : Counted (ClassAttribute pool)

namespace ClassLayout

/-- What follows the pool. -/
def encodeBody (layout : ClassLayout) : List UInt8 :=
  bytes2 layout.access ++ (bytes2 layout.this.index ++
    (bytes2 (PoolLayout.optionalIndex layout.superclass) ++
      (layout.interfaces.encode (fun interface => bytes2 interface.index) ++
        (layout.fields.encode MemberLayout.encode ++
          (layout.methods.encode MemberLayout.encode ++
            layout.attributes.encode AttributeLayout.encode)))))

def encode (layout : ClassLayout) : List UInt8 :=
  bytes4 magic ++ (bytes2 layout.minor ++ (bytes2 layout.major ++
    (layout.pool.encode ++ layout.encodeBody)))

/--
The declaration of a layout.  The initializer of the class is no member, and of
several attributes of one kind the last one counts.
-/
def decl (layout : ClassLayout) : TypeDecl where
  name := ⟨layout.this.value⟩
  access := ⟨layout.access⟩
  superclass := layout.superclass.map fun ref => ⟨ref.value⟩
  interfaces := layout.interfaces.items.map fun ref => ⟨ref.value⟩
  nested :=
    (layout.attributes.items.filterMap (·.content.nested? layout.this.value)).getLastD []
  annotations := (layout.attributes.items.filterMap (·.content.uses?)).getLastD []
  members :=
    layout.fields.items.map (MemberLayout.member .field) ++
      (layout.methods.items.filter fun method => method.name.value ≠ "<clinit>").map
        MemberLayout.method
  signature := (layout.attributes.items.filterMap (·.content.signature?)).getLast?

end ClassLayout

end TypeReach.ClassFile
