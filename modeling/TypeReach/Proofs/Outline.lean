import TypeReach.Proofs.ClassFile.Layout
import TypeReach.Proofs.Classpath.Packages
import TypeReach.Resolution.Sources

/-!
# Types in outline

A type is outlined by its name, its supertypes and its annotations.  The outline
is laid out as a class file, with an item of the pool for each text and each class.
A reference is looked up in the pool by what it is to refer to, and is there only
if that was found.  So whatever is laid out is well formed, and an outline that
does not fit is not laid out.  Outlines make small worlds in which general
statements can be looked at.
-/

namespace TypeReach.ClassFile

/-! ## Parts that are checked -/

def Counted.empty : Counted α :=
  ⟨[], Nat.zero_lt_succ _⟩

def Counted.of? (items : List α) : Option (Counted α) :=
  if fits : items.length < 65536 then some ⟨items, fits⟩ else none

def PoolItem.text? (content : String) : Option PoolItem :=
  if fits : (TextCoding.plain.encode content).length < 65536 then
    some (.text .plain content fits)
  else none

namespace PoolLayout

def of? (items : List PoolItem) : Option PoolLayout :=
  if fits : 1 + ConstantPool.slotCount (items.map PoolItem.entry) < 65536 then
    some ⟨items, fits⟩
  else none

/-- The slot in which an entry is to be looked for. -/
def indexOf (entries : List PoolEntry) (entry : PoolEntry) : UInt16 :=
  .ofNat (ConstantPool.firstSlot entries (entries.idxOf entry))

def text? (pool : PoolLayout) (content : String) : Option pool.TextRef :=
  let index := indexOf pool.entries (.utf8 content)
  if found : pool.entryAt? index = some (.utf8 content) then
    some ⟨index, content, found⟩
  else none

def class? (pool : PoolLayout) (name : String) : Option pool.ClassRef :=
  let nameIndex := indexOf pool.entries (.utf8 name)
  let index := indexOf pool.entries (.classRef nameIndex)
  if found : pool.entryAt? index = some (.classRef nameIndex) ∧
      pool.entryAt? nameIndex = some (.utf8 name) then
    some ⟨index, name, nameIndex, found⟩
  else none

def annotationType? (pool : PoolLayout) (type : TypeName) : Option pool.AnnotationTypeRef :=
  let index := indexOf pool.entries (.utf8 type.descriptor)
  if found : pool.entryAt? index = some (.utf8 type.descriptor) ∧ type.slashed ≠ "" ∧
      '.' ∉ type.slashed.toList then
    some ⟨index, type, found⟩
  else none

end PoolLayout

/-- An array of types. -/
def ValueLayout.types (tokens : List (PoolLayout.TextRef pool)) : ValueLayout pool :=
  .array (.ofNat tokens.length) fun place =>
    have inside : place.val < tokens.length :=
      Nat.lt_of_lt_of_le place.isLt
        (Nat.le_trans (Nat.le_of_eq UInt16.toNat_ofNat') (Nat.mod_le _ _))
    .typeToken (tokens.get ⟨place, inside⟩)

theorem ValueLayout.height_types_le
    (tokens : List (PoolLayout.TextRef pool)) :
    (types tokens).height ≤ 2 := by
  rw [types, height]
  apply Nat.succ_le_succ
  exact Finset.sup_le fun _ _ => Nat.le_refl 1

/-- An annotation that lists types as its element `value`, if it lists any. -/
def AnnotationLayout.of?
    (pool : PoolLayout) (use : String × List String) :
    Option (AnnotationLayout pool) := do
  let type ← pool.annotationType? ⟨use.1⟩
  if use.2 = [] then
    return ⟨type, .empty, List.forall_mem_nil _⟩
  let key ← pool.text? "value"
  let tokens ← use.2.mapM fun listed => pool.text? (TypeName.mk listed).descriptor
  return ⟨type, ⟨[(key, .types tokens)], by simp⟩, by
    intro element member
    rw [List.mem_singleton.mp member]
    exact Nat.le_trans (ValueLayout.height_types_le tokens) (by decide)⟩

def ClassAttribute.annotations?
    (pool : PoolLayout) (uses : List (String × List String)) :
    Option (ClassAttribute pool) := do
  let name ← pool.text? "RuntimeVisibleAnnotations"
  let annotations ← Counted.of? (← uses.mapM (AnnotationLayout.of? pool))
  if named : name.value = "RuntimeVisibleAnnotations" then
    let content : ClassContent pool name.value := .annotations named annotations
    if fits : (content.encode).length < 4294967296 then
      return ⟨name, content, fits⟩
    else none
  else none

/-! ## Outlines -/

structure Outline where
  name : String
  superclass : Option String := none
  interfaces : List String := []
  /-- The types of its annotations, each with the types that it lists. -/
  annotations : List (String × List String) := []
  /-- Items of the pool that nothing refers to. -/
  unused : List PoolItem := []

namespace Outline

def parents (outline : Outline) : List String :=
  outline.superclass.toList ++ outline.interfaces

/-- The texts of the pool behind the name of the type. -/
def texts (outline : Outline) : List String :=
  let named := outline.annotations.flatMap fun use => use.1 :: use.2
  let marks := if outline.annotations = [] then [] else ["RuntimeVisibleAnnotations"]
  let keys := if outline.annotations.all (·.2.isEmpty) then [] else ["value"]
  marks ++ keys ++ named.map (fun type => (TypeName.mk type).descriptor) ++ outline.parents

/-- The name and the type come first, so that they are in the first two slots. -/
def items? (outline : Outline) : Option (List PoolItem) := do
  let name ← PoolItem.text? outline.name
  let texts ← outline.texts.mapM PoolItem.text?
  let written := name :: .classRef 1 :: (outline.unused ++ texts)
  return written ++ outline.parents.map fun parent =>
    .classRef (PoolLayout.indexOf (written.map PoolItem.entry) (.utf8 parent))

def layout? (outline : Outline) : Option ClassLayout := do
  let pool ← PoolLayout.of? (← outline.items?)
  let attributes ←
    if outline.annotations = [] then some []
    else (ClassAttribute.annotations? pool outline.annotations).map ([·])
  return {
    minor := 0
    major := 61
    pool := pool
    access := 1
    this := ← pool.class? outline.name
    superclass := ← outline.superclass.mapM pool.class?
    interfaces := ← Counted.of? (← outline.interfaces.mapM pool.class?)
    fields := .empty
    methods := .empty
    attributes := ← Counted.of? attributes }

/-- The class file of a type in outline. -/
def encode (outline : Outline) : List UInt8 :=
  (outline.layout?.map ClassLayout.encode).getD []

def archive? (outlines : List Outline) : Option Files.Archive :=
  Files.Archive.ofEntries? (outlines.map fun outline =>
    ⟨outline.name ++ ".class", outline.encode, .stored⟩)

/-- One archive that holds the outlined types. -/
def sources (outlines : List Outline) : Resolution.Sources where
  disk := .empty
  classpath := Classpath.empty.extended .empty ⟨"types.jar", .archive, archive? outlines⟩
  platform := .empty

end Outline

end TypeReach.ClassFile
