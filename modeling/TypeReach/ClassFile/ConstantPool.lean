import TypeReach.ClassFile.Reader
import TypeReach.Text.ModifiedUtf8

/-!
# The constant pool

A class file keeps its texts, numbers and references in a numbered pool.  Slot
zero is never used, and a constant of eight bytes takes two slots, the second
of which is not used either.
-/

namespace TypeReach.ClassFile

/-- An entry of the pool. -/
inductive PoolEntry where
  | utf8 (text : String)
  | integer (value : Int32)
  | float (bits : UInt32)
  | long (value : Int64)
  | double (bits : UInt64)
  /-- A class, by the slot of its name. -/
  | classRef (nameIndex : UInt16)
  /-- A text constant, by the slot of its text. -/
  | stringRef (textIndex : UInt16)
  /-- A kind of entry that says nothing about the structure of a type. -/
  | other
  deriving DecidableEq, Repr

/-- Whether an entry takes two slots. -/
def PoolEntry.isWide : PoolEntry → Bool
  | long _ => true
  | double _ => true
  | _ => false

/-- The slots of a pool; `none` is a slot that cannot be used. -/
structure ConstantPool where
  slots : Array (Option PoolEntry)

namespace ConstantPool

/-- A text of the pool: its length in two bytes and then its bytes. -/
def readText : Reader PoolEntry := do
  let length ← Reader.u2
  let bytes ← Reader.bytes length.toNat
  match Text.ModifiedUtf8.decode? bytes with
  | some text => return .utf8 (String.ofList text)
  | none => throw .invalidText

/-- An entry whose content is not needed, of a given length. -/
def readOther (length : Nat) : Reader PoolEntry := do
  let _ ← Reader.bytes length
  return .other

/-- The content of an entry with a given tag that was read at `offset`. -/
def readContent (tag : UInt8) (offset : Nat) : Reader PoolEntry :=
  match tag.toNat with
  | 1 => readText
  | 3 => return .integer (← Reader.u4).toInt32
  | 4 => return .float (← Reader.u4)
  | 5 => return .long (← Reader.u8).toInt64
  | 6 => return .double (← Reader.u8)
  | 7 => return .classRef (← Reader.u2)
  | 8 => return .stringRef (← Reader.u2)
  | 9 => readOther 4
  | 10 => readOther 4
  | 11 => readOther 4
  | 12 => readOther 4
  | 15 => readOther 3
  | 16 => readOther 2
  | 17 => readOther 4
  | 18 => readOther 4
  | 19 => readOther 2
  | 20 => readOther 2
  | _ => throw (.badConstantTag tag offset)

/-- One entry: its tag and its content. -/
def readEntry : Reader PoolEntry := do
  let offset ← Reader.position
  let tag ← Reader.u1
  readContent tag offset

/--
Entries until a given number of slots is filled.  A wide entry in the last of
them still takes its second slot.
-/
def readSlots : Nat → Reader (List (Option PoolEntry))
  | 0 => pure []
  | slots + 1 => do
    let entry ← readEntry
    if entry.isWide then
      match slots with
      | 0 => return [some entry, none]
      | fewer + 1 =>
        let rest ← readSlots fewer
        return some entry :: none :: rest
    else
      let rest ← readSlots slots
      return some entry :: rest

/-- A pool: the number of its slots, slot zero included, and its entries. -/
def read : Reader ConstantPool := do
  let count ← Reader.u2
  let slots ← readSlots (count.toNat - 1)
  return ⟨(none :: slots).toArray⟩

/-- The entry of a slot. -/
def get (pool : ConstantPool) (index : UInt16) : Except Fault PoolEntry :=
  match pool.slots[index.toNat]? with
  | some (some entry) => .ok entry
  | some none => .error (.badConstantIndex index)
  | none => .error (.badConstantIndex index)

/-- The text of a slot. -/
def text (pool : ConstantPool) (index : UInt16) : Except Fault String := do
  match ← pool.get index with
  | .utf8 text => return text
  | _ => throw (.unexpectedConstant index "Utf8")

/-- The name of the class of a slot. -/
def className (pool : ConstantPool) (index : UInt16) : Except Fault String := do
  match ← pool.get index with
  | .classRef nameIndex => pool.text nameIndex
  | _ => throw (.unexpectedConstant index "Class")

/-- The name of the class of a slot, where slot zero stands for no class. -/
def className? (pool : ConstantPool) (index : UInt16) : Except Fault (Option String) :=
  if index = 0 then return none
  else return some (← pool.className index)

/-- The integer of a slot. -/
def integer (pool : ConstantPool) (index : UInt16) : Except Fault Int32 := do
  match ← pool.get index with
  | .integer value => return value
  | _ => throw (.unexpectedConstant index "Integer")

/-- The long integer of a slot. -/
def long (pool : ConstantPool) (index : UInt16) : Except Fault Int64 := do
  match ← pool.get index with
  | .long value => return value
  | _ => throw (.unexpectedConstant index "Long")

/-- The single-precision number of a slot, as its bits. -/
def float (pool : ConstantPool) (index : UInt16) : Except Fault UInt32 := do
  match ← pool.get index with
  | .float bits => return bits
  | _ => throw (.unexpectedConstant index "Float")

/-- The double-precision number of a slot, as its bits. -/
def double (pool : ConstantPool) (index : UInt16) : Except Fault UInt64 := do
  match ← pool.get index with
  | .double bits => return bits
  | _ => throw (.unexpectedConstant index "Double")

end ConstantPool

namespace Reader

/-- Read an index and look it up at once. -/
def indexed (look : UInt16 → Except Fault α) : Reader α := do
  let index ← u2
  match look index with
  | .ok value => return value
  | .error fault => throw fault

end Reader

end TypeReach.ClassFile
