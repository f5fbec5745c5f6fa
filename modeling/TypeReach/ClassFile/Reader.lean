import TypeReach.Text.Quoted

/-!
# Reading bytes

A reader takes what it needs from the front of the remaining bytes and knows
its distance from the start, because a text that ends too early is reported
with the place where the missing part should have begun.
-/

namespace TypeReach.ClassFile

/-- Why a byte text is no class file. -/
inductive Fault where
  /-- The bytes end where something is still expected. -/
  | truncated (offset : Nat)
  | badMagic (magic : UInt32)
  | badConstantTag (tag : UInt8) (offset : Nat)
  /-- An index of no usable slot. -/
  | badConstantIndex (index : UInt16)
  /-- A slot that holds another kind of constant. -/
  | unexpectedConstant (index : UInt16) (expected : String)
  | invalidText
  | badElementTag (tag : Char)
  | badDescriptor (descriptor : String)
  | tooDeep
  | trailingBytes (count : Nat)
  deriving DecidableEq, Repr

/-- How deep element values may nest. -/
def depthLimit : Nat := 64

/-- A number in eight hexadecimal digits after `0x`. -/
def hex8 (number : UInt32) : String :=
  let digits := Nat.toDigits 16 number.toNat
  "0x" ++ String.ofList (List.replicate (8 - digits.length) '0' ++ digits)

/-- The message of a fault. -/
def Fault.message : Fault → String
  | truncated offset => s!"unexpected end of data at offset {offset}"
  | badMagic magic => "bad magic " ++ hex8 magic
  | badConstantTag tag offset =>
    s!"unknown constant pool tag {tag.toNat} at offset {offset}"
  | badConstantIndex index => s!"invalid constant pool index {index.toNat}"
  | unexpectedConstant index expected =>
    s!"constant pool entry {index.toNat} is not {expected}"
  | invalidText => "invalid modified UTF-8 in constant pool"
  | badElementTag tag => "unknown element value tag " ++ Text.quotedChar tag
  | badDescriptor descriptor => "malformed descriptor " ++ Text.quoted descriptor
  | tooDeep => s!"annotation values nested deeper than {depthLimit}"
  | trailingBytes count => s!"trailing bytes after class file ({count} extra)"

/-- The remaining bytes and how many were read before them. -/
structure Cursor where
  offset : Nat
  rest : List UInt8
  deriving DecidableEq, Repr

/-- The cursor at the start of some bytes. -/
def Cursor.start (bytes : List UInt8) : Cursor := ⟨0, bytes⟩

/-- A reader of some value. -/
abbrev Reader := StateT Cursor (Except Fault)

namespace Reader

/-- The bytes of a given number; none are taken when there are fewer. -/
def bytes (count : Nat) : Reader (List UInt8) := fun cursor =>
  let taken := cursor.rest.take count
  if taken.length = count then
    .ok (taken, ⟨cursor.offset + count, cursor.rest.drop count⟩)
  else .error (.truncated cursor.offset)

/-- One byte. -/
def u1 : Reader UInt8 := fun cursor =>
  match cursor.rest with
  | byte :: rest => .ok (byte, ⟨cursor.offset + 1, rest⟩)
  | [] => .error (.truncated cursor.offset)

/-- A number of two bytes, the high one first. -/
def u2 : Reader UInt16 := fun cursor =>
  match cursor.rest with
  | first :: second :: rest =>
    .ok (UInt16.ofNat (first.toNat * 256 + second.toNat), ⟨cursor.offset + 2, rest⟩)
  | _ => .error (.truncated cursor.offset)

/-- A number of four bytes, the high one first. -/
def u4 : Reader UInt32 := fun cursor =>
  match cursor.rest with
  | first :: second :: third :: fourth :: rest =>
    .ok (UInt32.ofNat (((first.toNat * 256 + second.toNat) * 256 + third.toNat) * 256 +
      fourth.toNat), ⟨cursor.offset + 4, rest⟩)
  | _ => .error (.truncated cursor.offset)

/-- A number of eight bytes, read as two halves. -/
def u8 : Reader UInt64 := do
  let high ← u4
  let low ← u4
  return UInt64.ofNat (high.toNat * 4294967296 + low.toNat)

/-- The distance from the start. -/
def position : Reader Nat := fun cursor => .ok (cursor.offset, cursor)

/-- A given number of values, one after the other. -/
def repeated (reader : Reader α) : Nat → Reader (List α)
  | 0 => pure []
  | count + 1 => do
    let value ← reader
    let rest ← repeated reader count
    return value :: rest

/-- A counted list: its length in two bytes and then its values. -/
def counted (reader : Reader α) : Reader (List α) := do
  let count ← u2
  repeated reader count.toNat

/-- Run a reader on bytes of their own; what it leaves is dropped. -/
def within (body : List UInt8) (reader : Reader α) : Reader α := fun cursor =>
  match reader (Cursor.start body) with
  | .ok (value, _) => .ok (value, cursor)
  | .error fault => .error fault

end Reader

end TypeReach.ClassFile
