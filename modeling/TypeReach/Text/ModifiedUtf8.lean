import TypeReach.Text.Utf8

/-!
# Modified UTF-8

Class files keep texts in a variant of UTF-8 that writes UTF-16 units: each
unit in one to three bytes, NUL in two, and a character beyond U+FFFF as its
two surrogates.  Plain UTF-8 is read as well, and is tried first.
-/

namespace TypeReach.Text.ModifiedUtf8

/-- Whether a byte continues a unit. -/
def isTail (byte : UInt8) : Bool :=
  0x80 ≤ byte.toNat && byte.toNat < 0xC0

/-- The units that a byte text writes, each form taken at its face value. -/
def units? : List UInt8 → Option (List Nat)
  | [] => some []
  | first :: rest =>
    if first.toNat < 0x80 then (units? rest).map (first.toNat :: ·)
    else if 0xC0 ≤ first.toNat && first.toNat < 0xE0 then
      match rest with
      | second :: more =>
        if isTail second then
          (units? more).map
            (((first.toNat - 0xC0) * 64 + (second.toNat - 0x80)) :: ·)
        else none
      | [] => none
    else if 0xE0 ≤ first.toNat && first.toNat < 0xF0 then
      match rest with
      | second :: third :: more =>
        if isTail second && isTail third then
          (units? more).map
            (((first.toNat - 0xE0) * 4096 + (second.toNat - 0x80) * 64 +
              (third.toNat - 0x80)) :: ·)
        else none
      | _ => none
    else none

/-- Whether a unit is the first half of a pair. -/
def isHigh (unit : Nat) : Bool := 0xD800 ≤ unit && unit < 0xDC00

/-- Whether a unit is the second half of a pair. -/
def isLow (unit : Nat) : Bool := 0xDC00 ≤ unit && unit < 0xE000

/-- The characters of UTF-16 units; `none` for a half without its other half. -/
def fromUnits? : List Nat → Option (List Char)
  | [] => some []
  | unit :: rest =>
    if isHigh unit then
      match rest with
      | low :: more =>
        if isLow low then
          (fromUnits? more).map
            (Char.ofNat (0x10000 + (unit - 0xD800) * 0x400 + (low - 0xDC00)) :: ·)
        else none
      | [] => none
    else if isLow unit then none
    else (fromUnits? rest).map (Char.ofNat unit :: ·)

/-- Reading unit by unit. -/
def decodeUnits? (bytes : List UInt8) : Option (List Char) :=
  (units? bytes).bind fromUnits?

/-- Reading a text of a class file. -/
def decode? (bytes : List UInt8) : Option (List Char) :=
  match Utf8.decode? bytes with
  | some text => some text
  | none => decodeUnits? bytes

/-- The UTF-16 units of a character. -/
def toUnits (character : Char) : List Nat :=
  if character.toNat < 0x10000 then [character.toNat]
  else
    [0xD800 + (character.toNat - 0x10000) / 0x400,
      0xDC00 + (character.toNat - 0x10000) % 0x400]

/-- The bytes of a unit; NUL takes two, so that no written text holds a zero. -/
def encodeUnit (unit : Nat) : List UInt8 :=
  if unit ≠ 0 ∧ unit < 0x80 then [UInt8.ofNat unit]
  else if unit < 0x800 then
    [UInt8.ofNat (0xC0 + unit / 64), UInt8.ofNat (0x80 + unit % 64)]
  else
    [UInt8.ofNat (0xE0 + unit / 4096), UInt8.ofNat (0x80 + unit / 64 % 64),
      UInt8.ofNat (0x80 + unit % 64)]

/-- The bytes of a text. -/
def encode (text : List Char) : List UInt8 :=
  (text.flatMap toUnits).flatMap encodeUnit

end TypeReach.Text.ModifiedUtf8
