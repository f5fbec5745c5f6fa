/-!
# Blank characters

The characters with the Unicode property `White_Space`, and the removal of a
text's blank ends.  Names, keys and values are compared only after this
removal, so the class is the full one and not its ASCII part.
-/

namespace TypeReach.Text

/-- The code points with the property `White_Space`, as closed ranges. -/
def blankRanges : List (Nat × Nat) :=
  [(0x09, 0x0D), (0x20, 0x20), (0x85, 0x85), (0xA0, 0xA0), (0x1680, 0x1680),
    (0x2000, 0x200A), (0x2028, 0x2029), (0x202F, 0x202F), (0x205F, 0x205F),
    (0x3000, 0x3000)]

/-- Whether a character is blank. -/
def isBlank (character : Char) : Bool :=
  blankRanges.any fun range =>
    range.1 ≤ character.toNat && character.toNat ≤ range.2

/-- Drop the blank characters in front. -/
def trimStart (text : List Char) : List Char :=
  text.dropWhile isBlank

/-- Drop the blank characters at the end. -/
def trimEnd (text : List Char) : List Char :=
  (text.reverse.dropWhile isBlank).reverse

/-- Drop the blank characters at both ends. -/
def trim (text : List Char) : List Char :=
  trimEnd (trimStart text)

end TypeReach.Text
