/-!
# Characters of YAML texts

Which characters a YAML text may hold, and which of them are blank or end a
line.
-/

namespace TypeReach.Yaml

/-- Whether a character may stand in a text. -/
def isAllowed (character : Char) : Bool :=
  let code := character.toNat
  code = 0x09 || code = 0x0A || code = 0x0D || (0x20 ≤ code && code ≤ 0x7E) || code = 0x85 ||
    (0xA0 ≤ code && code ≤ 0xD7FF) || (0xE000 ≤ code && code ≤ 0xFFFD) || 0x10000 ≤ code

/-- Whether a character is the byte order mark. -/
def isByteOrderMark (character : Char) : Bool := character.toNat = 0xFEFF

/-- Write all line ends but the two Unicode separators as line feeds. -/
def unifyBreaks : List Char → List Char
  | [] => []
  | '\r' :: '\n' :: rest => '\n' :: unifyBreaks rest
  | character :: rest =>
    (if character = '\r' || character.toNat = 0x85 then '\n' else character) :: unifyBreaks rest

/-- The characters to read; none for a text with a character that is not allowed. -/
def prepared? (text : List Char) : Option (List Char) :=
  if text.all isAllowed then some (unifyBreaks text) else none

def isBreak (character : Char) : Bool :=
  character = '\n' || character.toNat = 0x2028 || character.toNat = 0x2029

def isSpace (character : Char) : Bool :=
  character = ' ' || character = '\t'

/-- Whether a text ends or has a blank or a line end in front. -/
def startsBlank : List Char → Bool
  | [] => true
  | character :: _ => isSpace character || isBreak character

/-- Whether a marker of three characters stands in front. -/
def startsWithMarker (marker : Char) : List Char → Bool
  | first :: second :: third :: rest =>
    first = marker && second = marker && third = marker && startsBlank rest
  | _ => false

/-- Whether a line starts or ends a document. -/
def isDocumentLine (line : List Char) : Bool :=
  startsWithMarker '-' line || startsWithMarker '.' line

/-- A place in a text. -/
structure Place where
  /-- How many bytes of UTF-8 stand before it, a line end counting as one character. -/
  offset : Nat
  line : Nat
  column : Nat
  deriving DecidableEq, Repr

/-- The place after a character. -/
def Place.after (place : Place) (character : Char) : Place :=
  let offset := place.offset + character.utf8Size
  if isBreak character then ⟨offset, place.line + 1, 0⟩
  else ⟨offset, place.line, place.column + 1⟩

/-- The place some characters of one byte further in the same line. -/
def Place.forward (place : Place) (count : Nat) : Place :=
  ⟨place.offset + count, place.line, place.column + count⟩

end TypeReach.Yaml
