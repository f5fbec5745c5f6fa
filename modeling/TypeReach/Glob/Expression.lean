import TypeReach.Glob.Basic

/-!
# Expressions over bytes

A pattern is matched against the bytes of a text, and has to cover all of it.
Its parts are turned into expressions for that.  An expression moves marks over
the places of the text: from the places where it can start to those where it can
end.  A text matches when the marks move from its start to its end, and each
expression takes one pass over the text.

Expressions also have a written form and a number of levels, on which there is a
bound.
-/

namespace TypeReach.Glob

/-- A member of a class of bytes. -/
inductive Member where
  | byte (value : UInt8)
  | range (low high : UInt8)
  deriving DecidableEq, Repr

def Member.holds (byte : UInt8) : Member → Bool
  | .byte value => value = byte
  | .range low high => low ≤ byte && byte ≤ high

/-- Something that bytes of a text can be. -/
inductive Expression where
  | byte (value : UInt8)
  | anyByte
  /-- Any bytes, also none. -/
  | anyBytes
  /-- A byte or nothing. -/
  | optional (value : UInt8)
  /-- A byte of a class, or one outside of it. -/
  | oneOf (negated : Bool) (members : List Member)
  /-- One of some sequences. -/
  | group (branches : List (List Expression))

/-! ## Expressions of patterns -/

/-- The slash. -/
def slash : UInt8 := 0x2F

/-- The bytes of a character one after the other. -/
def bytesOf (character : Char) : List UInt8 := String.utf8EncodeChar character

/--
The members that a range of characters stands for.  The range is between the
last byte of the lower character and the first byte of the upper one; their
other bytes stand for themselves.
-/
def membersOf (range : Char × Char) : List Member :=
  let low := bytesOf range.1
  let high := bytesOf range.2
  if range.1 = range.2 then low.map .byte
  else
    low.dropLast.map .byte ++
      (low.getLast?.toList.zip high.head?.toList).map (fun ends => .range ends.1 ends.2) ++
      high.tail.map .byte

mutual

/-- The expressions of a part one after the other. -/
def Token.expressions : Token → List Expression
  | .literal character => (bytesOf character).map .byte
  | .any => [.anyByte]
  | .run => [.anyBytes]
  | .leadingPath => [.group [[.optional slash], [.anyBytes, .byte slash]]]
  | .trailingPath => [.byte slash, .anyBytes]
  | .innerPath => [.group [[.byte slash], [.byte slash, .anyBytes, .byte slash]]]
  | .oneOf negated ranges => [.oneOf negated (ranges.flatMap membersOf)]
  | .alternatives branches =>
    match branchesOf branches with
    | [] => []
    | found => [.group found]

/-- The expressions of parts one after the other. -/
def expressionsOf : List Token → List Expression
  | [] => []
  | token :: rest => token.expressions ++ expressionsOf rest

/-- The branches of a group; a branch without content is left out. -/
def branchesOf : List (List Token) → List (List Expression)
  | [] => []
  | branch :: rest =>
    match expressionsOf branch with
    | [] => branchesOf rest
    | found => found :: branchesOf rest

end

/-- The expressions of a pattern.  Two stars alone stand for anything. -/
def Pattern.expressions (pattern : Pattern) : List Expression :=
  match pattern.tokens with
  | [.leadingPath] => [.anyBytes]
  | tokens => expressionsOf tokens

/-! ## Matching -/

/-- For each place of a text, the one before its first byte included, whether it is marked. -/
abbrev Marks := List Bool

namespace Marks

/-- A mark at the start of a text alone. -/
def atStart (text : List UInt8) : Marks := true :: text.map fun _ => false

/-- No mark in any of the places. -/
def cleared (marks : Marks) : Marks := marks.map fun _ => false

/-- The marks of both. -/
def both (left right : Marks) : Marks := List.zipWith (· || ·) left right

/-- Move marks over a byte that passes a test. -/
def step (text : List UInt8) (test : UInt8 → Bool) (marks : Marks) : Marks :=
  false :: List.zipWith (fun byte mark => mark && test byte) text marks

/-- Mark all places from the first mark on; `marked` says whether there was one already. -/
def onward (marked : Bool) : Marks → Marks
  | [] => []
  | mark :: rest => (marked || mark) :: onward (marked || mark) rest

/-- Whether the end of the text is marked. -/
def reachEnd (marks : Marks) : Bool := marks.getLast? = some true

end Marks

mutual

/-- The places where an expression can end that starts in a marked place. -/
def Expression.move (text : List UInt8) : Expression → Marks → Marks
  | .byte value, marks => Marks.step text (· = value) marks
  | .anyByte, marks => Marks.step text (fun _ => true) marks
  | .anyBytes, marks => Marks.onward false marks
  | .optional value, marks => Marks.both marks (Marks.step text (· = value) marks)
  | .oneOf negated members, marks =>
    Marks.step text (fun byte => members.any (·.holds byte) != negated) marks
  | .group branches, marks => moveByAny text branches marks

/-- The places where expressions one after the other can end. -/
def moveByAll (text : List UInt8) : List Expression → Marks → Marks
  | [], marks => marks
  | expression :: rest, marks => moveByAll text rest (expression.move text marks)

/-- The places where one of some sequences can end. -/
def moveByAny (text : List UInt8) : List (List Expression) → Marks → Marks
  | [], marks => Marks.cleared marks
  | branch :: rest, marks => Marks.both (moveByAll text branch marks) (moveByAny text rest marks)

end

/-- Whether a pattern covers some bytes. -/
def Pattern.covers (pattern : Pattern) (bytes : List UInt8) : Bool :=
  Marks.reachEnd (moveByAll bytes pattern.expressions (Marks.atStart bytes))

/-! ## Levels -/

/-- A level of its own for more than one thing side by side. -/
def levelOf (count : Nat) : Nat := if 1 < count then 1 else 0

mutual

/-- How many levels an expression has. -/
def Expression.levels : Expression → Nat
  | .byte _ => 0
  | .anyByte => 0
  | .anyBytes => 1
  | .optional _ => 1
  | .oneOf _ members => 1 + levelOf members.length
  | .group branches => 1 + levelOf branches.length + mostBranchLevels branches

/-- The most levels of some expressions. -/
def mostLevels : List Expression → Nat
  | [] => 0
  | expression :: rest => max expression.levels (mostLevels rest)

/-- The most levels of some sequences. -/
def mostBranchLevels : List (List Expression) → Nat
  | [] => 0
  | branch :: rest => max (levelOf branch.length + mostLevels branch) (mostBranchLevels rest)

end

/-- How many levels a pattern has; it is a sequence between the two ends of a text. -/
def Pattern.levels (pattern : Pattern) : Nat := 1 + mostLevels pattern.expressions

/-! ## Written form -/

/-- The characters that have to be escaped where they stand for themselves. -/
def isSpecial (character : Char) : Bool :=
  "\\.+*?()|[]\x7b\x7d^$#&-~".toList.contains character

/-- The written form of a byte. -/
def byteText (byte : UInt8) : String :=
  let code := byte.toNat
  if code < 0x80 then
    let character := Char.ofNat code
    if isSpecial character then String.ofList ['\\', character] else String.singleton character
  else String.ofList ['\\', 'x', Nat.digitChar (code / 16), Nat.digitChar (code % 16)]

def Member.text : Member → String
  | .byte value => byteText value
  | .range low high => byteText low ++ "-" ++ byteText high

mutual

def Expression.text : Expression → String
  | .byte value => byteText value
  | .anyByte => "."
  | .anyBytes => ".*"
  | .optional value => byteText value ++ "?"
  | .oneOf negated members =>
    "[" ++ (if negated then "^" else "") ++ "".intercalate (members.map Member.text) ++ "]"
  | .group branches => "(?:" ++ "|".intercalate (branchTexts branches) ++ ")"

def sequenceText : List Expression → String
  | [] => ""
  | expression :: rest => expression.text ++ sequenceText rest

def branchTexts : List (List Expression) → List String
  | [] => []
  | branch :: rest => sequenceText branch :: branchTexts rest

end

/-- The written form of a pattern over bytes, between the two ends of a text. -/
def Pattern.written (pattern : Pattern) : String :=
  "(?-u)^" ++ sequenceText pattern.expressions ++ "$"

end TypeReach.Glob
