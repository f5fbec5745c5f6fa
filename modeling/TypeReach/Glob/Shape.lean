import TypeReach.Glob.Expression
import TypeReach.Text.Split
import TypeReach.Text.Utf8

/-!
# Shapes of patterns

Patterns of simple shapes are decided without an expression: by the whole text,
its beginning or its end, or by the file name that the text ends in.  The shape
shows where a text ends in `..`, which is not the name of a file: a pattern that
goes by the file name or its extension does not match it.  It also shows where a
pattern has too many levels: only the other patterns are decided together by
their expressions, and are counted for the message.
-/

namespace TypeReach.Glob

/-- What a pattern is decided by. -/
inductive Shape where
  /-- The file name alone. -/
  | fileName
  /-- The whole text. -/
  | whole
  /-- The extension alone. -/
  | extension
  | beginning
  | ending
  /-- The extension first, and then the expression. -/
  | requiredExtension
  /-- The last segment, by an expression of its own. -/
  | lastSegment
  /-- The expression, together with those of other patterns. -/
  | expression
  deriving DecidableEq, Repr

/-! ## Telling shapes apart -/

/-- Whether a part is a literal. -/
def Token.isLiteral : Token → Bool
  | .literal _ => true
  | _ => false

/-- Whether a part is a given literal. -/
def Token.isCharacter (character : Char) : Token → Bool
  | .literal other => other = character
  | _ => false

/-- Whether a part is a literal inside of a file name. -/
def Token.isNameLiteral (token : Token) : Bool :=
  token.isLiteral && ! token.isCharacter '/'

/-- Whether a part is a literal inside of an extension. -/
def Token.isExtensionLiteral (token : Token) : Bool :=
  token.isNameLiteral && ! token.isCharacter '.'

/-- The parts without whole segments in front. -/
def withoutLeadingPath : List Token → List Token
  | .leadingPath :: rest => rest
  | tokens => tokens

/-- Any directory and one file name. -/
def isFileName : List Token → Bool
  | .leadingPath :: rest => ! rest.isEmpty && rest.all Token.isNameLiteral
  | _ => false

/-- A text without anything special. -/
def isWhole (tokens : List Token) : Bool :=
  ! tokens.isEmpty && tokens.all Token.isLiteral

/-- Anything and one extension. -/
def isExtension (tokens : List Token) : Bool :=
  match withoutLeadingPath tokens with
  | .run :: .literal '.' :: rest => rest.all Token.isExtensionLiteral
  | _ => false

/-- A text and anything after it. -/
def isBeginning (tokens : List Token) : Bool :=
  match tokens.reverse with
  | .run :: text => isWhole text
  | .trailingPath :: text => text.all Token.isLiteral
  | _ => false

/-- A text of more than a slash and anything before it. -/
def isEnding (tokens : List Token) : Bool :=
  match withoutLeadingPath tokens with
  | .run :: [token] => token.isNameLiteral
  | .run :: text => isWhole text
  | text => isWhole text

/-- Something that ends in an extension. -/
def endsInExtension (tokens : List Token) : Bool :=
  (tokens.reverse.dropWhile Token.isExtensionLiteral).head?.any (·.isCharacter '.')

/-- Whether a part stands for something other than a slash in any case. -/
def Token.isSegmentPart : Token → Bool
  | .literal character => character ≠ '/'
  | .oneOf negated ranges => ranges.any (fun range => range.1 ≤ '/' && '/' ≤ range.2) == negated
  | _ => false

/-- Any directory and a segment of literals and classes. -/
def isLastSegment : List Token → Bool
  | .leadingPath :: rest => ! rest.isEmpty && rest.all Token.isSegmentPart
  | _ => false

/-- The shape of a pattern. -/
def Pattern.shape (pattern : Pattern) : Shape :=
  if isFileName pattern.tokens then .fileName
  else if isWhole pattern.tokens then .whole
  else if isExtension pattern.tokens then .extension
  else if isBeginning pattern.tokens then .beginning
  else if isEnding pattern.tokens then .ending
  else if endsInExtension pattern.tokens then .requiredExtension
  else if isLastSegment pattern.tokens then .lastSegment
  else .expression

/-! ## Matching -/

/-- Whether a pattern of a shape looks at the file name that a text ends in. -/
def Shape.needsFileName : Shape → Bool
  | fileName => true
  | extension => true
  | requiredExtension => true
  | whole => false
  | beginning => false
  | ending => false
  | lastSegment => false
  | expression => false

/-- Whether a text ends in the name of a file and does not lead upwards. -/
def hasFileName (text : String) : Bool :=
  (text.toList.splitOn '/').getLast? ≠ some ['.', '.']

/-- Whether a pattern matches a text. -/
def Pattern.isMatch (pattern : Pattern) (text : String) : Bool :=
  (! pattern.shape.needsFileName || hasFileName text) &&
    pattern.covers (Text.Utf8.encode text.toList)

/-! ## Patterns together -/

/-- Why patterns cannot be used together. -/
inductive SetFault where
  /-- A pattern has too many levels, by its place among those decided by expressions. -/
  | tooDeepAt (position : Nat)
  /-- A pattern that ends in an extension has too many levels. -/
  | tooDeep (written : String)
  deriving DecidableEq, Repr

/-- The message for a fault. -/
def SetFault.message : SetFault → String
  | tooDeepAt position => "error parsing pattern " ++ toString position
  | tooDeep written => "error parsing glob '" ++ written ++ "': error parsing pattern 0"

/-- Whether a pattern has more levels than an expression may have. -/
def Pattern.isTooDeep (pattern : Pattern) : Bool := 250 < pattern.levels

/-- The fault of some patterns.  Those that end in an extension come first. -/
def setFault? (patterns : List Pattern) : Option SetFault :=
  match patterns.find? fun pattern => pattern.shape = .requiredExtension && pattern.isTooDeep with
  | some pattern => some (.tooDeep pattern.written)
  | none =>
    ((patterns.filter (·.shape = .expression)).findIdx? Pattern.isTooDeep).map .tooDeepAt

end TypeReach.Glob
