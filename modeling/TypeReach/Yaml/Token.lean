import TypeReach.Yaml.Scalar

/-!
# Tokens of YAML texts

A text is cut into scalars and marks.  Indentation is turned into marks as
well, so that what is nested can be read off the tokens alone.  Whether a scalar
is a key shows only at the colon after it, and the mark of a key is then put in
front of what was read since.

Comments, block and flow collections, and scalars with or without quotes are
known.  Anchors, tags, directives and block scalars are not, and a text with one
of them is refused.
-/

namespace TypeReach.Yaml

/-- A scalar or mark. -/
inductive Token where
  | documentStart
  | documentEnd
  | blockListStart
  | blockRecordStart
  | blockEnd
  | flowListStart
  | flowListEnd
  | flowRecordStart
  | flowRecordEnd
  | blockEntry
  | flowEntry
  | key
  | value
  | scalar (text : String) (isPlain : Bool)
  deriving DecidableEq, Repr

/-- Something that becomes a key if a colon follows. -/
structure KeyCandidate where
  /-- Nothing else is possible in its place. -/
  isRequired : Bool
  /-- How many tokens stand before it. -/
  position : Nat
  place : Place

/-- How far a text was read. -/
structure Lexing where
  rest : List Char
  place : Place
  /-- The columns of the open block collections, the innermost first. -/
  indents : List Nat
  /-- Whether a key may start here. -/
  keyAllowed : Bool
  candidate : Option KeyCandidate
  /-- The candidates outside of the open flow collections, the innermost first. -/
  outer : List (Option KeyCandidate)
  /-- The tokens, the last one first. -/
  tokens : List Token

namespace Lexing

def start (text : List Char) : Lexing :=
  ⟨text, ⟨0, 0, 0⟩, [], true, none, [], []⟩

def inFlow (state : Lexing) : Bool := ! state.outer.isEmpty

/-- The least column of what belongs to the innermost block collection. -/
def leastColumn (state : Lexing) : Nat :=
  match state.indents with
  | [] => 0
  | indent :: _ => indent + 1

/-- Go over some characters of one byte in the same line. -/
def skip (state : Lexing) (count : Nat) : Lexing :=
  { state with rest := state.rest.drop count, place := state.place.forward count }

def push (state : Lexing) (token : Token) : Lexing :=
  { state with tokens := token :: state.tokens }

/-- Put tokens in front of everything after a position. -/
def insert (state : Lexing) (position : Nat) (inserted : List Token) : Lexing :=
  let later := state.tokens.length - position
  { state with
    tokens := state.tokens.take later ++ inserted.reverse ++ state.tokens.drop later }

/-! ## Blanks and comments -/

/--
Go over blanks, comments and line ends.  A line may start with a byte order mark,
which takes a column.
-/
def skipBlank (inFlow inComment keyAllowed : Bool) (place : Place) :
    List Char → List Char × Place × Bool
  | [] => ([], place, keyAllowed)
  | character :: rest =>
    if isBreak character then
      skipBlank inFlow false (keyAllowed || ! inFlow) (place.after character) rest
    else if inComment then skipBlank inFlow true keyAllowed (place.after character) rest
    else if character = ' ' || (character = '\t' && (inFlow || ! keyAllowed)) ||
        (place.column = 0 && isByteOrderMark character) then
      skipBlank inFlow false keyAllowed (place.after character) rest
    else if character = '#' then
      skipBlank inFlow true keyAllowed (place.after character) rest
    else (character :: rest, place, keyAllowed)

def toNext (state : Lexing) : Lexing :=
  let (rest, place, keyAllowed) :=
    skipBlank state.inFlow false state.keyAllowed state.place state.rest
  { state with rest := rest, place := place, keyAllowed := keyAllowed }

/-! ## Keys -/

/-- Whether a candidate can no longer become a key: one has a single line and 1024 bytes. -/
def isStale (place : Place) (candidate : KeyCandidate) : Bool :=
  candidate.place.line < place.line || candidate.place.offset + 1024 < place.offset

/-- Drop a candidate that is stale; none if a key was required. -/
def refreshed? (place : Place) : Option KeyCandidate → Option (Option KeyCandidate)
  | none => some none
  | some candidate =>
    if isStale place candidate then if candidate.isRequired then none else some none
    else some (some candidate)

/-- Drop all candidates that are stale. -/
def dropStale (state : Lexing) : Option Lexing := do
  let candidate ← refreshed? state.place state.candidate
  let outer ← state.outer.mapM (refreshed? state.place)
  return { state with candidate := candidate, outer := outer }

/-- Give the current candidate up. -/
def dropCandidate (state : Lexing) : Option Lexing :=
  match state.candidate with
  | some candidate =>
    if candidate.isRequired then none else some { state with candidate := none }
  | none => some state

/-- Remember that a key may start here. -/
def saveCandidate (state : Lexing) : Option Lexing :=
  if state.keyAllowed then do
    let cleared ← state.dropCandidate
    let isRequired := ! state.inFlow && state.indents.head? = some state.place.column
    return { cleared with
      candidate := some ⟨isRequired, state.tokens.length, state.place⟩ }
  else some state

/-! ## Indentation -/

/-- Close the block collections that are indented more than a column. -/
def closeDeeper (column : Nat) : List Nat → List Token → List Nat × List Token
  | [], tokens => ([], tokens)
  | indent :: rest, tokens =>
    if column < indent then closeDeeper column rest (.blockEnd :: tokens)
    else (indent :: rest, tokens)

/-- Close block collections up to the current column. -/
def unindent (state : Lexing) : Lexing :=
  if state.inFlow then state
  else
    let (indents, tokens) := closeDeeper state.place.column state.indents state.tokens
    { state with indents := indents, tokens := tokens }

/-- Close all block collections. -/
def unindentAll (state : Lexing) : Lexing :=
  if state.inFlow then state
  else
    { state with
      indents := []
      tokens := List.replicate state.indents.length .blockEnd ++ state.tokens }

/-- Open a block collection in a column, if it is indented more than the innermost one. -/
def indent (state : Lexing) (column position : Nat) (opening : Token) : Lexing :=
  if state.inFlow then state
  else if state.indents.head?.all (· < column) then
    { state.insert position [opening] with indents := column :: state.indents }
  else state

/-! ## Marks -/

/-- A line that starts or ends a document. -/
def documentLine (state : Lexing) (token : Token) : Option Lexing := do
  let cleared ← state.unindentAll.dropCandidate
  return { (cleared.skip 3).push token with keyAllowed := false }

def openFlow (state : Lexing) (token : Token) : Option Lexing := do
  let saved ← state.saveCandidate
  return { (saved.skip 1).push token with
    outer := saved.candidate :: saved.outer, candidate := none, keyAllowed := true }

def closeFlow (state : Lexing) (token : Token) : Option Lexing := do
  let cleared ← state.dropCandidate
  let closed := { (cleared.skip 1).push token with keyAllowed := false }
  match cleared.outer with
  | [] => return closed
  | candidate :: outer => return { closed with candidate := candidate, outer := outer }

def flowEntry (state : Lexing) : Option Lexing := do
  let cleared ← state.dropCandidate
  return { (cleared.skip 1).push .flowEntry with keyAllowed := true }

def blockEntry (state : Lexing) : Option Lexing := do
  if ! state.inFlow && ! state.keyAllowed then none
  let opened := state.indent state.place.column state.tokens.length .blockListStart
  let cleared ← opened.dropCandidate
  return { (cleared.skip 1).push .blockEntry with keyAllowed := true }

def explicitKey (state : Lexing) : Option Lexing := do
  if ! state.inFlow && ! state.keyAllowed then none
  let opened := state.indent state.place.column state.tokens.length .blockRecordStart
  let cleared ← opened.dropCandidate
  return { (cleared.skip 1).push .key with keyAllowed := ! state.inFlow }

def valueMark (state : Lexing) : Option Lexing :=
  match state.candidate with
  | some candidate =>
    let keyed := (state.insert candidate.position [.key]).indent
      candidate.place.column candidate.position .blockRecordStart
    some { (keyed.skip 1).push .value with candidate := none, keyAllowed := false }
  | none => do
    if ! state.inFlow && ! state.keyAllowed then none
    let opened := state.indent state.place.column state.tokens.length .blockRecordStart
    return { (opened.skip 1).push .value with keyAllowed := ! state.inFlow }

/-- A scalar that may be a key. -/
def scalarWith (state : Lexing) (isPlain : Bool) (read : Lexing → Option ScalarEnd) :
    Option Lexing := do
  let saved ← state.saveCandidate
  let scalar ← read saved
  return { saved.push (.scalar scalar.text isPlain) with
    rest := scalar.rest, place := scalar.place, keyAllowed := scalar.endsLine }

def plainScalar (state : Lexing) : Option Lexing :=
  state.scalarWith true fun saved =>
    readPlain saved.inFlow saved.leastColumn [] .none saved.place saved.rest

def singleScalar (state : Lexing) : Option Lexing :=
  state.scalarWith false fun saved =>
    readSingle [] .none (saved.place.forward 1) (saved.rest.drop 1)

def doubleScalar (state : Lexing) : Option Lexing :=
  state.scalarWith false fun saved =>
    readDouble [] .none (saved.place.forward 1) 0 [] (saved.rest.drop 1)

/-- Whether a character cannot start a scalar without quotes, whatever follows it. -/
def isIndicator (character : Char) : Bool :=
  ",[]\x7b\x7d#&*!|>'\"%@`".toList.contains character

/-- Whether a scalar without quotes starts here. -/
def startsPlain (inFlow : Bool) (character : Char) (rest : List Char) : Bool :=
  if character = '-' then ! (rest.head?.any isSpace)
  else if character = '?' || character = ':' then ! inFlow && ! startsBlank rest
  else ! (isSpace character || isIndicator character)

/-- The token that starts with a character. -/
def token (state : Lexing) (character : Char) (rest : List Char) : Option Lexing :=
  if state.place.column = 0 && character = '%' then none
  else if state.place.column = 0 && startsWithMarker '-' (character :: rest) then
    state.documentLine .documentStart
  else if state.place.column = 0 && startsWithMarker '.' (character :: rest) then
    state.documentLine .documentEnd
  else if character = '[' then state.openFlow .flowListStart
  else if character = '\x7b' then state.openFlow .flowRecordStart
  else if character = ']' then state.closeFlow .flowListEnd
  else if character = '\x7d' then state.closeFlow .flowRecordEnd
  else if character = ',' then state.flowEntry
  else if character = '-' && startsBlank rest then state.blockEntry
  else if character = '?' && (state.inFlow || startsBlank rest) then state.explicitKey
  else if character = ':' && (state.inFlow || startsBlank rest) then state.valueMark
  else if character = '\'' then state.singleScalar
  else if character = '"' then state.doubleScalar
  else if startsPlain state.inFlow character rest then state.plainScalar
  else none

/-- Read at most a given number of tokens.  Every token takes a character at least. -/
def run : Nat → Lexing → Option (List Token)
  | 0, _ => none
  | fuel + 1, state => do
    let ready ← state.toNext.dropStale
    let ready := ready.unindent
    match ready.rest with
    | [] =>
      let finished ← ready.unindentAll.dropCandidate
      return finished.tokens.reverse
    | character :: rest =>
      let next ← ready.token character rest
      run fuel next

end Lexing

/-- The tokens of a text. -/
def tokens? (text : List Char) : Option (List Token) := do
  let prepared ← prepared? text
  (Lexing.start prepared).run (prepared.length + 1)

end TypeReach.Yaml
