import TypeReach.Yaml.Character

/-!
# Scalars of YAML texts

A scalar may go over several lines.  Blanks around a line end are dropped, one
line end between words counts as a blank and further ones stay.
-/

namespace TypeReach.Yaml

/-- Blanks and line ends between the words of a scalar. -/
structure Gap where
  /-- The blanks before the first line end, the last one first. -/
  blanks : List Char
  isBroken : Bool
  /-- The first line end; none if it was escaped. -/
  firstBreak : Option Char
  /-- The further line ends, the last one first. -/
  moreBreaks : List Char

namespace Gap

def none : Gap := ⟨[], false, Option.none, []⟩

/-- A line end that is escaped. -/
def escaped : Gap := ⟨[], true, Option.none, []⟩

def isNone (gap : Gap) : Bool := gap.blanks.isEmpty && ! gap.isBroken

/-- Add a blank; those after a line end are dropped. -/
def addSpace (gap : Gap) (character : Char) : Gap :=
  if gap.isBroken then gap else { gap with blanks := character :: gap.blanks }

/-- Add a line end; blanks before it are dropped. -/
def addBreak (gap : Gap) (character : Char) : Gap :=
  if gap.isBroken then { gap with moreBreaks := character :: gap.moreBreaks }
  else ⟨[], true, some character, []⟩

/-- What the gap counts as, the last character first. -/
def folded (gap : Gap) : List Char :=
  if ! gap.isBroken then gap.blanks
  else
    match gap.firstBreak with
    | some '\n' => if gap.moreBreaks.isEmpty then [' '] else gap.moreBreaks
    | some separator => gap.moreBreaks ++ [separator]
    | Option.none => gap.moreBreaks

end Gap

/-- A scalar that was read: its text, and the place and the characters after it. -/
structure ScalarEnd where
  text : String
  place : Place
  rest : List Char
  /-- Whether the scalar was followed by a line end. -/
  endsLine : Bool

/-! ## Scalars without quotes -/

/-- Whether a character is special between the brackets of a flow collection. -/
def isFlowMark (character : Char) : Bool :=
  character = ',' || character = '[' || character = ']' || character = '\x7b' || character = '\x7d'

/-- Whether a word that starts here is no part of a scalar over several lines. -/
def endsBeforeWord (inFlow : Bool) (least : Nat) (place : Place) (gap : Gap)
    (word : List Char) : Bool :=
  (gap.isBroken && ! inFlow && place.column < least) ||
    (place.column = 0 && isDocumentLine word) || word.head? = some '#'

/-- Whether a character ends a scalar, by itself and the one after it. -/
def endsScalar (inFlow : Bool) (character : Char) (rest : List Char) : Bool :=
  (character = ':' && startsBlank rest) || (inFlow && isFlowMark character)

/-- Whether a colon stands where it can be neither text nor a separator. -/
def isStrayColon (inFlow : Bool) (character : Char) (rest : List Char) : Bool :=
  inFlow && character = ':' && rest.head?.any fun next => isFlowMark next || next = '?'

/--
Read a scalar without quotes.  `least` is the column that further lines have to
reach; `read` is what was read already, the last character first.
-/
def readPlain (inFlow : Bool) (least : Nat) (read : List Char) (gap : Gap) (place : Place) :
    List Char → Option ScalarEnd
  | [] => some ⟨String.ofList read.reverse, place, [], gap.isBroken⟩
  | character :: rest =>
    if isSpace character then
      if gap.isBroken && place.column < least && character = '\t' then none
      else readPlain inFlow least read (gap.addSpace character) (place.after character) rest
    else if isBreak character then
      readPlain inFlow least read (gap.addBreak character) (place.after character) rest
    else if (! gap.isNone && endsBeforeWord inFlow least place gap (character :: rest)) then
      some ⟨String.ofList read.reverse, place, character :: rest, gap.isBroken⟩
    else if isStrayColon inFlow character rest then none
    else if endsScalar inFlow character rest then
      some ⟨String.ofList read.reverse, place, character :: rest, gap.isBroken⟩
    else
      readPlain inFlow least (character :: (gap.folded ++ read)) .none (place.after character) rest

/-! ## Scalars in quotes -/

/-- Read a scalar after its opening single quote. -/
def readSingle (read : List Char) (gap : Gap) (place : Place) : List Char → Option ScalarEnd
  | [] => none
  | '\'' :: '\'' :: rest =>
    readSingle ('\'' :: (gap.folded ++ read)) .none (place.forward 2) rest
  | '\'' :: rest =>
    some ⟨String.ofList (gap.folded ++ read).reverse, place.forward 1, rest, false⟩
  | character :: rest =>
    if isSpace character then readSingle read (gap.addSpace character) (place.after character) rest
    else if isBreak character then
      readSingle read (gap.addBreak character) (place.after character) rest
    else if place.column = 0 && isDocumentLine (character :: rest) then none
    else readSingle (character :: (gap.folded ++ read)) .none (place.after character) rest

/-- The character that a letter after a backslash stands for. -/
def escapedChar? (letter : Char) : Option Char :=
  match letter with
  | '0' => some '\x00'
  | 'a' => some '\x07'
  | 'b' => some '\x08'
  | 't' => some '\t'
  | '\t' => some '\t'
  | 'n' => some '\n'
  | 'v' => some '\x0b'
  | 'f' => some '\x0c'
  | 'r' => some '\r'
  | 'e' => some '\x1b'
  | ' ' => some ' '
  | '"' => some '"'
  | '/' => some '/'
  | '\\' => some '\\'
  | 'N' => some (Char.ofNat 0x85)
  | '_' => some (Char.ofNat 0xA0)
  | 'L' => some (Char.ofNat 0x2028)
  | 'P' => some (Char.ofNat 0x2029)
  | _ => none

/-- The value of a hexadecimal digit. -/
def hexValue? (digit : Char) : Option Nat :=
  if '0' ≤ digit && digit ≤ '9' then some (digit.toNat - '0'.toNat)
  else if 'a' ≤ digit && digit ≤ 'f' then some (digit.toNat - 'a'.toNat + 10)
  else if 'A' ≤ digit && digit ≤ 'F' then some (digit.toNat - 'A'.toNat + 10)
  else none

/-- The character with a code of hexadecimal digits. -/
def codedChar? (digits : List Char) : Option Char := do
  let code ← digits.foldlM (fun code digit => (hexValue? digit).map (code * 16 + ·)) 0
  if code.isValidChar then some (Char.ofNat code) else none

/-- How many digits follow a letter after a backslash that announces a code. -/
def codeLength? (letter : Char) : Option Nat :=
  match letter with
  | 'x' => some 2
  | 'u' => some 4
  | 'U' => some 8
  | _ => none

/--
Read a scalar after its opening double quote.  `pending` digits of a code are
still to come after those in `digits`, the last one first.
-/
def readDouble (read : List Char) (gap : Gap) (place : Place) (pending : Nat)
    (digits : List Char) : List Char → Option ScalarEnd
  | [] => none
  | character :: rest =>
    match pending with
    | 1 =>
      match codedChar? (character :: digits).reverse with
      | some coded => readDouble (coded :: read) gap (place.after character) 0 [] rest
      | none => none
    | more + 2 => readDouble read gap (place.after character) (more + 1) (character :: digits) rest
    | 0 =>
      if character = '"' then
        some ⟨String.ofList (gap.folded ++ read).reverse, place.forward 1, rest, false⟩
      else if isSpace character then
        readDouble read (gap.addSpace character) (place.after character) 0 [] rest
      else if isBreak character then
        readDouble read (gap.addBreak character) (place.after character) 0 [] rest
      else if place.column = 0 && isDocumentLine (character :: rest) then none
      else if character = '\\' then
        match rest with
        | [] => none
        | letter :: more =>
          if isBreak letter then
            readDouble (gap.folded ++ read) .escaped ((place.after character).after letter) 0 [] more
          else
            match codeLength? letter with
            | some length =>
              readDouble (gap.folded ++ read) .none (place.forward 2) length [] more
            | none =>
              match escapedChar? letter with
              | some meant =>
                readDouble (meant :: (gap.folded ++ read)) .none (place.forward 2) 0 [] more
              | none => none
      else
        readDouble (character :: (gap.folded ++ read)) .none (place.after character) 0 [] rest

end TypeReach.Yaml
