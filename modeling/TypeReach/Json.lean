import TypeReach.Decimal.Shortest

/-!
# JSON texts

The tree of a JSON text and its two written forms: the compact one without
blanks and the indented one.  The fields of an object keep their order.
-/

namespace TypeReach

/-- A JSON value. -/
inductive Json where
  | null
  | bool (value : Bool)
  | integer (value : Int)
  /-- A number with a fraction or an exponent, by its text. -/
  | decimal (text : String)
  | text (value : String)
  | array (items : List Json)
  | object (fields : List (String × Json))

namespace Json

/-- The layout of numbers of double precision. -/
def doubleLayout : Decimal.Layout := ⟨-5, 16⟩

/-- The layout of numbers of single precision. -/
def singleLayout : Decimal.Layout := ⟨-6, 13⟩

/-- A number of double precision; JSON has no text for one that is not finite. -/
def ofDoubleBits (bits : UInt64) : Json :=
  match Decimal.text? .double doubleLayout bits.toNat with
  | some written => .decimal written
  | none => .null

/-- A number of single precision; JSON has no text for one that is not finite. -/
def ofSingleBits (bits : UInt32) : Json :=
  match Decimal.text? .single singleLayout bits.toNat with
  | some written => .decimal written
  | none => .null

/-- A list of texts. -/
def ofTexts (texts : List String) : Json :=
  .array (texts.map .text)

/-- A text or nothing. -/
def ofText? : Option String → Json
  | some value => .text value
  | none => .null

/-- One hexadecimal digit. -/
def hexDigit (value : Nat) : Char :=
  Nat.digitChar value

/-- A character inside a written text. -/
def escapedChar (character : Char) : List Char :=
  if character = '"' then ['\\', '"']
  else if character = '\\' then ['\\', '\\']
  else if character = '\n' then ['\\', 'n']
  else if character = '\r' then ['\\', 'r']
  else if character = '\t' then ['\\', 't']
  else if character.toNat = 8 then ['\\', 'b']
  else if character.toNat = 12 then ['\\', 'f']
  else if character.toNat < 32 then
    ['\\', 'u', '0', '0', hexDigit (character.toNat / 16), hexDigit (character.toNat % 16)]
  else [character]

/-- A text in quotes. -/
def quotedText (text : String) : String :=
  String.ofList ('"' :: text.toList.flatMap escapedChar ++ ['"'])

mutual

/-- The written form without blanks. -/
def compact : Json → String
  | null => "null"
  | bool true => "true"
  | bool false => "false"
  | integer value => toString value
  | decimal written => written
  | text value => quotedText value
  | array items => "[" ++ ",".intercalate (compactItems items) ++ "]"
  | object fields => "\x7b" ++ ",".intercalate (compactFields fields) ++ "\x7d"

def compactItems : List Json → List String
  | [] => []
  | item :: rest => item.compact :: compactItems rest

def compactField : String × Json → String
  | (key, value) => quotedText key ++ ":" ++ value.compact

def compactFields : List (String × Json) → List String
  | [] => []
  | field :: rest => compactField field :: compactFields rest

end

/-- The start of a line at a given depth. -/
def newline (depth : Nat) : String :=
  String.ofList ('\n' :: List.replicate (2 * depth) ' ')

/-- Members of a list or object on lines of their own, between two brackets. -/
def bracketed (opening closing : String) (depth : Nat) (members : List String) : String :=
  if members.isEmpty then opening ++ closing
  else
    opening ++ ",".intercalate (members.map (newline (depth + 1) ++ ·)) ++ newline depth ++ closing

mutual

/-- The indented form of a value that stands at a given depth. -/
def indented : Json → Nat → String
  | null, _ => "null"
  | bool true, _ => "true"
  | bool false, _ => "false"
  | integer value, _ => toString value
  | decimal written, _ => written
  | text value, _ => quotedText value
  | array items, depth => bracketed "[" "]" depth (indentedItems items (depth + 1))
  | object fields, depth =>
    bracketed "\x7b" "\x7d" depth (indentedFields fields (depth + 1))

def indentedItems : List Json → Nat → List String
  | [], _ => []
  | item :: rest, depth => item.indented depth :: indentedItems rest depth

def indentedField : String × Json → Nat → String
  | (key, value), depth => quotedText key ++ ": " ++ value.indented depth

def indentedFields : List (String × Json) → Nat → List String
  | [], _ => []
  | field :: rest, depth => indentedField field depth :: indentedFields rest depth

end

/-- The indented form: two blanks for each level, and one member to a line. -/
def pretty (value : Json) : String := value.indented 0

end Json

end TypeReach
