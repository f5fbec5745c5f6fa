import TypeReach.Text.Shown

/-!
# Quoted texts in messages

A message names a text or a character between quotation marks, so that blank
ends and control characters stay visible.  The mark itself, the backslash and
four control characters have short escapes; every other character that would
not be shown is written by its number.
-/

namespace TypeReach.Text

/-- A number in hexadecimal digits, lower case, without leading zeros. -/
def hex (number : Nat) : String :=
  String.ofList (Nat.toDigits 16 number)

/-- The escape that gives a character by its number. -/
def numberEscape (character : Char) : String :=
  "\\u\x7b" ++ hex character.toNat ++ "\x7d"

/-- One character inside a text that is quoted by `mark`. -/
def escaped (mark character : Char) : String :=
  if character = '\x00' then "\\0"
  else if character = '\t' then "\\t"
  else if character = '\r' then "\\r"
  else if character = '\n' then "\\n"
  else if character = '\\' then "\\\\"
  else if character = mark then String.ofList ['\\', mark]
  else if isShown character then character.toString
  else numberEscape character

/-- A text between double quotation marks. -/
def quoted (text : String) : String :=
  "\"" ++ String.join (text.toList.map (escaped '"')) ++ "\""

/-- A character between single quotation marks. -/
def quotedChar (character : Char) : String :=
  "'" ++ escaped '\'' character ++ "'"

end TypeReach.Text
