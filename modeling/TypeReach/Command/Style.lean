/-!
# Styled text

Text for a terminal may be styled: codes before it switch a style on, and a
reset after it switches all styles off.  Without colours the text is left as it
is.
-/

namespace TypeReach.Command

/-- The styles in use. -/
inductive Style where
  | bold
  | dimmed
  | red
  | green
  | blue
  | cyanBold
  deriving DecidableEq, Repr

/-- The codes that switch a style on. -/
def Style.codes : Style → String
  | bold => "1"
  | dimmed => "2"
  | red => "31"
  | green => "32"
  | blue => "34"
  | cyanBold => "1;36"

/-- Whether text is styled. -/
structure Palette where
  hasColors : Bool

namespace Palette

/-- What switches all styles off. -/
def reset : List Char := '\x1b' :: "[0m".toList

/-- Switch a style on again after each reset inside of a text. -/
def restyled (opening : List Char) : List Char → List Char
  | '\x1b' :: '[' :: '0' :: 'm' :: rest => reset ++ opening ++ restyled opening rest
  | character :: rest => character :: restyled opening rest
  | [] => []

/-- A text in a style. -/
def paint (palette : Palette) (style : Style) (text : String) : String :=
  if palette.hasColors then
    let opening := '\x1b' :: '[' :: style.codes.toList ++ ['m']
    String.ofList (opening ++ restyled opening text.toList ++ reset)
  else text

end Palette

/-- A line of text. -/
def line (parts : List String) : String :=
  String.join parts ++ "\n"

end TypeReach.Command
