/-!
# Shortest decimals

A binary floating-point number stands for every real number that rounds to it.
It is written with the fewest decimal digits that name such a real number, and
among these with the digits nearest to the number itself.  All arithmetic here
is exact, on natural numbers.
-/

namespace TypeReach.Decimal

/-- A width of binary floating-point numbers. -/
structure BinaryWidth where
  fractionBits : Nat
  exponentBits : Nat

def BinaryWidth.single : BinaryWidth := ⟨23, 8⟩

def BinaryWidth.double : BinaryWidth := ⟨52, 11⟩

/-- A positive number `significand * 2 ^ exponent` of some width. -/
structure Binary where
  significand : Nat
  exponent : Int
  /-- The neighbour below is nearer than the neighbour above. -/
  narrowBelow : Bool
  deriving DecidableEq, Repr

/-- What the bits of a number say. -/
inductive Reading where
  | notFinite
  | zero (negative : Bool)
  | finite (negative : Bool) (value : Binary)
  deriving DecidableEq, Repr

/-- The reading of the bits of a number. -/
def BinaryWidth.read (width : BinaryWidth) (bits : Nat) : Reading :=
  let hidden := Nat.pow 2 width.fractionBits
  let fraction := bits % hidden
  let field := bits / hidden % Nat.pow 2 width.exponentBits
  let negative := bits / hidden / Nat.pow 2 width.exponentBits % 2 = 1
  let least : Int := 2 - Nat.pow 2 (width.exponentBits - 1) - width.fractionBits
  if field = Nat.pow 2 width.exponentBits - 1 then .notFinite
  else if field = 0 then
    if fraction = 0 then .zero negative
    else .finite negative ⟨fraction, least, false⟩
  else
    .finite negative
      ⟨hidden + fraction, least + (field - 1 : Nat), fraction = 0 && 1 < field⟩

/-- A decimal `digits * 10 ^ exponent`. -/
structure Digits where
  digits : Nat
  exponent : Int
  deriving DecidableEq, Repr

/--
A number seen on the grid of the multiples of `10 ^ exponent`: with `unit` a
quarter of the distance to the neighbour above, the number is
`4 * significand * unit / grid` steps of the grid.
-/
structure GridView where
  unit : Nat
  grid : Nat

def Binary.onGrid (value : Binary) (exponent : Int) : GridView where
  unit := Nat.pow 2 value.exponent.toNat * Nat.pow 10 (-exponent).toNat
  grid := 4 * Nat.pow 2 (-value.exponent).toNat * Nat.pow 10 exponent.toNat

/-- The number of whole steps of the grid below a number. -/
def Binary.stepsBelow (value : Binary) (view : GridView) : Nat :=
  4 * value.significand * view.unit / view.grid

/--
Whether a point of the grid rounds to the number.  A point half-way to a
neighbour does when the significand is even.
-/
def Binary.isNamedBy (value : Binary) (view : GridView) (steps : Nat) : Bool :=
  let low := (4 * value.significand - (if value.narrowBelow then 1 else 2)) * view.unit
  let high := (4 * value.significand + 2) * view.unit
  let point := steps * view.grid
  if value.significand % 2 = 0 then low ≤ point && point ≤ high
  else low < point && point < high

/-- The nearer of the points around a number that round to it; an even one on a tie. -/
def Binary.nearestNamed? (value : Binary) (view : GridView) : Option Nat :=
  let below := value.stepsBelow view
  let above := below + 1
  let twice := 8 * value.significand * view.unit
  let middle := (below + above) * view.grid
  match value.isNamedBy view below, value.isNamedBy view above with
  | false, false => none
  | true, false => some below
  | false, true => some above
  | true, true =>
    if twice < middle then some below
    else if middle < twice then some above
    else if below % 2 = 0 then some below
    else some above

/-- The power of ten of the leading digit of a number. -/
def Binary.magnitude (value : Binary) : Int :=
  let places : Int := 400
  ((Nat.toDigits 10 (value.stepsBelow (value.onGrid (-places)))).length : Int) - 1 - places

/-- Drop final zeros of a decimal, at most `fuel` of them. -/
def Digits.trimmed : Nat → Digits → Digits
  | 0, decimal => decimal
  | fuel + 1, decimal =>
    if decimal.digits ≠ 0 && decimal.digits % 10 = 0 then
      Digits.trimmed fuel ⟨decimal.digits / 10, decimal.exponent + 1⟩
    else decimal

/-- Try grids of more and more digits. -/
def Binary.shortestFrom (value : Binary) (magnitude : Int) : Nat → Nat → Digits
  | 0, _ => ⟨value.significand, value.exponent⟩
  | tries + 1, count =>
    let exponent := magnitude - count + 1
    match value.nearestNamed? (value.onGrid exponent) with
    | some digits => Digits.trimmed 20 ⟨digits, exponent⟩
    | none => value.shortestFrom magnitude tries (count + 1)

/-- The shortest decimal of a number.  Seventeen digits name every number of a known width. -/
def Binary.shortest (value : Binary) : Digits :=
  value.shortestFrom value.magnitude 17 1

/--
How decimals are laid out: between which positions of the point they are
written without an exponent.  The position counts the digits before the point.
-/
structure Layout where
  above : Int
  upTo : Int

/-- An exponent, always with a sign. -/
def exponentText (exponent : Int) : String :=
  if exponent < 0 then toString exponent else "+" ++ toString exponent

/-- The text of a decimal in a layout; a whole number keeps one place. -/
def Layout.render (layout : Layout) (decimal : Digits) : String :=
  let digits := Nat.toDigits 10 decimal.digits
  let point : Int := digits.length + decimal.exponent
  let text :=
    if 0 ≤ decimal.exponent && point ≤ layout.upTo then
      digits ++ List.replicate decimal.exponent.toNat '0' ++ ['.', '0']
    else if 0 < point && point ≤ layout.upTo then
      digits.take point.toNat ++ '.' :: digits.drop point.toNat
    else if layout.above < point && point ≤ 0 then
      '0' :: '.' :: List.replicate (-point).toNat '0' ++ digits
    else
      let whole := digits.take 1
      let places := digits.drop 1
      let exponent := (exponentText (point - 1)).toList
      if places.isEmpty then whole ++ 'e' :: exponent
      else whole ++ '.' :: places ++ 'e' :: exponent
  String.ofList text

/-- The text of the number with given bits; `none` when it is not finite. -/
def text? (width : BinaryWidth) (layout : Layout) (bits : Nat) : Option String :=
  let signed (negative : Bool) (text : String) := if negative then "-" ++ text else text
  match width.read bits with
  | .notFinite => none
  | .zero negative => some (signed negative "0.0")
  | .finite negative value => some (signed negative (layout.render value.shortest))

end TypeReach.Decimal
