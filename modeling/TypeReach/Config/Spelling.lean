/-!
# Spellings of plain scalars

What a scalar without quotes would be taken for where its spelling decides:
nothing, a truth value, a number or a text.
-/

namespace TypeReach.Spelling

/-- What a spelling stands for. -/
inductive Kind where
  | null
  | bool (value : Bool)
  | number
  /-- An integer of more than 64 and at most 128 bits. -/
  | wideInteger
  | text
  deriving DecidableEq, Repr

/-- The truth value of a spelling. -/
def bool? (spelling : String) : Option Bool :=
  match spelling with
  | "true" => some true
  | "True" => some true
  | "TRUE" => some true
  | "false" => some false
  | "False" => some false
  | "FALSE" => some false
  | _ => none

def isNull (spelling : String) : Bool :=
  ["", "~", "null", "Null", "NULL"].contains spelling

/-! ## Integers -/

/-- The value of a digit in a base up to sixteen. -/
def digitValue? (base : Nat) (digit : Char) : Option Nat :=
  let value? :=
    if digit.isDigit then some (digit.toNat - '0'.toNat)
    else if 'a' ≤ digit && digit ≤ 'f' then some (digit.toNat - 'a'.toNat + 10)
    else if 'A' ≤ digit && digit ≤ 'F' then some (digit.toNat - 'A'.toNat + 10)
    else none
  value?.filter (· < base)

/-- The number that digits in a base write. -/
def digits? (base : Nat) (digits : List Char) : Option Nat :=
  if digits.isEmpty then none
  else digits.foldlM (fun number digit => (digitValue? base digit).map (number * base + ·)) 0

/-- The sign in front, and the rest. -/
def splitSign : List Char → Bool × List Char
  | '-' :: rest => (true, rest)
  | '+' :: rest => (false, rest)
  | rest => (false, rest)

/-- Whether digits are written with a zero in front, as no number is. -/
def isZeroPadded (unsigned : List Char) : Bool :=
  match unsigned with
  | '0' :: rest => ! rest.isEmpty && rest.all Char.isDigit
  | _ => false

/-- The integer that a spelling writes: its sign and its size. -/
def integer? (spelling : List Char) : Option (Bool × Nat) :=
  let (negative, unsigned) := splitSign spelling
  let size? := match unsigned with
    | '0' :: 'x' :: digits => digits? 16 digits
    | '0' :: 'o' :: digits => digits? 8 digits
    | '0' :: 'b' :: digits => digits? 2 digits
    | _ => if isZeroPadded unsigned then none else digits? 10 unsigned
  size?.map (negative, ·)

/-- Whether an integer fits a given number of bits. -/
def fits (bits : Nat) (negative : Bool) (size : Nat) : Bool :=
  if negative then size ≤ Nat.pow 2 (bits - 1) else size < Nat.pow 2 bits

/-! ## Decimals -/

/-- Digits, an optional fraction and an optional exponent. -/
structure DecimalParts where
  whole : List Char
  fraction : List Char
  exponent : Int

/-- The exponent after its letter. -/
def exponent? (text : List Char) : Option Int :=
  let (negative, digits) := splitSign text
  (digits? 10 digits).map fun size => if negative then -(size : Int) else size

/-- The parts of a decimal without a sign. -/
def decimalParts? (text : List Char) : Option DecimalParts :=
  let whole := text.takeWhile Char.isDigit
  let afterWhole := text.dropWhile Char.isDigit
  let (fraction, rest) : List Char × List Char :=
    match afterWhole with
    | '.' :: more => (more.takeWhile Char.isDigit, more.dropWhile Char.isDigit)
    | _ => ([], afterWhole)
  if whole.isEmpty && fraction.isEmpty then none
  else
    match rest with
    | [] => some ⟨whole, fraction, 0⟩
    | 'e' :: more => (exponent? more).map (⟨whole, fraction, ·⟩)
    | 'E' :: more => (exponent? more).map (⟨whole, fraction, ·⟩)
    | _ => none

/--
Whether a decimal is below the bound from which on numbers round to infinity in
double precision.
-/
def DecimalParts.isFinite (parts : DecimalParts) : Bool :=
  let digits := (parts.whole ++ parts.fraction).dropWhile (· = '0')
  let exponent := parts.exponent - parts.fraction.length
  if digits.isEmpty then true
  else if 400 < digits.length + exponent then false
  else if digits.length + exponent < -400 then true
  else
    match digits? 10 digits with
    | none => false
    | some size =>
      size * Nat.pow 10 exponent.toNat <
        (Nat.pow 2 1024 - Nat.pow 2 970) * Nat.pow 10 (-exponent).toNat

/-- Whether a spelling writes a number with a fraction or an exponent, or an infinity. -/
def isDecimal (spelling : List Char) : Bool :=
  let (_, unsigned) := splitSign spelling
  let infinities := [".inf".toList, ".Inf".toList, ".INF".toList]
  let undefinedNumbers := [".nan".toList, ".NaN".toList, ".NAN".toList]
  if infinities.contains unsigned || undefinedNumbers.contains spelling then true
  else if isZeroPadded unsigned then false
  else
    match decimalParts? unsigned with
    | some parts => parts.isFinite
    | none => false

/-- What a spelling stands for. -/
def kind (spelling : String) : Kind :=
  if isNull spelling then .null
  else
    match bool? spelling with
    | some value => .bool value
    | none =>
      match integer? spelling.toList with
      | some (negative, size) =>
        if fits 64 negative size then .number
        else if fits 128 negative size then .wideInteger
        else if isDecimal spelling.toList then .number
        else .text
      | none => if isDecimal spelling.toList then .number else .text

end TypeReach.Spelling
