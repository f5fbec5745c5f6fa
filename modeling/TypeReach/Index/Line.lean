import TypeReach.Text.Blank
import TypeReach.Text.Split

/-!
# Lines of index files

A physical line counts without its blank ends.  Blank lines and comments are
skipped where an entry would start.  A line that ends in an odd number of
backslashes goes on in the next one, without the last of them, and such lines
form one logical line.
-/

namespace TypeReach.Index

/-- Whether a trimmed line holds no entry. -/
def isSkipped : List Char → Bool
  | [] => true
  | first :: _ => first = '#' || first = '!'

/-- A line's text before the backslash that continues it. -/
def continued? (line : List Char) : Option (List Char) :=
  if (line.reverse.takeWhile (· = '\\')).length % 2 = 1 then some line.dropLast
  else none

theorem eq_dropLast_of_continued? {line head : List Char}
    (continues : continued? line = some head) : head = line.dropLast ∧ line ≠ [] := by
  unfold continued? at continues
  split at continues
  · rename_i odd
    refine ⟨(Option.some.inj continues).symm, ?_⟩
    rintro rfl
    simp at odd
  · cases continues

/-- A logical line and the number of the physical line where it starts. -/
structure LogicalLine where
  start : Nat
  text : List Char
  deriving DecidableEq, Repr

/--
The logical lines among physical lines that are trimmed already, the first of
which has the given number.  `pending` is a logical line still to be continued;
it ends with the last physical line at the latest.
-/
def joinLines : Nat → Option LogicalLine → List (List Char) → List LogicalLine
  | _, none, [] => []
  | _, some pending, [] => [pending]
  | number, none, line :: rest =>
    if isSkipped line then joinLines (number + 1) none rest
    else
      match continued? line with
      | some head => joinLines (number + 1) (some ⟨number, head⟩) rest
      | none => ⟨number, line⟩ :: joinLines (number + 1) none rest
  | number, some pending, line :: rest =>
    match continued? line with
    | some head => joinLines (number + 1) (some ⟨pending.start, pending.text ++ head⟩) rest
    | none => ⟨pending.start, pending.text ++ line⟩ :: joinLines (number + 1) none rest

/-- The logical lines of a text. -/
def logicalLines (text : List Char) : List LogicalLine :=
  joinLines 1 none ((Text.lines text).map Text.trim)

/-- The trimmed lines of a text that are not skipped, each with its number. -/
def plainLines (text : List Char) : List LogicalLine :=
  (((Text.lines text).map Text.trim).zipIdx 1).filterMap fun line =>
    if isSkipped line.1 then none else some ⟨line.2, line.1⟩

end TypeReach.Index
