/-!
# Cutting texts

Lines, the two sides of a separator and what an ending leaves, all on lists of
characters.
-/

namespace TypeReach.Text

/--
The lines of a text.  Every line feed ends a line, and a text that does not
end in one has a last line without it.
-/
def lines : List Char → List (List Char)
  | [] => []
  | character :: rest =>
    if character = '\n' then [] :: lines rest
    else
      match lines rest with
      | [] => [[character]]
      | line :: more => (character :: line) :: more

/-- The two sides of the first occurrence of a separator. -/
def cut? (separator : Char) : List Char → Option (List Char × List Char)
  | [] => none
  | character :: rest =>
    if character = separator then some ([], rest)
    else (cut? separator rest).map fun sides => (character :: sides.1, sides.2)

/-- The two sides of the last occurrence of a separator. -/
def cutLast? (separator : Char) (text : List Char) : Option (List Char × List Char) :=
  (cut? separator text.reverse).map fun sides =>
    (sides.2.reverse, sides.1.reverse)

/-- What follows a given beginning, if the text has it. -/
def after? : List Char → List Char → Option (List Char)
  | [], text => some text
  | _ :: _, [] => none
  | expected :: more, character :: rest =>
    if expected = character then after? more rest else none

/-- What precedes a given end, if the text has it. -/
def before? (ending text : List Char) : Option (List Char) :=
  (after? ending.reverse text.reverse).map List.reverse

/-- Put one character in the place of another everywhere. -/
def replaceChar (old new : Char) (text : List Char) : List Char :=
  text.map fun character => if character = old then new else character

/-! ## What the cuts are -/

theorem cut?_eq_some_iff {separator : Char} {text left right : List Char} :
    cut? separator text = some (left, right) ↔
      text = left ++ separator :: right ∧ separator ∉ left := by
  induction text generalizing left with
  | nil => simp [cut?]
  | cons character rest inductive_hypothesis =>
    by_cases same : character = separator
    · cases left with
      | nil => simp [cut?, same]
      | cons first more =>
        simp only [cut?, same, if_true, Option.some.injEq, Prod.mk.injEq, List.cons_append,
          List.cons.injEq, List.mem_cons, not_or]
        grind
    · cases left with
      | nil => simp [cut?, same]
      | cons first more =>
        have below := @inductive_hypothesis more
        simp only [cut?, same, if_false, Option.map_eq_some_iff, Prod.mk.injEq, List.cons_append,
          List.cons.injEq, List.mem_cons, not_or]
        grind

theorem cut?_eq_none_iff {separator : Char} {text : List Char} :
    cut? separator text = none ↔ separator ∉ text := by
  induction text with
  | nil => simp [cut?]
  | cons character rest inductive_hypothesis =>
    by_cases same : character = separator
    · simp [cut?, same]
    · simp [cut?, same, inductive_hypothesis, Ne.symm same]

theorem after?_eq_some_iff {beginning text rest : List Char} :
    after? beginning text = some rest ↔ text = beginning ++ rest := by
  induction beginning generalizing text with
  | nil => simp [after?]
  | cons expected more inductive_hypothesis =>
    cases text with
    | nil => simp [after?]
    | cons character following =>
      by_cases same : expected = character
      · simp [after?, same, inductive_hypothesis]
      · simp [after?, same, Ne.symm same]

theorem before?_eq_some_iff {ending text front : List Char} :
    before? ending text = some front ↔ text = front ++ ending := by
  have reversed : before? ending text = some front ↔
      after? ending.reverse text.reverse = some front.reverse := by
    simp only [before?, Option.map_eq_some_iff, List.reverse_eq_iff]
    grind
  rw [reversed, after?_eq_some_iff, List.reverse_eq_iff]
  simp

end TypeReach.Text
