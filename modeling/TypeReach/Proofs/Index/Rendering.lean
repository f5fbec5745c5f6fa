import Mathlib.Algebra.Ring.Parity
import Mathlib.Data.List.DropRight
import TypeReach.Index.Factories
import TypeReach.Proofs.Text.Lines

/-!
# Lines of a rendered index

An entry is rendered with one value to a line, and all lines but its last end in
a comma and a backslash.  Lines that continue a logical line act on it like one
line with the whole text of the entry.  Where a logical line would start, this
is so unless the key begins like a comment; then the first line is skipped, and
a logical line may start at one of the values.
-/

namespace TypeReach.Index

/-! ## Continued lines -/

/-- The backslashes at the end of a line. -/
def endingBackslashes (line : List Char) : Nat :=
  (line.rtakeWhile (· = '\\')).length

theorem continued?_eq_none_iff {line : List Char} :
    continued? line = none ↔ ¬ Odd (endingBackslashes line) := by
  rw [continued?, endingBackslashes, List.rtakeWhile, List.length_reverse, Nat.odd_iff]
  split_ifs with odd <;> simp [odd]

/-- Only what follows another character decides whether a line is continued. -/
theorem continued?_append_cons
    (front : List Char)
    {character : Char}
    (other : character ≠ '\\')
    (back : List Char) :
    continued? (front ++ character :: back) =
      (continued? back).map (front ++ character :: ·) := by
  have sameEnd :
      (((front ++ character :: back).reverse.takeWhile (· = '\\'))).length =
        (back.reverse.takeWhile (· = '\\')).length := by
    rw [List.reverse_append, List.reverse_cons, List.append_assoc, List.singleton_append,
      List.takeWhile_append]
    split_ifs with allTaken <;> simp [other, allTaken]
  unfold continued?
  rw [sameEnd]
  split_ifs with odd
  · have nonempty : back ≠ [] := by
      rintro rfl
      simp at odd
    rw [Option.map_some, List.dropLast_append_of_ne_nil (by simp),
      List.dropLast_cons_of_ne_nil nonempty]
  · rfl

/-- The texts of the logical lines; one of them may have begun with a given text. -/
def joinTexts : Option (List Char) → List (List Char) → List (List Char)
  | none, [] => []
  | some begun, [] => [begun]
  | none, line :: rest =>
    if isSkipped line then joinTexts none rest
    else
      match continued? line with
      | some head => joinTexts (some head) rest
      | none => line :: joinTexts none rest
  | some begun, line :: rest =>
    match continued? line with
    | some head => joinTexts (some (begun ++ head)) rest
    | none => (begun ++ line) :: joinTexts none rest

theorem map_text_joinLines
    (number : Nat)
    (pending : Option LogicalLine)
    (lines : List (List Char)) :
    (joinLines number pending lines).map LogicalLine.text =
      joinTexts (pending.map LogicalLine.text) lines := by
  fun_induction joinLines number pending lines <;> simp_all [joinTexts]

theorem joinTexts_of_isSkipped
    {line : List Char}
    (skipped : isSkipped line = true)
    (rest : List (List Char)) :
    joinTexts none (line :: rest) = joinTexts none rest := by
  simp [joinTexts, skipped]

/-- A line that is not skipped continues the empty text. -/
theorem joinTexts_of_not_isSkipped
    {line : List Char}
    (kept : isSkipped line = false)
    (rest : List (List Char)) :
    joinTexts none (line :: rest) = joinTexts (some []) (line :: rest) := by
  simp [joinTexts, kept]

/-- The beginning of a line can be taken over before the line is joined. -/
theorem joinTexts_append_cons
    (begun front : List Char)
    {character : Char}
    (other : character ≠ '\\')
    (back : List Char)
    (rest : List (List Char)) :
    joinTexts (some begun) ((front ++ character :: back) :: rest) =
      joinTexts (some (begun ++ (front ++ [character]))) (back :: rest) := by
  simp only [joinTexts, continued?_append_cons front other back]
  cases continued? back <;> simp

/-! ## Lines of an entry -/

/-- The lines of values, the first of them after a given beginning. -/
def valueLines : List Char → List (List Char) → List (List Char)
  | beginning, [] => [beginning]
  | beginning, [value] => [beginning ++ value]
  | beginning, value :: next :: rest =>
    (beginning ++ value ++ [',', '\\']) :: valueLines [] (next :: rest)

/-- The texts of the values of an entry. -/
def valueTexts (entry : String × List String) : List (List Char) :=
  entry.2.map String.toList

/-- The lines of an entry. -/
def entryLines (entry : String × List String) : List (List Char) :=
  valueLines (entry.1.toList ++ ['=']) (valueTexts entry)

/-- The logical line of an entry. -/
def entryText (entry : String × List String) : List Char :=
  entry.1.toList ++ '=' :: [','].intercalate (valueTexts entry)

theorem flatMap_valueLines
    (beginning : List Char)
    (values : List (List Char)) :
    (valueLines beginning values).flatMap (· ++ ['\n']) =
      beginning ++ [',', '\\', '\n'].intercalate values ++ ['\n'] := by
  induction values generalizing beginning with
  | nil => simp [valueLines]
  | cons value rest inductive_hypothesis =>
      cases rest with
      | nil => simp [valueLines]
      | cons next rest =>
          rw [valueLines, List.flatMap_cons, inductive_hypothesis, List.intercalate_cons_cons]
          simp

namespace Factories

/-- A rendered index is made of the lines of its entries. -/
theorem toList_render (index : Factories) :
    index.render.toList = (index.entries.flatMap entryLines).flatMap (· ++ ['\n']) := by
  rw [render, String.toList_join, List.flatMap_map, List.flatMap_assoc]
  apply List.flatMap_congr
  intro entry _
  rw [entryLines, flatMap_valueLines, renderEntry]
  simp [valueTexts, String.toList_intercalate]

end Factories

/-- What the parts of lines have and texts put together keep, the lines have. -/
theorem forall_mem_valueLines
    {property : List Char → Prop}
    (together : ∀ {left right}, property left → property right → property (left ++ right))
    (empty : property [])
    (ending : property [',', '\\'])
    {beginning : List Char}
    {values : List (List Char)}
    (begins : property beginning)
    (holds : ∀ value ∈ values, property value) :
    ∀ line ∈ valueLines beginning values, property line := by
  fun_induction valueLines beginning values with
  | case1 beginning => simpa using begins
  | case2 beginning value =>
      have here := holds value List.mem_cons_self
      simpa using together begins here
  | case3 beginning value next rest inductive_hypothesis =>
      rcases List.forall_mem_cons.mp holds with ⟨here, below⟩
      refine List.forall_mem_cons.mpr ⟨together (together begins here) ending, ?_⟩
      exact inductive_hypothesis empty below

/-- Where a logical line has begun, the lines of values are joined like one. -/
theorem joinTexts_valueLines
    (begun beginning : List Char)
    (values : List (List Char))
    (rest : List (List Char)) :
    joinTexts (some begun) (valueLines beginning values ++ rest) =
      joinTexts (some begun) ((beginning ++ [','].intercalate values) :: rest) := by
  induction values generalizing begun beginning with
  | nil => simp [valueLines]
  | cons value more inductive_hypothesis =>
      cases more with
      | nil => simp [valueLines]
      | cons next more =>
          have comma : ',' ≠ '\\' := by decide
          have begins := joinTexts_append_cons begun (beginning ++ value) comma
          have goesOn : ∀ text lines,
              joinTexts (some text) (['\\'] :: lines) = joinTexts (some text) lines := by
            intro text lines
            have continues : continued? ['\\'] = some [] := by decide
            simp [joinTexts, continues]
          calc
            joinTexts (some begun) (valueLines beginning (value :: next :: more) ++ rest)
            _ = joinTexts (some (begun ++ (beginning ++ value ++ [','])))
                  (valueLines [] (next :: more) ++ rest) := by
                rw [valueLines, List.cons_append, begins, goesOn]
            _ = joinTexts (some (begun ++ (beginning ++ value ++ [','])))
                  ([','].intercalate (next :: more) :: rest) :=
                inductive_hypothesis _ _
            _ = joinTexts (some begun)
                  ((beginning ++ [','].intercalate (value :: next :: more)) :: rest) := by
                rw [← begins, List.intercalate_cons_cons]
                simp

/-- Whether a text is skipped is seen at its front. -/
theorem isSkipped_congr
    {text other : List Char}
    (alike : text.head? = other.head?) :
    isSkipped text = isSkipped other := by
  cases text <;> cases other <;> simp_all [isSkipped]

theorem isSkipped_append
    {front : List Char}
    (nonempty : front ≠ [])
    (back : List Char) :
    isSkipped (front ++ back) = isSkipped front :=
  isSkipped_congr (List.head?_append_of_ne_nil front nonempty)

/-- The first line of values is skipped where one line with all of them would be. -/
theorem exists_valueLines_eq_cons
    (beginning : List Char)
    (values : List (List Char)) :
    ∃ first more, valueLines beginning values = first :: more ∧
      isSkipped first = isSkipped (beginning ++ [','].intercalate values) := by
  fun_cases valueLines beginning values with
  | case1 => exact ⟨_, _, rfl, by simp⟩
  | case2 => exact ⟨_, _, rfl, by simp⟩
  | case3 _ value next rest =>
      refine ⟨_, _, rfl, ?_⟩
      have nonempty : beginning ++ value ++ [','] ≠ [] := by simp
      have atFirst := isSkipped_append nonempty ['\\']
      have atText := isSkipped_append nonempty ([','].intercalate (next :: rest))
      rw [List.intercalate_cons_cons]
      simpa using atFirst.trans atText.symm

/-- The lines of values are joined like one line that is not skipped. -/
theorem joinTexts_none_valueLines
    {beginning : List Char}
    {values : List (List Char)}
    (kept : isSkipped (beginning ++ [','].intercalate values) = false)
    (rest : List (List Char)) :
    joinTexts none (valueLines beginning values ++ rest) =
      joinTexts none ((beginning ++ [','].intercalate values) :: rest) := by
  rcases exists_valueLines_eq_cons beginning values with ⟨first, more, split, alike⟩
  calc
    joinTexts none (valueLines beginning values ++ rest)
    _ = joinTexts (some []) (valueLines beginning values ++ rest) := by
        rw [split, List.cons_append, joinTexts_of_not_isSkipped (alike.trans kept)]
    _ = joinTexts (some []) ((beginning ++ [','].intercalate values) :: rest) :=
        joinTexts_valueLines [] beginning values rest
    _ = joinTexts none ((beginning ++ [','].intercalate values) :: rest) :=
        (joinTexts_of_not_isSkipped kept rest).symm

/--
Whatever a key is, the lines of an entry are joined like one line where a
logical line would start.  Where the key begins like a comment, that line has
only the values after some of the first ones.
-/
theorem exists_joinTexts_valueLines
    {beginning : List Char}
    {values : List (List Char)}
    (begins : Text.IsTrimmed beginning)
    (trimmed : ∀ value ∈ values, Text.IsTrimmed value) :
    ∃ line, (∀ first ∈ line.head?, Text.isBlank first = false) ∧
      ∀ rest, joinTexts none (valueLines beginning values ++ rest) =
        joinTexts none (line :: rest) := by
  induction values generalizing beginning with
  | nil => exact ⟨beginning, begins.first, fun rest => rfl⟩
  | cons value more inductive_hypothesis =>
      have comma : Text.isBlank ',' = false := by decide
      have visible := (begins.append (Text.isTrimmed_intercalate comma trimmed)).first
      cases skipped : isSkipped (beginning ++ [','].intercalate (value :: more)) with
      | false => exact ⟨_, visible, joinTexts_none_valueLines skipped⟩
      | true =>
          rcases exists_valueLines_eq_cons beginning (value :: more) with
            ⟨first, _, split, alike⟩
          cases more with
          | nil => exact ⟨_, visible, fun rest => by simp [valueLines]⟩
          | cons next more =>
              rcases inductive_hypothesis Text.isTrimmed_nil (List.forall_mem_cons.mp trimmed).2
                with ⟨line, visibleBelow, joined⟩
              refine ⟨line, visibleBelow, ?_⟩
              intro rest
              rw [valueLines] at split ⊢
              rw [List.cons_append, (List.cons.inj split).1,
                joinTexts_of_isSkipped (alike.trans skipped), joined]

end TypeReach.Index
