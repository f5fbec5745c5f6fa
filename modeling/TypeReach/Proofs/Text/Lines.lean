import Mathlib.Data.List.DropRight
import TypeReach.Text.Blank
import TypeReach.Text.Split

/-!
# Trimmed texts and texts of lines

A text is trimmed when it has no blank end.  Trimming always gives such a text,
which is a part of the text it is taken from, and does nothing to a text that
is trimmed already.  Lines that end in a line feed each, put together, are
found again as the lines of the whole.
-/

namespace TypeReach.Text

/-! ## Trimmed texts -/

/-- No end of a text is blank. -/
structure IsTrimmed (text : List Char) : Prop where
  first : ∀ character ∈ text.head?, isBlank character = false
  last : ∀ character ∈ text.getLast?, isBlank character = false

theorem isTrimmed_nil : IsTrimmed [] := by
  constructor <;> simp

theorem isTrimmed_singleton
    {character : Char}
    (visible : isBlank character = false) :
    IsTrimmed [character] := by
  constructor <;> simpa using visible

theorem IsTrimmed.append
    {left right : List Char}
    (leftTrimmed : IsTrimmed left)
    (rightTrimmed : IsTrimmed right) :
    IsTrimmed (left ++ right) where
  first := by
    intro character atFirst
    rw [List.head?_append] at atFirst
    rcases Option.or_eq_some_iff.mp atFirst with inLeft | ⟨_, inRight⟩
    · exact leftTrimmed.first character inLeft
    · exact rightTrimmed.first character inRight
  last := by
    intro character atLast
    rw [List.getLast?_append] at atLast
    rcases Option.or_eq_some_iff.mp atLast with inRight | ⟨_, inLeft⟩
    · exact rightTrimmed.last character inRight
    · exact leftTrimmed.last character inLeft

theorem isTrimmed_intercalate
    {separator : Char}
    (visible : isBlank separator = false)
    {texts : List (List Char)}
    (trimmed : ∀ text ∈ texts, IsTrimmed text) :
    IsTrimmed ([separator].intercalate texts) := by
  induction texts with
  | nil => exact isTrimmed_nil
  | cons text rest inductive_hypothesis =>
      rcases List.forall_mem_cons.mp trimmed with ⟨here, below⟩
      cases rest with
      | nil => simpa using here
      | cons next rest =>
          rw [List.intercalate_cons_cons]
          exact (here.append (isTrimmed_singleton visible)).append (inductive_hypothesis below)

theorem trimStart_eq_self
    {text : List Char}
    (visible : ∀ character ∈ text.head?, isBlank character = false) :
    trimStart text = text := by
  cases text with
  | nil => rfl
  | cons first rest => simp [trimStart, visible first rfl]

theorem trimEnd_eq_self
    {text : List Char}
    (visible : ∀ character ∈ text.getLast?, isBlank character = false) :
    trimEnd text = text := by
  apply List.rdropWhile_eq_self_iff.mpr
  intro nonempty
  simp [visible _ (List.getLast?_eq_some_getLast nonempty)]

theorem IsTrimmed.trim_eq
    {text : List Char}
    (trimmed : IsTrimmed text) :
    trim text = text := by
  rw [trim, trimStart_eq_self trimmed.first, trimEnd_eq_self trimmed.last]

theorem trimEnd_isPrefix (text : List Char) : trimEnd text <+: text :=
  List.rdropWhile_prefix isBlank text

theorem trim_isInfix (text : List Char) : trim text <:+: text :=
  (trimEnd_isPrefix (trimStart text)).isInfix.trans (List.dropWhile_suffix isBlank).isInfix

theorem mem_of_mem_trim
    {character : Char}
    {text : List Char}
    (member : character ∈ trim text) :
    character ∈ text :=
  (trim_isInfix text).subset member

theorem isTrimmed_trim (text : List Char) : IsTrimmed (trim text) where
  first := by
    intro character atFirst
    have visible := List.head?_dropWhile_not isBlank text
    -- What is left at the front of a trimmed end stood at the front before.
    rcases trimEnd_isPrefix (trimStart text) with ⟨dropped, whole⟩
    have before : (trimStart text).head? = some character := by
      rw [← whole, List.head?_append]
      exact Option.or_eq_some_iff.mpr (Or.inl atFirst)
    rw [← trimStart, before] at visible
    exact visible
  last := by
    intro character atLast
    rcases List.getLast?_eq_some_iff.mp atLast with ⟨front, ends⟩
    have nonempty : trimEnd (trimStart text) ≠ [] := by
      rw [← trim, ends]
      simp
    have visible := List.rdropWhile_last_not isBlank (trimStart text) nonempty
    have same : (trimEnd (trimStart text)).getLast nonempty = character :=
      Option.some.inj ((List.getLast?_eq_some_getLast nonempty).symm.trans atLast)
    rw [← same]
    exact Bool.eq_false_iff.mpr visible

/-- Nothing is left exactly of a blank text. -/
theorem trim_eq_nil_iff {text : List Char} :
    trim text = [] ↔ ∀ character ∈ text, isBlank character = true := by
  constructor
  · intro nothing
    have blankRest := List.rdropWhile_eq_nil_iff.mp nothing
    have visible := List.head?_dropWhile_not isBlank text
    cases rest : trimStart text with
    | nil => exact List.dropWhile_eq_nil_iff.mp rest
    | cons first more =>
        rw [← trimStart, rest] at visible
        have blank := blankRest first (by rw [rest]; exact List.mem_cons_self)
        cases blank.symm.trans visible
  · intro blank
    rw [trim, trimStart, List.dropWhile_eq_nil_iff.mpr blank]
    rfl

/-- A character that is not blank stays in front. -/
theorem head?_trim_cons
    {first : Char}
    (visible : isBlank first = false)
    (rest : List Char) :
    (trim (first :: rest)).head? = some first := by
  have untouched : trimStart (first :: rest) = first :: rest :=
    trimStart_eq_self (by simpa using visible)
  rw [trim, untouched]
  rcases trimEnd_isPrefix (first :: rest) with ⟨dropped, whole⟩
  cases kept : trimEnd (first :: rest) with
  | nil =>
      have allBlank := List.rdropWhile_eq_nil_iff.mp kept first List.mem_cons_self
      rw [visible] at allBlank
      cases allBlank
  | cons other more =>
      rw [kept, List.cons_append] at whole
      rw [List.head?_cons, (List.cons.inj whole).1]

theorem trim_trimStart (text : List Char) : trim (trimStart text) = trim text := by
  unfold trim trimStart
  rw [List.dropWhile_idempotent]

/-- Before a text that is trimmed at its end and not blank in front, only the front is trimmed. -/
theorem trim_append_cons
    (front : List Char)
    {character : Char}
    (visible : isBlank character = false)
    {back : List Char}
    (trimmed : IsTrimmed back) :
    trim (front ++ character :: back) = trimStart front ++ character :: back := by
  have started : trimStart (front ++ character :: back) =
      trimStart front ++ character :: back := by
    rw [trimStart, trimStart, List.dropWhile_append]
    split_ifs with blank
    · simp [List.isEmpty_iff.mp blank, visible]
    · rfl
  rw [trim, started]
  apply trimEnd_eq_self
  intro last atLast
  have ended := (isTrimmed_singleton visible).append trimmed
  refine ended.last last ?_
  rwa [List.getLast?_append_of_ne_nil _ (List.cons_ne_nil _ _)] at atLast

/-! ## Lines -/

theorem lines_append_lineFeed
    {line : List Char}
    (oneLine : '\n' ∉ line)
    (rest : List Char) :
    lines (line ++ '\n' :: rest) = line :: lines rest := by
  induction line with
  | nil => simp [lines]
  | cons character line inductive_hypothesis =>
      have apart : character ≠ '\n' ∧ '\n' ∉ line := by
        simpa [eq_comm] using oneLine
      simp [lines, apart.1, inductive_hypothesis apart.2]

/-- Lines with a line feed each are the lines of what they form. -/
theorem lines_flatMap_lineFeed
    {texts : List (List Char)}
    (oneLine : ∀ line ∈ texts, '\n' ∉ line) :
    lines (texts.flatMap (· ++ ['\n'])) = texts := by
  induction texts with
  | nil => rfl
  | cons line rest inductive_hypothesis =>
      rw [List.flatMap_cons, List.append_assoc, List.singleton_append,
        lines_append_lineFeed (oneLine line List.mem_cons_self),
        inductive_hypothesis fun other member => oneLine other (List.mem_cons_of_mem _ member)]

theorem lineFeed_not_mem_of_mem_lines
    {text line : List Char}
    (member : line ∈ lines text) :
    '\n' ∉ line := by
  induction text generalizing line with
  | nil => cases member
  | cons character rest inductive_hypothesis =>
      simp only [lines] at member
      split_ifs at member with feed
      · rcases List.mem_cons.mp member with rfl | later
        · exact List.not_mem_nil
        · exact inductive_hypothesis later
      · split at member
        · rw [List.mem_singleton.mp member]
          simpa [eq_comm] using feed
        · rename_i first more split
          rcases List.mem_cons.mp member with rfl | later
          · have below := inductive_hypothesis (split ▸ List.mem_cons_self)
            simpa [eq_comm, feed] using below
          · exact inductive_hypothesis (split ▸ List.mem_cons_of_mem _ later)

/-! ## Pieces between separators -/

theorem mem_of_mem_splitOn
    {separator character : Char}
    {text piece : List Char}
    (member : piece ∈ text.splitOn separator)
    (inside : character ∈ piece) :
    character ∈ text ∧ character ≠ separator := by
  induction text generalizing piece with
  | nil =>
      rw [List.splitOn_nil, List.mem_singleton] at member
      rw [member] at inside
      cases inside
  | cons head rest inductive_hypothesis =>
      have later : ∀ other ∈ rest.splitOn separator, character ∈ other →
          character ∈ head :: rest ∧ character ≠ separator := by
        intro other otherMember otherInside
        have below := inductive_hypothesis otherMember otherInside
        exact ⟨List.mem_cons_of_mem _ below.1, below.2⟩
      rw [List.splitOn_cons_eq_if_modifyHead] at member
      split_ifs at member with same
      · rcases List.mem_cons.mp member with rfl | isLater
        · cases inside
        · exact later piece isLater inside
      · cases split : rest.splitOn separator with
        | nil => exact absurd split (List.splitOn_ne_nil separator rest)
        | cons first more =>
            rw [split, List.modifyHead_cons] at member
            rw [split] at later
            rcases List.mem_cons.mp member with rfl | isLater
            · rcases List.mem_cons.mp inside with rfl | inFirst
              · exact ⟨List.mem_cons_self, by simpa using same⟩
              · exact later first List.mem_cons_self inFirst
            · exact later piece (List.mem_cons_of_mem _ isLater) inside

end TypeReach.Text
