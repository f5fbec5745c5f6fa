import TypeReach.Proofs.Index.RoundTrip
import TypeReach.Proofs.Steps

/-!
# What a factories file says

A text is divided into physical lines, which count without their blank ends, and
these are divided into logical lines.  Where a logical line would start, blank
lines and comments are skipped.  A logical line goes on as long as its physical
lines end in an odd number of backslashes, each without the last of these, and it
ends with the first line that does not, or with the text.  Within a logical line
nothing is skipped.

Such a division exists for every text and is the only one.  A text is malformed
exactly when one of its logical lines is, and the first of these is reported with
the number of the physical line where it starts.  Otherwise each key has the values
of the last logical line that defines it, in the place of the first.
-/

namespace TypeReach

namespace Index

/-! ## The division into logical lines -/

/-- A trimmed line is skipped where a logical line would start: it is empty or a comment. -/
def Skips (line : List Char) : Prop :=
  line = [] ∨ line.head? = some '#' ∨ line.head? = some '!'

/-- A line goes on in the next one. -/
def Continues (line : List Char) : Prop :=
  Odd (endingBackslashes line)

/--
Trimmed physical lines, the first of which has the given number, divide into
logical lines.
-/
inductive Divides : Nat → List (List Char) → List LogicalLine → Prop
  | done {number : Nat} : Divides number [] []
  | skipped {number : Nat} {line : List Char} {rest : List (List Char)}
      {logical : List LogicalLine}
      (skips : Skips line)
      (below : Divides (number + 1) rest logical) :
      Divides number (line :: rest) logical
  /-- Lines that go on and one that does not. -/
  | joined {number : Nat} {parts : List (List Char)} {last : List Char}
      {rest : List (List Char)} {logical : List LogicalLine}
      (starts : ∀ first ∈ (parts ++ [last]).head?, ¬ Skips first)
      (continued : ∀ part ∈ parts, Continues part)
      (ends : ¬ Continues last)
      (below : Divides (number + parts.length + 1) rest logical) :
      Divides number (parts ++ last :: rest)
        (⟨number, parts.flatMap List.dropLast ++ last⟩ :: logical)
  /-- Lines that go on up to the end of the text. -/
  | unended {number : Nat} {parts : List (List Char)}
      (nonempty : parts ≠ [])
      (starts : ∀ first ∈ parts.head?, ¬ Skips first)
      (continued : ∀ part ∈ parts, Continues part) :
      Divides number parts [⟨number, parts.flatMap List.dropLast⟩]

theorem isSkipped_iff {line : List Char} : isSkipped line = true ↔ Skips line := by
  cases line with
  | nil => simp [isSkipped, Skips]
  | cons first rest => simp [isSkipped, Skips]

theorem Continues.continued?_eq
    {line : List Char}
    (continues : Continues line) :
    continued? line = some line.dropLast := by
  cases found : continued? line with
  | none => exact absurd continues (continued?_eq_none_iff.mp found)
  | some head => rw [(eq_dropLast_of_continued? found).1]

/-- Lines that go on add to a logical line that has begun. -/
theorem joinLines_append
    {parts : List (List Char)}
    (continued : ∀ part ∈ parts, Continues part)
    (number : Nat)
    (begun : LogicalLine)
    (rest : List (List Char)) :
    joinLines number (some begun) (parts ++ rest) =
      joinLines (number + parts.length)
        (some ⟨begun.start, begun.text ++ parts.flatMap List.dropLast⟩) rest := by
  induction parts generalizing number begun with
  | nil => simp
  | cons part parts inductive_hypothesis =>
      rcases List.forall_mem_cons.mp continued with ⟨here, below⟩
      simp only [List.cons_append, joinLines, here.continued?_eq, inductive_hypothesis below,
        List.flatMap_cons, List.length_cons, List.append_assoc, Nat.add_assoc,
        Nat.add_comm 1]

/-- Where the first line is not skipped, a logical line begins with it. -/
theorem joinLines_none
    {lines : List (List Char)}
    (nonempty : lines ≠ [])
    (starts : ∀ first ∈ lines.head?, ¬ Skips first)
    (number : Nat) :
    joinLines number none lines = joinLines number (some ⟨number, []⟩) lines := by
  cases lines with
  | nil => exact absurd rfl nonempty
  | cons line rest =>
      have kept : ¬ isSkipped line = true := fun skipped =>
        starts line rfl (isSkipped_iff.mp skipped)
      simp [joinLines, kept]

theorem Divides.joinLines_eq
    {number : Nat}
    {lines : List (List Char)}
    {logical : List LogicalLine}
    (divides : Divides number lines logical) :
    joinLines number none lines = logical := by
  induction divides with
  | done => rfl
  | skipped skips _ inductive_hypothesis =>
      rw [joinLines, if_pos (isSkipped_iff.mpr skips), inductive_hypothesis]
  | @joined number parts last rest logical starts continued ends _ inductive_hypothesis =>
      have first : (parts ++ last :: rest).head? = (parts ++ [last]).head? := by
        cases parts <;> rfl
      rw [joinLines_none (by simp) (first ▸ starts), joinLines_append continued, joinLines,
        continued?_eq_none_iff.mpr ends, inductive_hypothesis]
      rfl
  | @unended number parts nonempty starts continued =>
      have joined := joinLines_append continued number ⟨number, []⟩ []
      rw [List.append_nil] at joined
      rw [joinLines_none nonempty starts, joined]
      rfl

/-- Lines begin with those that go on, up to the first that does not. -/
theorem exists_continued (lines : List (List Char)) :
    ∃ parts tail, lines = parts ++ tail ∧ (∀ part ∈ parts, Continues part) ∧
      ∀ last ∈ tail.head?, ¬ Continues last := by
  induction lines with
  | nil => exact ⟨[], [], rfl, by simp, by simp⟩
  | cons line rest inductive_hypothesis =>
      by_cases continues : Continues line
      · rcases inductive_hypothesis with ⟨parts, tail, rfl, continued, ends⟩
        exact ⟨line :: parts, tail, rfl, List.forall_mem_cons.mpr ⟨continues, continued⟩, ends⟩
      · exact ⟨[], line :: rest, rfl, by simp, by simpa using continues⟩

/-- All lines can be divided: what follows a logical line is shorter. -/
theorem exists_divides (number : Nat) (lines : List (List Char)) :
    ∃ logical, Divides number lines logical := by
  match lines with
  | [] => exact ⟨[], .done⟩
  | line :: rest =>
      by_cases skips : Skips line
      · rcases exists_divides (number + 1) rest with ⟨logical, below⟩
        exact ⟨logical, .skipped skips below⟩
      · rcases exists_continued (line :: rest) with ⟨parts, tail, whole, continued, ends⟩
        cases tail with
        | nil =>
            rw [List.append_nil] at whole
            have starts : ∀ first ∈ (line :: rest).head?, ¬ Skips first := by simpa using skips
            rw [whole] at starts ⊢
            exact ⟨_, .unended (whole ▸ List.cons_ne_nil line rest) starts continued⟩
        | cons last more =>
            have shorter : more.length < (line :: rest).length := by
              rw [whole, List.length_append, List.length_cons]
              omega
            have starts : ∀ first ∈ (parts ++ [last]).head?, ¬ Skips first := by
              have first : (parts ++ [last]).head? = (line :: rest).head? := by
                rw [whole]
                cases parts <;> rfl
              simpa [first] using skips
            rcases exists_divides (number + parts.length + 1) more with ⟨logical, below⟩
            rw [whole]
            exact ⟨_, .joined starts continued (ends last rfl) below⟩
termination_by lines.length
decreasing_by
  · exact Nat.lt_succ_self rest.length
  · exact shorter

/-- The division is unique, and `joinLines` finds it. -/
theorem divides_iff
    {number : Nat}
    {lines : List (List Char)}
    {logical : List LogicalLine} :
    Divides number lines logical ↔ logical = joinLines number none lines := by
  constructor
  · exact fun divides => divides.joinLines_eq.symm
  · rintro rfl
    rcases exists_divides number lines with ⟨logical, divides⟩
    rwa [divides.joinLines_eq]

namespace Factories

/-! ## One logical line -/

/-- A line without an equals sign, or with a blank key in front of it. -/
def IsMalformed (text : List Char) : Prop :=
  '=' ∉ text ∨
    ∃ key values, text = key ++ '=' :: values ∧
      ∀ character ∈ key, Text.isBlank character = true

/-- The defect of a malformed line. -/
def defectOf (text : List Char) : Defect :=
  if '=' ∈ text then .emptyKey else .noKeyValue

/--
A line defines what stands before its first equals sign, by the texts between
the commas after it that are not blank.
-/
inductive Defines : List Char → String × List String → Prop
  | intro {key values : List Char}
      (first : '=' ∉ key)
      (named : Text.trim key ≠ []) :
      Defines (key ++ '=' :: values)
        (String.ofList (Text.trim key),
          (((values.splitOn ',').map Text.trim).filter (· ≠ [])).map String.ofList)

/-- A line is malformed and refused with its defect, or it is read as what it defines. -/
theorem readLine_cases (text : List Char) :
    (IsMalformed text ∧ readLine text = .error (defectOf text)) ∨
      (¬ IsMalformed text ∧ ∃ entry, Defines text entry ∧ Reads text entry) := by
  cases cut : Text.cut? '=' text with
  | none =>
      have absent := Text.cut?_eq_none_iff.mp cut
      exact .inl ⟨.inl absent, by simp [readLine, cut, defectOf, absent]⟩
  | some sides =>
      obtain ⟨key, values⟩ := sides
      obtain ⟨rfl, first⟩ := Text.cut?_eq_some_iff.mp cut
      have present : '=' ∈ key ++ '=' :: values := by simp
      by_cases blank : Text.trim key = []
      · refine .inl ⟨.inr ⟨key, values, rfl, Text.trim_eq_nil_iff.mp blank⟩, ?_⟩
        simp [readLine, cut, blank, defectOf, present]
      · refine .inr ⟨?_, _, .intro first blank, ?_⟩
        · rintro (absent | ⟨other, rest, same, allBlank⟩)
          · exact absent present
          · -- The equals sign is not blank, so a blank key ends at the first one.
            have unequal : '=' ∉ other := fun member =>
              absurd (allBlank '=' member) (by decide)
            have again := Text.cut?_eq_some_iff.mpr ⟨same, unequal⟩
            cases cut.symm.trans again
            exact blank (Text.trim_eq_nil_iff.mpr allBlank)
        · have kept : ((values.splitOn ',').map Text.trim).filter (! ·.isEmpty) =
              ((values.splitOn ',').map Text.trim).filter (· ≠ []) := by
            apply List.filter_congr
            intro piece _
            cases piece <;> rfl
          simp [Reads, readLine, cut, blank, readValues, kept]

theorem defines_of_reads
    {text : List Char}
    {entry : String × List String}
    (reads : Reads text entry) :
    ¬ IsMalformed text ∧ Defines text entry := by
  rcases readLine_cases text with ⟨_, refused⟩ | ⟨wellFormed, other, defines, same⟩
  · cases refused.symm.trans reads
  · cases same.symm.trans reads
    exact ⟨wellFormed, defines⟩

/-! ## All logical lines -/

/-- Lines are refused for the first malformed one among them. -/
theorem addLines_eq_error_iff
    {source : String}
    {lines : List LogicalLine}
    {index : Factories}
    {malformed : Malformed} :
    addLines source lines index = .error malformed ↔
      ∃ before bad after, lines = before ++ bad :: after ∧
        (∀ line ∈ before, ¬ IsMalformed line.text) ∧ IsMalformed bad.text ∧
        malformed = ⟨source, bad.start, defectOf bad.text⟩ := by
  induction lines generalizing index with
  | nil => simp [addLines]
  | cons line rest inductive_hypothesis =>
      rcases readLine_cases line.text with ⟨bad, refused⟩ | ⟨wellFormed, entry, _, reads⟩
      · simp only [addLines, refused, Except.error.injEq]
        constructor
        · rintro rfl
          exact ⟨[], line, rest, rfl, by simp, bad, rfl⟩
        · rintro ⟨before, other, after, split, earlier, _, rfl⟩
          cases before with
          | nil =>
              cases split
              rfl
          | cons first before =>
              cases split
              exact absurd bad (earlier line (by simp))
      · rw [Reads] at reads
        simp only [addLines, reads, inductive_hypothesis]
        constructor
        · rintro ⟨before, bad, after, rfl, earlier, isBad, rfl⟩
          exact ⟨line :: before, bad, after, rfl,
            List.forall_mem_cons.mpr ⟨wellFormed, earlier⟩, isBad, rfl⟩
        · rintro ⟨before, bad, after, split, earlier, isBad, rfl⟩
          cases before with
          | nil =>
              cases split
              exact absurd isBad wellFormed
          | cons first before =>
              cases split
              exact ⟨before, bad, after, rfl, (List.forall_mem_cons.mp earlier).2, isBad, rfl⟩

/--
Entries hold each defined key once, in the place of its first definition and
with the values of its last.
-/
structure Overrides (defined entries : List (String × List String)) : Prop where
  distinct : (Keyed.keys entries).Nodup
  inOrder : Keyed.keys entries = (Keyed.keys defined).eraseDups
  last : ∀ before key values after, defined = before ++ (key, values) :: after →
    key ∉ Keyed.keys after → Keyed.get? key entries = some values

theorem overrides_setAll (defined : List (String × List String)) :
    Overrides defined (Keyed.setAll defined []) := by
  have inOrder : Keyed.keys (Keyed.setAll defined []) = (Keyed.keys defined).eraseDups := by
    rw [Keyed.keys_setAll]
    simp [Keyed.keys]
  refine ⟨inOrder ▸ nodup_eraseDups _, inOrder, ?_⟩
  rintro before key values after rfl notAgain
  exact Keyed.get?_setAll_append_cons before values notAgain []

theorem parse_eq_ok
    {source text : String}
    {index : Factories}
    (read : parse source text = .ok index) :
    ∃ defined,
      List.Forall₂ Defines ((logicalLines text.toList).map LogicalLine.text) defined ∧
        Overrides defined index.entries := by
  rcases addLines_eq_ok_iff.mp read with ⟨defined, reads, rfl⟩
  exact ⟨defined, reads.imp fun _ _ reads => (defines_of_reads reads).2,
    overrides_setAll defined⟩

theorem exists_error_iff {source text : String} :
    (∃ malformed, parse source text = .error malformed) ↔
      ∃ line ∈ logicalLines text.toList, IsMalformed line.text := by
  constructor
  · rintro ⟨malformed, failed⟩
    rcases addLines_eq_error_iff.mp failed with ⟨before, bad, after, split, _, isBad, _⟩
    exact ⟨bad, by simp [split], isBad⟩
  · rintro ⟨line, member, bad⟩
    cases outcome : parse source text with
    | error malformed => exact ⟨malformed, rfl⟩
    | ok index =>
        rcases addLines_eq_ok_iff.mp outcome with ⟨read, reads, _⟩
        have readFrom : List.Forall₂ (fun entry text => Reads text entry) read _ := reads.flip
        rcases exists_of_forall₂ readFrom _ (List.mem_map_of_mem member) with ⟨_, _, here⟩
        exact absurd bad (defines_of_reads here).1

/--
A text has one division into logical lines.  Reading it fails exactly when one of
them is malformed, with the first such line, and otherwise gives each key once,
where it is defined first, with the values of its last definition.
-/
theorem parse_logicalLines (source text : String) :
    ∃ logical,
      (∀ other,
        Divides 1 ((Text.lines text.toList).map Text.trim) other ↔ other = logical) ∧
      ((∃ malformed, parse source text = .error malformed) ↔
        ∃ line ∈ logical, IsMalformed line.text) ∧
      (∀ malformed, parse source text = .error malformed ↔
        ∃ before bad after, logical = before ++ bad :: after ∧
          (∀ line ∈ before, ¬ IsMalformed line.text) ∧ IsMalformed bad.text ∧
          malformed = ⟨source, bad.start, defectOf bad.text⟩) ∧
      ((∀ line ∈ logical, ¬ IsMalformed line.text) →
        ∃ index defined, parse source text = .ok index ∧
          List.Forall₂ Defines (logical.map LogicalLine.text) defined ∧
          Overrides defined index.entries) := by
  refine ⟨logicalLines text.toList, fun _ => divides_iff, exists_error_iff,
    fun _ => addLines_eq_error_iff, ?_⟩
  intro wellFormed
  cases outcome : parse source text with
  | error malformed =>
      rcases exists_error_iff.mp ⟨malformed, outcome⟩ with ⟨line, member, bad⟩
      exact absurd bad (wellFormed line member)
  | ok index =>
      rcases parse_eq_ok outcome with ⟨defined, defines, overrides⟩
      exact ⟨index, defined, rfl, defines, overrides⟩

-- A line that looks like a comment goes on with the logical line before it.
example :
    parse "f" "# none\na=\\\n  #x, ,y\nb=1\n" = .ok ⟨[("a", ["#x", "y"]), ("b", ["1"])]⟩ := by
  decide

end Factories

end Index

end TypeReach
