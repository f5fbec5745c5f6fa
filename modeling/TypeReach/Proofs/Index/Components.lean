import TypeReach.Proofs.Index.Merging
import TypeReach.Proofs.Index.Rendering
import TypeReach.Proofs.TypeName

/-!
# Components files read back

A components file is rendered with one line to an entry, in which the type stands
in its dotted form.  No line gives more than one type, so an index is read back
from its own text exactly when each line is read as the entry that it was made
of.  A name that came from a descriptor may fail to do so: it can have blank ends,
the shape of an array or a descriptor, or look like a comment.  A name that was
written plainly cannot.
-/

namespace TypeReach.Index

/-! ## Lines that are not continued -/

/-- A plain line is one of the text, trimmed, that is not skipped. -/
theorem map_text_plainLines (text : List Char) :
    (plainLines text).map LogicalLine.text =
      ((Text.lines text).map Text.trim).filter (! isSkipped ·) := by
  have numbered : ∀ (lines : List (List Char)) (number : Nat),
      ((lines.zipIdx number).filterMap fun line =>
        if isSkipped line.1 then none else some (⟨line.2, line.1⟩ : LogicalLine)).map
          LogicalLine.text = lines.filter (! isSkipped ·) := by
    intro lines
    induction lines with
    | nil => exact fun _ => rfl
    | cons line rest inductive_hypothesis =>
        intro number
        rw [List.zipIdx_cons, List.filterMap_cons]
        cases skipped : isSkipped line with
        | true => simp [skipped, inductive_hypothesis]
        | false => simp [skipped, inductive_hypothesis]
  exact numbered _ 1

theorem isSkipped_eq_false_iff {text : List Char} :
    isSkipped text = false ↔
      text ≠ [] ∧ ∀ first ∈ text.head?, first ≠ '#' ∧ first ≠ '!' := by
  cases text <;> simp [isSkipped]

namespace Components

/-! ## What an index from files can hold -/

/-- The indexes that reading, merging and filtering can build. -/
inductive FromFiles : Components → Prop
  | empty : FromFiles empty
  | parsed {source text : String} {index : Components}
      (read : parse source text = .ok index) : FromFiles index
  | merged {index other : Components} (first : FromFiles index) (second : FromFiles other) :
      FromFiles (index.merge other)
  | filtered {index : Components} (reached : FromFiles index)
      (rejected : List TypeName) : FromFiles (index.filtered rejected)

theorem FromFiles.reachable
    {index : Components}
    (reached : FromFiles index) :
    index.Reachable := by
  induction reached with
  | empty => exact .empty
  | parsed read => exact .parsed read
  | merged _ _ first second => exact .merged first second
  | filtered _ rejected reached => exact .filtered reached rejected

/-- A type and a stereotype that can stand on one line. -/
structure IsFormedEntry (entry : TypeName × String) : Prop where
  named : entry.1.slashed.toList ≠ []
  undotted : '.' ∉ entry.1.slashed.toList
  undivided : '=' ∉ entry.1.slashed.toList
  oneLine : '\n' ∉ entry.1.slashed.toList
  trimmedStereotype : Text.IsTrimmed entry.2.toList
  oneLineStereotype : '\n' ∉ entry.2.toList

/-- A line is read as an entry. -/
def Reads (text : List Char) (entry : TypeName × String) : Prop :=
  readLine text = .ok entry

theorem reads_iff
    {text : List Char}
    {entry : TypeName × String} :
    Reads text entry ↔
      ∃ type stereotype, Text.cut? '=' text = some (type, stereotype) ∧
        TypeName.parseChars? type = some entry.1 ∧
        entry.2 = String.ofList (Text.trim stereotype) := by
  rcases entry with ⟨name, label⟩
  unfold Reads readLine
  cases cut : Text.cut? '=' text with
  | none => simp
  | some sides =>
      rcases sides with ⟨type, stereotype⟩
      cases read : TypeName.parseChars? type with
      | none => simp [read]
      | some other => simp [read, eq_comm]

theorem isFormedEntry_of_reads
    {text : List Char}
    {entry : TypeName × String}
    (oneLine : '\n' ∉ text)
    (reads : Reads text entry) :
    IsFormedEntry entry := by
  rcases entry with ⟨name, label⟩
  rcases reads_iff.mp reads with ⟨type, stereotype, cut, read, rfl⟩
  rcases Text.cut?_eq_some_iff.mp cut with ⟨rfl, undivided⟩
  rcases TypeName.exists_ofSpelling_of_parseChars? read with ⟨spelling, nonempty, part, rfl⟩
  have inType : ∀ {character}, character ≠ '/' →
      character ∈ (TypeName.ofSpelling spelling).slashed.toList → character ∈ type := by
    intro character notSlash member
    rcases TypeName.mem_slashed_ofSpelling member with slash | ⟨inSpelling, _⟩
    · exact absurd slash notSlash
    · exact part.subset inSpelling
  constructor
  · rw [ne_eq, ← List.length_eq_zero_iff, TypeName.length_slashed_ofSpelling,
      List.length_eq_zero_iff]
    exact nonempty
  · exact TypeName.dot_not_mem_ofSpelling spelling
  · exact fun member => undivided (inType (by decide) member)
  · exact fun member => oneLine (List.mem_append_left _ (inType (by decide) member))
  · rw [String.toList_ofList]
    exact Text.isTrimmed_trim stereotype
  · rw [String.toList_ofList]
    intro member
    have inStereotype := Text.mem_of_mem_trim member
    exact oneLine (List.mem_append_right _ (List.mem_cons_of_mem _ inStereotype))

theorem takesOver_addLines (source : String) :
    TakesOver readLine (fun index entry => index.insert entry.1 entry.2) (addLines source) where
  nil _ := rfl
  refused failed _ _ := by
    rw [addLines, failed]
    exact ⟨_, rfl⟩
  taken read _ _ := by
    rw [addLines, read]

/-- A text is read when each of its lines is read as an entry, and these are set in order. -/
theorem parse_eq_ok_iff
    {source text : String}
    {index : Components} :
    parse source text = .ok index ↔
      ∃ read, List.Forall₂ Reads
          (((Text.lines text.toList).map Text.trim).filter (! isSkipped ·)) read ∧
        index = ⟨Keyed.setAll read []⟩ := by
  have entries : ∀ read : List (TypeName × String),
      read.foldl (fun index entry => index.insert entry.1 entry.2) empty =
        ⟨Keyed.setAll read []⟩ :=
    fun read => List.foldl_hom Components.mk fun _ _ => rfl
  rw [parse, (takesOver_addLines source).eq_ok_iff, map_text_plainLines]
  simp only [entries]
  rfl

theorem FromFiles.isFormedEntry
    {index : Components}
    (reached : FromFiles index) :
    ∀ entry ∈ index.entries, IsFormedEntry entry := by
  induction reached with
  | empty => exact fun entry member => absurd member List.not_mem_nil
  | parsed read =>
      rcases parse_eq_ok_iff.mp read with ⟨found, reads, rfl⟩
      intro entry member
      rcases Keyed.mem_setAll member with isRead | none
      · rcases exists_of_forall₂ reads entry isRead with ⟨line, isLine, readsEntry⟩
        refine isFormedEntry_of_reads ?_ readsEntry
        rcases List.mem_map.mp (List.mem_of_mem_filter isLine) with ⟨physical, inText, rfl⟩
        exact fun inside =>
          Text.lineFeed_not_mem_of_mem_lines inText (Text.mem_of_mem_trim inside)
      · cases none
  | merged _ _ first second =>
      intro entry member
      rw [entries_merge] at member
      rcases Keyed.mem_addAll (fun _ _ => Or.inl rfl) member with added | present
      · exact second entry added
      · exact first entry present
  | filtered _ rejected formed =>
      exact fun entry member => formed entry (List.mem_of_mem_filter member)

/-! ## Lines of entries -/

/-- The line of an entry. -/
def entryLine (entry : TypeName × String) : List Char :=
  entry.1.dotted.toList ++ '=' :: entry.2.toList

theorem toList_render (index : Components) :
    index.render.toList = (index.entries.map entryLine).flatMap (· ++ ['\n']) := by
  rw [render, String.toList_join, List.flatMap_map, List.flatMap_map]
  apply List.flatMap_congr
  intro entry _
  simp [renderEntry, entryLine]

theorem IsFormedEntry.oneLine_entryLine
    {entry : TypeName × String}
    (formed : IsFormedEntry entry) :
    '\n' ∉ entryLine entry := by
  intro member
  rcases List.mem_append.mp member with inName | later
  · exact formed.oneLine (TypeName.mem_slashed_of_mem_dotted inName (by decide))
  · rcases List.mem_cons.mp later with equals | inStereotype
    · cases equals
    · exact formed.oneLineStereotype inStereotype

theorem IsFormedEntry.trim_entryLine
    {entry : TypeName × String}
    (formed : IsFormedEntry entry) :
    Text.trim (entryLine entry) =
      Text.trimStart entry.1.dotted.toList ++ '=' :: entry.2.toList :=
  Text.trim_append_cons _ (by decide) formed.trimmedStereotype

/-- The line of an entry is read as the type that its dotted form names. -/
theorem IsFormedEntry.reads_entryLine_iff
    {entry : TypeName × String}
    (formed : IsFormedEntry entry)
    {other : TypeName × String} :
    Reads (Text.trim (entryLine entry)) other ↔
      TypeName.parse? entry.1.dotted = some other.1 ∧ other.2 = entry.2 := by
  have undivided : '=' ∉ Text.trimStart entry.1.dotted.toList := by
    intro member
    have inName := (List.dropWhile_suffix Text.isBlank).subset member
    exact formed.undivided (TypeName.mem_slashed_of_mem_dotted inName (by decide))
  have cut := Text.cut?_eq_some_iff.mpr ⟨formed.trim_entryLine, undivided⟩
  have sameName : TypeName.parseChars? (Text.trimStart entry.1.dotted.toList) =
      TypeName.parse? entry.1.dotted := by
    rw [TypeName.parse?, TypeName.parseChars?, TypeName.parseChars?, Text.trim_trimStart]
  rw [reads_iff]
  constructor
  · rintro ⟨type, stereotype, cutAgain, read, same⟩
    rcases Prod.mk.inj (Option.some.inj (cut.symm.trans cutAgain)) with ⟨rfl, rfl⟩
    rw [sameName] at read
    rw [formed.trimmedStereotype.trim_eq, String.ofList_toList] at same
    exact ⟨read, same⟩
  · rintro ⟨read, same⟩
    refine ⟨_, _, cut, sameName.trans read, ?_⟩
    rw [formed.trimmedStereotype.trim_eq, String.ofList_toList, same]

/-! ## Names that are read back -/

/-- The dotted form of a type does not begin like a comment and is read as that type. -/
structure IsReadBack (name : TypeName) : Prop where
  uncommented : ∀ first ∈ name.dotted.toList.head?, first ≠ '#' ∧ first ≠ '!'
  same : TypeName.parse? name.dotted = some name

instance : DecidablePred IsReadBack := fun name =>
  decidable_of_iff
    ((name.dotted.toList.head?.all fun first => first ≠ '#' ∧ first ≠ '!') = true ∧
      TypeName.parse? name.dotted = some name)
    (by
      simp only [Option.all_eq_true, decide_eq_true_eq]
      exact ⟨fun both => ⟨both.1, both.2⟩, fun back => ⟨back.uncommented, back.same⟩⟩)

/-- Where a type is read from its dotted form, its line begins as that form does. -/
theorem IsFormedEntry.isSkipped_entryLine
    {entry : TypeName × String}
    (formed : IsFormedEntry entry)
    (same : TypeName.parse? entry.1.dotted = some entry.1) :
    isSkipped (Text.trim (entryLine entry)) = false ↔
      ∀ first ∈ entry.1.dotted.toList.head?, first ≠ '#' ∧ first ≠ '!' := by
  have trimmed := ((TypeName.parse?_dotted_iff formed.undotted formed.named).mp same).1
  rw [← TypeName.isTrimmed_replaceChar_iff '/' '.' (by decide) (by decide),
    ← TypeName.toList_dotted] at trimmed
  have nonempty : entry.1.dotted.toList ≠ [] := by
    rw [ne_eq, ← List.length_eq_zero_iff, TypeName.length_toList_dotted,
      List.length_eq_zero_iff]
    exact formed.named
  rw [formed.trim_entryLine, Text.trimStart_eq_self trimmed.first, isSkipped_append nonempty,
    isSkipped_eq_false_iff]
  exact and_iff_right nonempty

/-- An entry is found again in its line when its type is read back. -/
theorem IsFormedEntry.isReadBack_iff
    {entry : TypeName × String}
    (formed : IsFormedEntry entry) :
    IsReadBack entry.1 ↔
      isSkipped (Text.trim (entryLine entry)) = false ∧
        Reads (Text.trim (entryLine entry)) entry := by
  rw [formed.reads_entryLine_iff]
  constructor
  · intro back
    exact ⟨(formed.isSkipped_entryLine back.same).mpr back.uncommented, back.same, rfl⟩
  · rintro ⟨kept, same, _⟩
    exact ⟨(formed.isSkipped_entryLine same).mp kept, same⟩

/-- An index is read back when each of its types is; no line stands in for another. -/
theorem parse_render_iff
    {index : Components}
    (reached : index.FromFiles)
    (source : String) :
    parse source index.render = .ok index ↔ ∀ name ∈ index.types, IsReadBack name := by
  have formed := reached.isFormedEntry
  have oneLine : ∀ line ∈ index.entries.map entryLine, '\n' ∉ line :=
    List.forall_mem_map.mpr fun entry member => (formed entry member).oneLine_entryLine
  have count : ((index.entries.map entryLine).map Text.trim).length = index.entries.length := by
    rw [List.length_map, List.length_map]
  rw [parse_eq_ok_iff, toList_render, Text.lines_flatMap_lineFeed oneLine]
  constructor
  · rintro ⟨read, reads, same⟩
    have entries : index.entries = Keyed.setAll read [] := congrArg Components.entries same
    have noMore : read.length ≤ index.entries.length := by
      rw [← reads.length_eq]
      exact (List.length_filter_le _ _).trans count.le
    have all : Keyed.setAll read [] = [] ++ read :=
      Keyed.setAll_of_length_le (by simpa [← entries] using noMore)
    rw [List.nil_append, ← entries] at all
    rw [← all] at reads
    -- As many lines are read as there are, so none is skipped.
    have asMany := List.length_filter_eq_length_iff.mp (reads.length_eq.trans count.symm)
    rw [List.filter_eq_self.mpr asMany, List.forall₂_map_left_iff, List.forall₂_map_left_iff,
      List.forall₂_same] at reads
    rw [List.forall_mem_map, List.forall_mem_map] at asMany
    intro name isType
    rcases List.mem_map.mp isType with ⟨entry, member, rfl⟩
    have kept : isSkipped (Text.trim (entryLine entry)) = false := by
      simpa using asMany entry member
    exact (formed entry member).isReadBack_iff.mpr ⟨kept, reads entry member⟩
  · intro back
    have found : ∀ entry ∈ index.entries, isSkipped (Text.trim (entryLine entry)) = false ∧
        Reads (Text.trim (entryLine entry)) entry := fun entry member =>
      (formed entry member).isReadBack_iff.mp (back entry.1 (List.mem_map_of_mem member))
    refine ⟨index.entries, ?_, ?_⟩
    · have allKept : ∀ line ∈ (index.entries.map entryLine).map Text.trim,
          (! isSkipped line) = true := by
        rw [List.forall_mem_map, List.forall_mem_map]
        intro entry member
        rw [(found entry member).1]
        rfl
      rw [List.filter_eq_self.mpr allKept, List.forall₂_map_left_iff, List.forall₂_map_left_iff,
        List.forall₂_same]
      exact fun entry member => (found entry member).2
    · have distinct : (Keyed.keys ([] ++ index.entries)).Nodup := reached.reachable.nodup_types
      rw [Keyed.setAll_of_nodup distinct]
      rfl

/-! ## Files with plain names -/

/-- What stands before the first equals sign of each entry is a plain spelling. -/
def NamesPlainly (text : String) : Prop :=
  ∀ line ∈ plainLines text.toList, ∀ type stereotype,
    Text.cut? '=' line.text = some (type, stereotype) → TypeName.IsPlain (Text.trim type)

/-- A type in a line that is not skipped does not begin like a comment. -/
theorem uncommented_of_mem_plainLines
    {text type stereotype : List Char}
    {line : LogicalLine}
    (inText : line ∈ plainLines text)
    (cut : Text.cut? '=' line.text = some (type, stereotype))
    (nonempty : Text.trim type ≠ []) :
    ∀ first ∈ (Text.trim type).head?, first ≠ '#' ∧ first ≠ '!' := by
  have isLine := List.mem_map_of_mem (f := LogicalLine.text) inText
  rw [map_text_plainLines] at isLine
  rcases List.mem_filter.mp isLine with ⟨isTrimmed, kept⟩
  rcases List.mem_map.mp isTrimmed with ⟨physical, _, trimmed⟩
  have visible := (Text.isTrimmed_trim physical).first
  have uncommented := (isSkipped_eq_false_iff.mp (by simpa using kept)).2
  rw [trimmed, (Text.cut?_eq_some_iff.mp cut).1] at visible
  rw [(Text.cut?_eq_some_iff.mp cut).1] at uncommented
  cases type with
  | nil => exact absurd rfl nonempty
  | cons first rest =>
      rw [Text.head?_trim_cons (visible first rfl)]
      exact uncommented

theorem isReadBack_of_namesPlainly
    {source text : String}
    {index : Components}
    (plainly : NamesPlainly text)
    (read : parse source text = .ok index) :
    ∀ name ∈ index.types, IsReadBack name := by
  rcases parse_eq_ok_iff.mp read with ⟨found, reads, rfl⟩
  rw [← map_text_plainLines] at reads
  intro name isType
  rcases List.mem_map.mp isType with ⟨entry, member, rfl⟩
  rcases Keyed.mem_setAll member with isRead | none
  · rcases exists_of_forall₂ reads entry isRead with ⟨_, isLine, readsEntry⟩
    rcases List.mem_map.mp isLine with ⟨line, inText, rfl⟩
    rcases reads_iff.mp readsEntry with ⟨type, stereotype, cut, readType, _⟩
    have plain := plainly line inText type stereotype cut
    refine ⟨?_, TypeName.parse?_dotted_of_isPlain plain readType⟩
    rcases TypeName.eq_ofSpelling_of_isPlain plain readType with ⟨nonempty, isName⟩
    have uncommented := uncommented_of_mem_plainLines inText cut nonempty
    intro first atFirst
    rw [isName] at atFirst
    constructor
    · rintro rfl
      have inFront :=
        (TypeName.head?_dotted_ofSpelling_iff (by decide) (by decide) _).mp atFirst
      exact (uncommented _ inFront).1 rfl
    · rintro rfl
      have inFront :=
        (TypeName.head?_dotted_ofSpelling_iff (by decide) (by decide) _).mp atFirst
      exact (uncommented _ inFront).2 rfl
  · cases none

instance (text : String) : Decidable (NamesPlainly text) :=
  decidable_of_iff
    (∀ line ∈ plainLines text.toList,
      ((Text.cut? '=' line.text).all fun sides =>
        decide (TypeName.IsPlain (Text.trim sides.1))) = true)
    (by simp [NamesPlainly, Option.all_eq_true])

/--
An index that reading, merging and filtering can build is read back from its own
text exactly when the dotted form of each of its types is read as that type and
does not begin like a comment.  The index of a file with plain names always is.
-/
theorem parse_render_dotted :
    (∀ index : Components, index.FromFiles → ∀ source,
      (parse source index.render = .ok index ↔ ∀ name ∈ index.types, IsReadBack name)) ∧
    ∀ (source text : String) (index : Components),
      parse source text = .ok index → NamesPlainly text →
      ∀ other, parse other index.render = .ok index := by
  constructor
  · exact fun index reached source => parse_render_iff reached source
  · intro source text index read plainly other
    exact (parse_render_iff (.parsed read) other).mpr (isReadBack_of_namesPlainly plainly read)

/-- Types in all spellings; the last three are no types that a plain spelling can name. -/
def mixedSpellings : String :=
  "p/A=x\n [[Lp.B; = y\nL#c;=z\nLLq;;=\nL d;=w\n"

/--
Each of the three types alone keeps an index from being read back: one begins like
a comment, one has the shape of a descriptor and one has a blank end.
-/
theorem parse_render_dotted_mixedSpellings :
    ∃ index plain,
      parse "a" mixedSpellings = .ok index ∧
        index.types = [⟨"p/A"⟩, ⟨"p/B"⟩, ⟨"#c"⟩, ⟨"Lq;"⟩, ⟨" d"⟩] ∧
        (∀ kept, kept = index.filtered [⟨"#c"⟩, ⟨"Lq;"⟩, ⟨" d"⟩] →
          parse "b" kept.render = .ok kept) ∧
        (∀ bad ∈ [(⟨"#c"⟩ : TypeName), ⟨"Lq;"⟩, ⟨" d"⟩],
          ∀ alone, alone = index.filtered (index.types.filter (· ≠ bad)) →
            parse "b" alone.render ≠ .ok alone) ∧
        parse "a" "p/A=x\nq.B = y\n" = .ok plain ∧
        parse "b" (index.merge plain).render ≠ .ok (index.merge plain) ∧
        parse "b" plain.render = .ok plain := by
  have readMixed : parse "a" mixedSpellings =
      .ok ⟨[(⟨"p/A"⟩, "x"), (⟨"p/B"⟩, "y"), (⟨"#c"⟩, "z"), (⟨"Lq;"⟩, ""), (⟨" d"⟩, "w")]⟩ := by
    decide +kernel
  have readPlain : parse "a" "p/A=x\nq.B = y\n" =
      .ok ⟨[(⟨"p/A"⟩, "x"), (⟨"q/B"⟩, "y")]⟩ := by
    decide +kernel
  refine ⟨_, _, readMixed, rfl, ?_, ?_, readPlain, ?_, ?_⟩
  · rintro kept rfl
    exact (parse_render_dotted.1 _ (.filtered (.parsed readMixed) _) "b").mpr (by decide +kernel)
  · rintro bad isBad alone rfl
    rw [ne_eq, parse_render_dotted.1 _ (.filtered (.parsed readMixed) _) "b"]
    revert bad
    decide +kernel
  · rw [ne_eq, parse_render_dotted.1 _ (.merged (.parsed readMixed) (.parsed readPlain)) "b"]
    decide +kernel
  · exact parse_render_dotted.2 "a" _ _ readPlain (by decide +kernel) "b"

end Components

end TypeReach.Index
