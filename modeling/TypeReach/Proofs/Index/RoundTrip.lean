import Mathlib.Data.List.Forall2
import TypeReach.Proofs.Index.Formed
import TypeReach.Proofs.Index.Rendering
import TypeReach.Proofs.Keyed

/-!
# Reading a rendered index back

The lines of `n` entries never form more than `n` logical lines, and each
logical line gives one key at most.  So an index is read back from its own
rendering exactly when the logical lines of the rendering are read as the
entries of the index, one by one.  That fails for two reasons only: a key that
begins like a comment, whose first line is skipped, and a last value that ends
in an odd number of backslashes, by which the entry takes over the next one or
loses a backslash.
-/

namespace TypeReach.Index.Factories

/-! ## Reading logical lines -/

/-- A logical line is read as an entry. -/
def Reads (text : List Char) (entry : String × List String) : Prop :=
  readLine text = .ok entry

theorem takesOver_addLines (source : String) :
    TakesOver readLine (fun index entry => ⟨Keyed.set entry.1 entry.2 index.entries⟩)
      (addLines source) where
  nil _ := rfl
  refused failed _ _ := by
    rw [addLines, failed]
    exact ⟨_, rfl⟩
  taken read _ _ := by
    rw [addLines, read]

/-- Lines are taken over when each is read as an entry, and these are set in order. -/
theorem addLines_eq_ok_iff
    {source : String}
    {lines : List LogicalLine}
    {index result : Factories} :
    addLines source lines index = .ok result ↔
      ∃ read, List.Forall₂ Reads (lines.map LogicalLine.text) read ∧
        result = ⟨Keyed.setAll read index.entries⟩ := by
  have entries : ∀ read : List (String × List String),
      read.foldl (fun index entry => (⟨Keyed.set entry.1 entry.2 index.entries⟩ : Factories))
        index = ⟨Keyed.setAll read index.entries⟩ :=
    fun read => (List.foldl_hom Factories.mk fun _ _ => rfl)
  rw [(takesOver_addLines source).eq_ok_iff]
  simp only [entries]
  rfl

/-- A key and the values in a text are read from the line that they form. -/
theorem reads_append_cons
    {key : String}
    (atom : IsAtom '=' key)
    (text : List Char) :
    Reads (key.toList ++ '=' :: text) (key, readValues text) := by
  have cut : Text.cut? '=' (key.toList ++ '=' :: text) = some (key.toList, text) :=
    Text.cut?_eq_some_iff.mpr ⟨rfl, atom.undivided⟩
  simp [Reads, readLine, cut, atom.trimmed.trim_eq, atom.nonempty]

theorem readValues_intercalate
    {texts : List (List Char)}
    (undivided : ∀ text ∈ texts, ',' ∉ text) :
    readValues ([','].intercalate texts) =
      ((texts.map Text.trim).filter (! ·.isEmpty)).map String.ofList := by
  cases texts with
  | nil => decide
  | cons text rest =>
      rw [readValues,
        List.splitOn_intercalate ',' undivided (List.cons_ne_nil _ _)]

/-- Values that are atoms are found as they are. -/
theorem map_trim_filter
    {values : List String}
    (atoms : ∀ value ∈ values, IsAtom ',' value) :
    (((values.map String.toList).map Text.trim).filter (! ·.isEmpty)).map String.ofList =
      values := by
  induction values with
  | nil => rfl
  | cons value rest inductive_hypothesis =>
      rcases List.forall_mem_cons.mp atoms with ⟨here, below⟩
      rw [List.map_cons, List.map_cons, here.trimmed.trim_eq,
        List.filter_cons_of_pos (by simpa using here.nonempty), List.map_cons,
        String.ofList_toList, inductive_hypothesis below]

theorem reads_entryText
    {entry : String × List String}
    (formed : IsFormedEntry entry) :
    Reads (entryText entry) entry := by
  have undivided : ∀ text ∈ valueTexts entry, ',' ∉ text :=
    List.forall_mem_map.mpr fun value member => (formed.values value member).undivided
  have values : readValues ([','].intercalate (valueTexts entry)) = entry.2 := by
    rw [readValues_intercalate undivided, valueTexts, map_trim_filter formed.values]
  have reads := reads_append_cons formed.key ([','].intercalate (valueTexts entry))
  rwa [values] at reads

/-- A key is read that begins as the line begins from whose front it is taken. -/
theorem Reads.head?_key
    {line text : List Char}
    {entry : String × List String}
    (reads : Reads text entry)
    (visible : ∀ first ∈ line.head?, Text.isBlank first = false)
    (inFront : text <+: line) :
    entry.1.toList.head? = line.head? := by
  rcases inFront with ⟨rest, rfl⟩
  unfold Reads readLine at reads
  split at reads
  · cases reads
  · rename_i key values cut
    rcases Text.cut?_eq_some_iff.mp cut with ⟨rfl, _⟩
    split_ifs at reads with blank
    cases reads
    cases key with
    | nil => exact absurd rfl blank
    | cons first more =>
        have kept : Text.isBlank first = false := visible first rfl
        simp [Text.head?_trim_cons kept]

theorem intercalate_append_append
    (separator : List Char)
    (texts : List (List Char))
    (left right : List Char) :
    separator.intercalate (texts ++ [left ++ right]) =
      separator.intercalate (texts ++ [left]) ++ right := by
  induction texts with
  | nil => simp
  | cons text rest inductive_hypothesis =>
      rw [List.cons_append, List.cons_append, List.intercalate_cons_of_ne_nil (by simp),
        List.intercalate_cons_of_ne_nil (by simp), inductive_hypothesis]
      simp only [List.append_assoc]

/-- Values whose text lacks its last character are other values. -/
theorem readValues_dropLast_ne
    {values : List String}
    (atoms : ∀ value ∈ values, IsAtom ',' value)
    (nonempty : values ≠ []) :
    readValues ([','].intercalate (values.map String.toList)).dropLast ≠ values := by
  rcases List.eq_nil_or_concat values with rfl | ⟨front, last, rfl⟩
  · exact absurd rfl nonempty
  rw [List.concat_eq_append] at atoms ⊢
  rcases List.forall_mem_append.mp atoms with ⟨inFront, inLast⟩
  have lastAtom := inLast last List.mem_cons_self
  rcases List.eq_nil_or_concat last.toList with empty | ⟨shorter, character, split⟩
  · exact absurd empty lastAtom.nonempty
  rw [List.concat_eq_append] at split
  have undivided : ∀ text ∈ front.map String.toList ++ [shorter], ',' ∉ text := by
    refine List.forall_mem_append.mpr ⟨?_, ?_⟩
    · exact List.forall_mem_map.mpr fun value member => (inFront value member).undivided
    · intro text member inside
      rw [List.mem_singleton.mp member] at inside
      exact lastAtom.undivided (split ▸ List.mem_append_left _ inside)
  rw [List.map_append, List.map_singleton, split, intercalate_append_append,
    List.dropLast_concat, readValues_intercalate undivided, List.map_append,
    List.filter_append, List.map_append, map_trim_filter inFront]
  intro same
  -- All that is left to be read as the last value is shorter than it.
  have lastRead := List.append_cancel_left same ▸ List.mem_singleton_self last
  rcases List.mem_map.mp lastRead with ⟨text, kept, isLast⟩
  have isTrimmed : text = Text.trim shorter :=
    List.mem_singleton.mp (List.mem_of_mem_filter kept)
  have shrunk := (Text.trim_isInfix shorter).length_le
  rw [← isTrimmed, ← String.toList_ofList (l := text), isLast, split,
    List.length_append] at shrunk
  exact Nat.not_succ_le_self _ shrunk

/-- An entry that is continued without its last backslash is not read back. -/
theorem not_reads_of_continued?
    {entry : String × List String}
    (formed : IsFormedEntry entry)
    {head : List Char}
    (continues : continued? (entryText entry) = some head) :
    ¬ Reads head entry := by
  have equals : '=' ≠ '\\' := by decide
  rw [entryText, continued?_append_cons _ equals, Option.map_eq_some_iff] at continues
  rcases continues with ⟨shorter, inValues, rfl⟩
  rcases eq_dropLast_of_continued? inValues with ⟨rfl, hasValues⟩
  intro reads
  have values := congrArg Prod.snd
    (Except.ok.inj ((reads_append_cons formed.key _).symm.trans reads))
  refine readValues_dropLast_ne formed.values ?_ values
  intro empty
  simp [valueTexts, empty] at hasValues

theorem continued?_intercalate_eq_none_iff (values : List String) :
    continued? ([','].intercalate (values.map String.toList)) = none ↔
      ∀ last ∈ values.getLast?, continued? last.toList = none := by
  induction values with
  | nil => decide
  | cons value rest inductive_hypothesis =>
      cases rest with
      | nil => simp
      | cons next rest =>
          have comma : ',' ≠ '\\' := by decide
          rw [List.map_cons, List.map_cons, List.intercalate_cons_cons, List.append_assoc,
            List.singleton_append, continued?_append_cons _ comma, Option.map_eq_none_iff,
            ← List.map_cons, inductive_hypothesis, List.getLast?_cons_cons]

/-! ## Entries that are read back -/

/--
The key of an entry does not begin like a comment, and its last value does not
end in an odd number of backslashes.
-/
structure IsPlain (entry : String × List String) : Prop where
  uncommented : ∀ first ∈ entry.1.toList.head?, first ≠ '#' ∧ first ≠ '!'
  closed : ∀ last ∈ entry.2.getLast?, ¬ Odd (endingBackslashes last.toList)

instance : DecidablePred IsPlain := fun entry =>
  decidable_of_iff
    ((entry.1.toList.head?.all fun first => first ≠ '#' ∧ first ≠ '!') = true ∧
      (entry.2.getLast?.all fun last => ¬ Odd (endingBackslashes last.toList)) = true)
    (by
      simp only [Option.all_eq_true, decide_eq_true_eq]
      exact ⟨fun both => ⟨both.1, both.2⟩, fun plain => ⟨plain.uncommented, plain.closed⟩⟩)

theorem isPlain_iff
    {entry : String × List String}
    (formed : IsFormedEntry entry) :
    IsPlain entry ↔
      isSkipped entry.1.toList = false ∧ continued? (entryText entry) = none := by
  have equals : '=' ≠ '\\' := by decide
  have uncommented : isSkipped entry.1.toList = false ↔
      ∀ first ∈ entry.1.toList.head?, first ≠ '#' ∧ first ≠ '!' := by
    cases key : entry.1.toList with
    | nil => exact absurd key formed.key.nonempty
    | cons first rest => simp [isSkipped]
  have closed : continued? (entryText entry) = none ↔
      ∀ last ∈ entry.2.getLast?, ¬ Odd (endingBackslashes last.toList) := by
    rw [entryText, continued?_append_cons _ equals, Option.map_eq_none_iff, valueTexts,
      continued?_intercalate_eq_none_iff]
    simp only [continued?_eq_none_iff]
  rw [uncommented, closed]
  exact ⟨fun plain => ⟨plain.uncommented, plain.closed⟩, fun both => ⟨both.1, both.2⟩⟩

/-! ## Logical lines of a rendering -/

theorem joinTexts_begun_entryLines
    (begun : List Char)
    (entry : String × List String)
    (rest : List (List Char)) :
    joinTexts (some begun) (entryLines entry ++ rest) =
      joinTexts (some begun) (entryText entry :: rest) := by
  rw [entryLines, joinTexts_valueLines, entryText, List.append_assoc, List.singleton_append]

theorem isSkipped_entryText
    {entry : String × List String}
    (formed : IsFormedEntry entry) :
    isSkipped (entryText entry) = isSkipped entry.1.toList :=
  isSkipped_append formed.key.nonempty _

theorem joinTexts_entryLines
    {entry : String × List String}
    (formed : IsFormedEntry entry)
    (kept : isSkipped entry.1.toList = false)
    (rest : List (List Char)) :
    joinTexts none (entryLines entry ++ rest) = joinTexts none (entryText entry :: rest) := by
  have text : entryText entry =
      (entry.1.toList ++ ['=']) ++ [','].intercalate (valueTexts entry) := by
    rw [entryText, List.append_assoc, List.singleton_append]
  rw [← isSkipped_entryText formed, text] at kept
  rw [entryLines, joinTexts_none_valueLines kept, text]

theorem IsFormedEntry.trimmed_key
    {entry : String × List String}
    (formed : IsFormedEntry entry) :
    Text.IsTrimmed (entry.1.toList ++ ['=']) :=
  formed.key.trimmed.append (Text.isTrimmed_singleton (by decide))

theorem IsFormedEntry.trimmed_values
    {entry : String × List String}
    (formed : IsFormedEntry entry) :
    ∀ value ∈ valueTexts entry, Text.IsTrimmed value :=
  List.forall_mem_map.mpr fun value member => (formed.values value member).trimmed

theorem IsFormedEntry.trimmed_of_mem
    {entry : String × List String}
    (formed : IsFormedEntry entry)
    {line : List Char}
    (member : line ∈ entryLines entry) :
    Text.IsTrimmed line := by
  have ending : Text.IsTrimmed [',', '\\'] :=
    (Text.isTrimmed_singleton (by decide)).append (Text.isTrimmed_singleton (by decide))
  exact forall_mem_valueLines Text.IsTrimmed.append Text.isTrimmed_nil ending
    formed.trimmed_key formed.trimmed_values line member

theorem IsFormedEntry.oneLine_of_mem
    {entry : String × List String}
    (formed : IsFormedEntry entry)
    {line : List Char}
    (member : line ∈ entryLines entry) :
    '\n' ∉ line := by
  have together : ∀ {left right : List Char},
      '\n' ∉ left → '\n' ∉ right → '\n' ∉ left ++ right := by
    intro left right inLeft inRight inside
    exact (List.mem_append.mp inside).elim inLeft inRight
  have values : ∀ value ∈ valueTexts entry, '\n' ∉ value :=
    List.forall_mem_map.mpr fun value member => (formed.values value member).oneLine
  exact forall_mem_valueLines together List.not_mem_nil (by decide)
    (together formed.key.oneLine (by decide)) values line member

/--
Lines form at most a given number of logical lines, one of which may have begun
before them.
-/
def JoinAtMost (bound : Nat) (lines : List (List Char)) : Prop :=
  (joinTexts none lines).length ≤ bound ∧
    ∀ begun, (joinTexts (some begun) lines).length ≤ max 1 bound

/-- One line more forms one logical line more at most. -/
theorem length_joinTexts_cons_le
    {bound : Nat}
    {lines : List (List Char)}
    (bounded : JoinAtMost bound lines)
    (line : List Char) :
    (joinTexts none (line :: lines)).length ≤ bound + 1 ∧
      ∀ begun, (joinTexts (some begun) (line :: lines)).length ≤ bound + 1 := by
  rcases bounded with ⟨unbegun, begun⟩
  have fromText : ∀ text, (joinTexts (some text) (line :: lines)).length ≤ bound + 1 := by
    intro text
    unfold joinTexts
    cases continued? line with
    | some head => exact (begun _).trans (by omega)
    | none => exact Nat.succ_le_succ unbegun
  refine ⟨?_, fromText⟩
  cases skipped : isSkipped line with
  | true =>
      rw [joinTexts_of_isSkipped skipped]
      exact Nat.le_succ_of_le unbegun
  | false =>
      rw [joinTexts_of_not_isSkipped skipped]
      exact fromText []

/-- There are no more logical lines than entries. -/
theorem joinAtMost_entryLines
    {entries : List (String × List String)}
    (formed : ∀ entry ∈ entries, IsFormedEntry entry) :
    JoinAtMost entries.length (entries.flatMap entryLines) := by
  induction entries with
  | nil => exact ⟨Nat.le_refl 0, fun begun => Nat.le_refl 1⟩
  | cons entry rest inductive_hypothesis =>
      rcases List.forall_mem_cons.mp formed with ⟨here, below⟩
      have bounded := length_joinTexts_cons_le (inductive_hypothesis below)
      rcases exists_joinTexts_valueLines here.trimmed_key here.trimmed_values with
        ⟨line, _, joined⟩
      rw [List.flatMap_cons]
      constructor
      · rw [entryLines, joined]
        exact (bounded line).1
      · intro begun
        rw [joinTexts_begun_entryLines]
        exact ((bounded _).2 begun).trans (Nat.le_max_right _ _)

/--
Where a line and the lines of some entries are read as one entry more, the line
is not skipped, and it goes on only where no entry follows.
-/
theorem exists_reads_of_forall₂
    {line : List Char}
    {entry : String × List String}
    {rest : List (String × List String)}
    (formed : ∀ other ∈ rest, IsFormedEntry other)
    (read : List.Forall₂ Reads (joinTexts none (line :: rest.flatMap entryLines))
      (entry :: rest)) :
    isSkipped line = false ∧
      ((continued? line = none ∧ Reads line entry ∧
          List.Forall₂ Reads (joinTexts none (rest.flatMap entryLines)) rest) ∨
        ∃ head, continued? line = some head ∧ Reads head entry) := by
  rcases joinAtMost_entryLines formed with ⟨unbegun, begun⟩
  have length := read.length_eq
  rw [List.length_cons] at length
  cases skipped : isSkipped line with
  | true =>
      rw [joinTexts_of_isSkipped skipped] at length
      omega
  | false =>
      refine ⟨rfl, ?_⟩
      unfold joinTexts at read length
      rw [skipped] at read length
      cases continues : continued? line with
      | none =>
          rw [continues] at read
          cases read with
          | cons reads below => exact Or.inl ⟨rfl, reads, below⟩
      | some head =>
          rw [continues] at read length
          have bound := begun head
          have last : rest = [] := by
            apply List.eq_nil_of_length_eq_zero
            simp only [Bool.false_eq_true, if_false] at length
            omega
          subst last
          cases read with
          | cons reads _ => exact Or.inr ⟨head, rfl, reads⟩

/-- Entries that are read back one by one have neither of the two shapes. -/
theorem isPlain_of_forall₂
    {entries : List (String × List String)}
    (formed : ∀ entry ∈ entries, IsFormedEntry entry)
    (read : List.Forall₂ Reads (joinTexts none (entries.flatMap entryLines)) entries) :
    ∀ entry ∈ entries, IsPlain entry := by
  induction entries with
  | nil => simp
  | cons entry rest inductive_hypothesis =>
      rcases List.forall_mem_cons.mp formed with ⟨here, below⟩
      rw [List.flatMap_cons] at read
      have uncommented : isSkipped entry.1.toList = false := by
        rcases exists_joinTexts_valueLines here.trimmed_key here.trimmed_values with
          ⟨line, visible, joined⟩
        rw [entryLines, joined] at read
        rcases exists_reads_of_forall₂ below read with ⟨kept, ⟨_, reads, _⟩ | ⟨head, more, reads⟩⟩
        · rw [isSkipped_congr (reads.head?_key visible (List.prefix_refl line)), kept]
        · rw [(eq_dropLast_of_continued? more).1] at reads
          rw [isSkipped_congr (reads.head?_key visible ( List.dropLast_prefix line)), kept]
      rw [joinTexts_entryLines here uncommented] at read
      rcases exists_reads_of_forall₂ below read with ⟨_, ⟨ends, _, following⟩ | ⟨_, more, reads⟩⟩
      · refine List.forall_mem_cons.mpr ⟨?_, inductive_hypothesis below following⟩
        exact (isPlain_iff here).mpr ⟨uncommented, ends⟩
      · exact absurd reads (not_reads_of_continued? here more)

/-- Entries of neither shape have one logical line each. -/
theorem joinTexts_flatMap_entryLines
    {entries : List (String × List String)}
    (formed : ∀ entry ∈ entries, IsFormedEntry entry)
    (plain : ∀ entry ∈ entries, IsPlain entry) :
    joinTexts none (entries.flatMap entryLines) = entries.map entryText := by
  induction entries with
  | nil => rfl
  | cons entry rest inductive_hypothesis =>
      rcases List.forall_mem_cons.mp formed with ⟨here, below⟩
      rcases List.forall_mem_cons.mp plain with ⟨plainHere, plainBelow⟩
      rcases (isPlain_iff here).mp plainHere with ⟨uncommented, ends⟩
      rw [List.flatMap_cons, joinTexts_entryLines here uncommented, joinTexts,
        isSkipped_entryText here, uncommented, ends, List.map_cons,
        inductive_hypothesis below plainBelow]
      rfl

theorem forall₂_reads_iff
    {entries : List (String × List String)}
    (formed : ∀ entry ∈ entries, IsFormedEntry entry) :
    List.Forall₂ Reads (joinTexts none (entries.flatMap entryLines)) entries ↔
      ∀ entry ∈ entries, IsPlain entry := by
  refine ⟨isPlain_of_forall₂ formed, ?_⟩
  intro plain
  rw [joinTexts_flatMap_entryLines formed plain, List.forall₂_map_left_iff, List.forall₂_same]
  exact fun entry member => reads_entryText (formed entry member)

theorem map_text_logicalLines_render
    {index : Factories}
    (formed : ∀ entry ∈ index.entries, IsFormedEntry entry) :
    (logicalLines index.render.toList).map LogicalLine.text =
      joinTexts none (index.entries.flatMap entryLines) := by
  have oneLine : ∀ line ∈ index.entries.flatMap entryLines, '\n' ∉ line := by
    intro line member
    rcases List.mem_flatMap.mp member with ⟨entry, entryMember, isLine⟩
    exact (formed entry entryMember).oneLine_of_mem isLine
  have trimmed : (index.entries.flatMap entryLines).map Text.trim =
      index.entries.flatMap entryLines := by
    refine (List.map_congr_left ?_).trans (List.map_id _)
    intro line member
    rcases List.mem_flatMap.mp member with ⟨entry, entryMember, isLine⟩
    exact ((formed entry entryMember).trimmed_of_mem isLine).trim_eq
  rw [logicalLines, map_text_joinLines, toList_render, Text.lines_flatMap_lineFeed oneLine,
    trimmed]
  rfl

/-- An index is read back when the logical lines of its text are read as its entries. -/
theorem parse_render_iff_forall₂
    {index : Factories}
    (formed : index.IsFormed)
    (source : String) :
    parse source index.render = .ok index ↔
      List.Forall₂ Reads (joinTexts none (index.entries.flatMap entryLines)) index.entries := by
  rw [parse, addLines_eq_ok_iff, map_text_logicalLines_render formed.entries]
  constructor
  · rintro ⟨read, reads, same⟩
    have entries : index.entries = Keyed.setAll read [] := congrArg Factories.entries same
    have noMore := (joinAtMost_entryLines formed.entries).1
    rw [reads.length_eq, entries] at noMore
    have all : Keyed.setAll read [] = [] ++ read :=
      Keyed.setAll_of_length_le (by simpa using noMore)
    rw [List.nil_append, ← entries] at all
    rwa [← all] at reads
  · intro reads
    refine ⟨index.entries, reads, ?_⟩
    have distinct : (Keyed.keys ([] ++ index.entries)).Nodup := formed.distinct
    rw [show Factories.empty.entries = [] from rfl, Keyed.setAll_of_nodup distinct]
    rfl

/-- An index is read back from its own text unless an entry has one of the two shapes. -/
theorem IsFormed.parse_render_iff
    {index : Factories}
    (formed : index.IsFormed)
    (source : String) :
    parse source index.render = .ok index ↔ ∀ entry ∈ index.entries, IsPlain entry :=
  (parse_render_iff_forall₂ formed source).trans (forall₂_reads_iff formed.entries)

end TypeReach.Index.Factories
