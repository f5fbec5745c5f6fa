import Mathlib.Data.List.Forall2
import TypeReach.Index.Factories
import TypeReach.Proofs.Text.Lines

/-!
# What a factories index can hold

An index is built from the empty one by reading, merging and filtering.  The
texts in such an index are not arbitrary: none is empty, has a blank end or
holds a line feed, a key holds no equals sign and a value no comma.  No key
occurs twice.
-/

namespace TypeReach.Index

/-- A text that can stand on one line beside a separator and is read back from there. -/
structure IsAtom (separator : Char) (text : String) : Prop where
  nonempty : text.toList ≠ []
  trimmed : Text.IsTrimmed text.toList
  undivided : separator ∉ text.toList
  oneLine : '\n' ∉ text.toList

theorem isAtom_trim
    {separator : Char}
    {text : List Char}
    (nonempty : Text.trim text ≠ [])
    (undivided : separator ∉ text)
    (oneLine : '\n' ∉ text) :
    IsAtom separator (String.ofList (Text.trim text)) where
  nonempty := by rwa [String.toList_ofList]
  trimmed := by
    rw [String.toList_ofList]
    exact Text.isTrimmed_trim text
  undivided := by
    rw [String.toList_ofList]
    exact fun member => undivided (Text.mem_of_mem_trim member)
  oneLine := by
    rw [String.toList_ofList]
    exact fun member => oneLine (Text.mem_of_mem_trim member)

theorem subset_of_continued?
    {line head : List Char}
    (continues : continued? line = some head) :
    head ⊆ line := by
  rw [(eq_dropLast_of_continued? continues).1]
  exact List.dropLast_subset line

/-- A character that no physical line holds is in no logical line. -/
theorem not_mem_joinLines
    {character : Char}
    {number : Nat}
    {pending : Option LogicalLine}
    {lines : List (List Char)}
    (notBegun : ∀ begun ∈ pending, character ∉ begun.text)
    (absent : ∀ line ∈ lines, character ∉ line) :
    ∀ line ∈ joinLines number pending lines, character ∉ line.text := by
  fun_induction joinLines number pending lines with
  | case1 => simp
  | case2 _ begun => simpa using notBegun
  | case3 number line rest skipped inductive_hypothesis =>
      exact inductive_hypothesis notBegun (List.forall_mem_cons.mp absent).2
  | case4 number line rest _ head continues inductive_hypothesis =>
      rcases List.forall_mem_cons.mp absent with ⟨inLine, inRest⟩
      apply inductive_hypothesis _ inRest
      rintro _ ⟨rfl⟩ member
      exact inLine (subset_of_continued? continues member)
  | case5 number line rest _ ends inductive_hypothesis =>
      rcases List.forall_mem_cons.mp absent with ⟨inLine, inRest⟩
      exact List.forall_mem_cons.mpr ⟨inLine, inductive_hypothesis (by simp) inRest⟩
  | case6 number begun line rest head continues inductive_hypothesis =>
      rcases List.forall_mem_cons.mp absent with ⟨inLine, inRest⟩
      apply inductive_hypothesis _ inRest
      rintro _ ⟨rfl⟩ member
      rcases List.mem_append.mp member with before | added
      · exact notBegun begun rfl before
      · exact inLine (subset_of_continued? continues added)
  | case7 number begun line rest ends inductive_hypothesis =>
      rcases List.forall_mem_cons.mp absent with ⟨inLine, inRest⟩
      refine List.forall_mem_cons.mpr ⟨?_, inductive_hypothesis (by simp) inRest⟩
      intro member
      rcases List.mem_append.mp member with before | added
      · exact notBegun begun rfl before
      · exact inLine added

theorem lineFeed_not_mem_logicalLines
    {text : List Char}
    {line : LogicalLine}
    (member : line ∈ logicalLines text) :
    '\n' ∉ line.text := by
  refine not_mem_joinLines (by simp) ?_ line member
  intro trimmed isLine
  rcases List.mem_map.mp isLine with ⟨physical, isPhysical, rfl⟩
  exact fun inside => Text.lineFeed_not_mem_of_mem_lines isPhysical (Text.mem_of_mem_trim inside)

/-- Lines are taken over one by one, up to the first that cannot be read. -/
structure TakesOver
    (readLine : List Char → Except Defect ρ)
    (insert : ι → ρ → ι)
    (addLines : List LogicalLine → ι → Except Malformed ι) :
    Prop where
  nil : ∀ index, addLines [] index = .ok index
  refused : ∀ {line defect}, readLine line.text = .error defect →
    ∀ rest index, ∃ malformed, addLines (line :: rest) index = .error malformed
  taken : ∀ {line entry}, readLine line.text = .ok entry →
    ∀ rest index, addLines (line :: rest) index = addLines rest (insert index entry)

/-- All lines are taken over when each is read as an entry, and these are inserted in order. -/
theorem TakesOver.eq_ok_iff
    {readLine : List Char → Except Defect ρ}
    {insert : ι → ρ → ι}
    {addLines : List LogicalLine → ι → Except Malformed ι}
    (takesOver : TakesOver readLine insert addLines)
    {lines : List LogicalLine}
    {index result : ι} :
    addLines lines index = .ok result ↔
      ∃ read, List.Forall₂ (fun text entry => readLine text = .ok entry)
        (lines.map LogicalLine.text) read ∧ result = read.foldl insert index := by
  induction lines generalizing index with
  | nil =>
      rw [takesOver.nil]
      constructor
      · intro added
        exact ⟨[], .nil, (Except.ok.inj added).symm⟩
      · rintro ⟨_, ⟨⟩, rfl⟩
        rfl
  | cons line rest inductive_hypothesis =>
      cases here : readLine line.text with
      | error defect =>
          rcases takesOver.refused here rest index with ⟨malformed, failed⟩
          rw [failed]
          constructor
          · intro added
            cases added
          · rintro ⟨_, both, _⟩
            cases both with
            | cons reads _ => cases here.symm.trans reads
      | ok entry =>
          rw [takesOver.taken here, inductive_hypothesis]
          constructor
          · rintro ⟨read, below, rfl⟩
            exact ⟨entry :: read, .cons here below, rfl⟩
          · rintro ⟨_, both, rfl⟩
            cases both with
            | cons reads below =>
                cases here.symm.trans reads
                exact ⟨_, below, rfl⟩

namespace Factories

/-- The indexes that reading, merging and filtering can build. -/
inductive Reachable : Factories → Prop
  | empty : Reachable empty
  | parsed {source text : String} {index : Factories}
      (read : parse source text = .ok index) : Reachable index
  | merged {index other : Factories} (first : Reachable index) (second : Reachable other) :
      Reachable (index.merge other)
  | filtered {index : Factories} (reached : Reachable index)
      (keys : List String) (rejected : List TypeName) : Reachable (index.filtered keys rejected)

/-- A key and values that are read back from their lines. -/
structure IsFormedEntry (entry : String × List String) : Prop where
  key : IsAtom '=' entry.1
  values : ∀ value ∈ entry.2, IsAtom ',' value

/-- Keys are distinct, and all texts of an index are atoms. -/
structure IsFormed (index : Factories) : Prop where
  distinct : (Keyed.keys index.entries).Nodup
  entries : ∀ entry ∈ index.entries, IsFormedEntry entry

theorem isFormedEntry_of_readLine
    {text : List Char}
    {entry : String × List String}
    (oneLine : '\n' ∉ text)
    (read : readLine text = .ok entry) :
    IsFormedEntry entry := by
  unfold readLine at read
  split at read
  · cases read
  · rename_i key values cut
    rcases Text.cut?_eq_some_iff.mp cut with ⟨rfl, undivided⟩
    split_ifs at read with blank
    cases read
    constructor
    · apply isAtom_trim
      · simpa using blank
      · exact undivided
      · exact fun member => oneLine (List.mem_append_left _ member)
    · intro value member
      rcases List.mem_map.mp member with ⟨trimmed, kept, rfl⟩
      rcases List.mem_filter.mp kept with ⟨isTrimmed, nonempty⟩
      rcases List.mem_map.mp isTrimmed with ⟨piece, isPiece, rfl⟩
      apply isAtom_trim
      · simpa using nonempty
      · exact fun inside => (Text.mem_of_mem_splitOn isPiece inside).2 rfl
      · intro inside
        have inValues := (Text.mem_of_mem_splitOn isPiece inside).1
        exact oneLine (List.mem_append_right _ (List.mem_cons_of_mem _ inValues))

/-- Changing the values of one key keeps an index formed. -/
theorem IsFormed.alter
    {index : Factories}
    (formed : index.IsFormed)
    {entry : String × List String}
    (formedEntry : IsFormedEntry entry)
    (change : List String → List String)
    (kept : ∀ values, ∀ value ∈ change values, value ∈ values ∨ value ∈ entry.2) :
    IsFormed ⟨Keyed.alter entry.1 change entry.2 index.entries⟩ where
  distinct := Keyed.nodup_keys_alter formed.distinct _ _ _
  entries := by
    intro other member
    rcases Keyed.mem_alter member with before | rfl | ⟨old, before, rfl⟩
    · exact formed.entries other before
    · exact formedEntry
    · refine ⟨formedEntry.key, ?_⟩
      intro value inValues
      rcases kept old value inValues with inOld | inEntry
      · exact (formed.entries _ before).values value inOld
      · exact formedEntry.values value inEntry

theorem IsFormed.addLines
    {source : String}
    {lines : List LogicalLine}
    {index result : Factories}
    (oneLine : ∀ line ∈ lines, '\n' ∉ line.text)
    (formed : index.IsFormed)
    (added : addLines source lines index = .ok result) :
    result.IsFormed := by
  induction lines generalizing index with
  | nil =>
      cases added
      exact formed
  | cons line rest inductive_hypothesis =>
      rcases List.forall_mem_cons.mp oneLine with ⟨here, below⟩
      unfold Factories.addLines at added
      split at added
      · cases added
      · rename_i key values read
        refine inductive_hypothesis below ?_ added
        exact formed.alter (isFormedEntry_of_readLine here read) _ fun _ _ member => Or.inr member

theorem mem_addNew_iff
    {present added : List String}
    {value : String} :
    value ∈ addNew present added ↔ value ∈ present ∨ value ∈ added := by
  induction added generalizing present with
  | nil => simp [addNew]
  | cons new rest inductive_hypothesis =>
      have here : value ∈ (if new ∈ present then present else present ++ [new]) ↔
          value ∈ present ∨ value = new := by
        split_ifs with old
        · exact ⟨Or.inl, Or.rec id fun same => same ▸ old⟩
        · simp
      rw [addNew, List.foldl_cons]
      refine inductive_hypothesis.trans ?_
      rw [here, List.mem_cons, or_assoc]

theorem IsFormed.merge
    {index other : Factories}
    (formed : index.IsFormed)
    (otherEntries : ∀ entry ∈ other.entries, IsFormedEntry entry) :
    (index.merge other).IsFormed := by
  rcases index with ⟨entries⟩
  rcases other with ⟨others⟩
  induction others generalizing entries with
  | nil => exact formed
  | cons entry rest inductive_hypothesis =>
      rcases List.forall_mem_cons.mp otherEntries with ⟨here, below⟩
      exact inductive_hypothesis _ (formed.alter here _ fun _ _ => mem_addNew_iff.mp) below

theorem IsFormed.filtered
    {index : Factories}
    (formed : index.IsFormed)
    (keys : List String)
    (rejected : List TypeName) :
    (index.filtered keys rejected).IsFormed where
  distinct := by
    rw [keys_filtered]
    exact formed.distinct
  entries := by
    intro entry member
    rcases List.mem_map.mp member with ⟨before, beforeMember, rfl⟩
    have formedBefore := formed.entries before beforeMember
    split_ifs
    · exact ⟨formedBefore.key, fun value kept =>
        formedBefore.values value (List.mem_of_mem_filter kept)⟩
    · exact formedBefore

theorem Reachable.isFormed
    {index : Factories}
    (reached : Reachable index) :
    index.IsFormed := by
  have formedEmpty : Factories.empty.IsFormed := ⟨List.nodup_nil, by simp [Factories.empty]⟩
  induction reached with
  | empty => exact formedEmpty
  | parsed read =>
      exact formedEmpty.addLines (fun _ => lineFeed_not_mem_logicalLines) read
  | merged _ _ first second => exact first.merge second.entries
  | filtered _ keys rejected formed => exact formed.filtered keys rejected

end Factories

end TypeReach.Index
