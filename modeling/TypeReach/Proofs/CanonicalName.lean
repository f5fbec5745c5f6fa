import TypeReach.Proofs.TypeName

/-!
# Canonical names

A name that was read is read again from its descriptor, whatever it is spelled
like.  From its slashed and its dotted form it is read again exactly when these
are taken as they stand.  A name within a descriptor may itself have blank ends,
a bracket in front or the shape of a reference, and then it is lost.  A name that
was read from a plain spelling never is, so a plain name has one key in all of its
three forms, and is the same after it was stored.
-/

namespace TypeReach.TypeName

/-! ## Shapes by size -/

/-- The shape of a reference's descriptor: its two marks, and at least one more byte. -/
structure IsReference (text : String) : Prop where
  first : text.toList.head? = some 'L'
  last : text.toList.getLast? = some ';'
  size : 2 < text.utf8ByteSize

theorem isReference_iff
    {text : String} :
    IsReference text ↔ ∃ inner, inner ≠ [] ∧ text.toList = 'L' :: inner ++ [';'] := by
  have spelled : ∀ inner, text.toList = 'L' :: inner ++ [';'] →
      text.utf8ByteSize = (String.ofList inner).utf8ByteSize + 2 := by
    intro inner letters
    have whole : text = "L" ++ String.ofList inner ++ ";" := by
      rw [← String.toList_inj, letters]
      simp
    have marks : "L".utf8ByteSize = 1 ∧ ";".utf8ByteSize = 1 := ⟨rfl, rfl⟩
    rw [whole, String.utf8ByteSize_append, String.utf8ByteSize_append, marks.1, marks.2]
    omega
  constructor
  · rintro ⟨first, last, size⟩
    rcases List.head?_eq_some_iff.mp first with ⟨rest, letters⟩
    rcases List.getLast?_eq_some_iff.mp last with ⟨front, ends⟩
    cases front with
    | nil =>
        rw [letters] at ends
        cases ends
    | cons mark inner =>
        rw [letters, List.cons_append, List.cons.injEq] at ends
        rw [ends.2] at letters
        refine ⟨inner, ?_, letters⟩
        rintro rfl
        rw [spelled [] letters] at size
        exact absurd size (by decide)
  · rintro ⟨inner, nonempty, letters⟩
    refine ⟨by simp [letters], ?_, ?_⟩
    · rw [letters, List.getLast?_concat]
    · have taken : (String.ofList inner).utf8ByteSize ≠ 0 := by
        rw [ne_eq, String.utf8ByteSize_eq_zero_iff, ← String.toList_eq_nil_iff,
          String.toList_ofList]
        exact nonempty
      rw [spelled inner letters]
      omega

/-- A text that is neither an array's descriptor nor a reference's. -/
def IsUndescribed (text : String) : Prop :=
  text.toList.head? ≠ some '[' ∧ ¬ IsReference text

theorem isPlain_toList_iff
    {text : String} :
    IsPlain text.toList ↔ IsUndescribed text := by
  rw [IsUndescribed, isReference_iff, not_exists]
  constructor
  · intro plain
    refine ⟨plain.unbracketed, ?_⟩
    rintro inner ⟨nonempty, letters⟩
    exact plain.undescribed inner nonempty letters
  · rintro ⟨unbracketed, undescribed⟩
    exact ⟨unbracketed, fun inner nonempty letters => undescribed inner ⟨nonempty, letters⟩⟩

/-! ## Reading names again -/

/-- The marks of a descriptor keep blank ends of the name within it from being dropped. -/
theorem parse?_descriptor
    {name : TypeName}
    (undotted : '.' ∉ name.slashed.toList)
    (nonempty : name.slashed.toList ≠ []) :
    parse? name.descriptor = some name := by
  have trimmed : Text.trim name.descriptor.toList = 'L' :: name.slashed.toList ++ [';'] := by
    rw [toList_descriptor]
    apply Text.IsTrimmed.trim_eq
    constructor
    · simp [show Text.isBlank 'L' = false from rfl]
    · rw [List.getLast?_concat]
      simp [show Text.isBlank ';' = false from rfl]
  refine parseChars?_eq_some_iff.mpr (Or.inr ⟨0, name.slashed.toList, nonempty, trimmed, ?_⟩)
  exact (ofSpelling_slashed undotted).symm

theorem parse?_slashed_iff
    {name : TypeName}
    (undotted : '.' ∉ name.slashed.toList)
    (nonempty : name.slashed.toList ≠ []) :
    parse? name.slashed = some name ↔
      Text.IsTrimmed name.slashed.toList ∧ IsPlain name.slashed.toList := by
  have whole := parseChars?_eq_ofSpelling_iff nonempty
  rw [ofSpelling_slashed undotted] at whole
  exact whole

theorem parse_eq_ok_iff
    {raw : String} {name : TypeName} :
    parse raw = .ok name ↔ parse? raw = some name := by
  unfold parse
  cases parse? raw <;> simp

/--
A name that was read is not empty, has no dot and is read again from its
descriptor.  It is read again from its slashed form, and from its dotted one,
exactly when it has no blank end and is no descriptor itself.  That is so for
every name that was not read from a descriptor; such a name has one key in its
three forms, and is read back from where it was stored.
-/
theorem parse?_canonical
    {raw : String} {name : TypeName}
    (read : parse? raw = some name) :
    let standsForItself := Text.IsTrimmed name.slashed.toList ∧ IsUndescribed name.slashed
    name.slashed ≠ "" ∧ '.' ∉ name.slashed.toList ∧
      parse? name.descriptor = some name ∧
      (parse? name.slashed = some name ↔ standsForItself) ∧
      (parse? name.dotted = some name ↔ standsForItself) ∧
      (IsUndescribed (String.ofList (Text.trim raw.toList)) →
        standsForItself ∧
          (∀ spelling ∈ [name.dotted, name.slashed, name.descriptor],
            parse? spelling = some name) ∧
          parse name.dotted = .ok name) := by
  intro standsForItself
  have nonempty := slashed_ne_nil_of_parseChars? read
  have undotted := dot_not_mem_of_parseChars? read
  have described := parse?_descriptor undotted nonempty
  have slashed := parse?_slashed_iff undotted nonempty
  have dotted := parse?_dotted_iff undotted nonempty
  rw [isPlain_toList_iff] at slashed dotted
  refine ⟨?_, undotted, described, slashed, dotted, ?_⟩
  · rw [ne_eq, ← String.toList_eq_nil_iff]
    exact nonempty
  · intro plain
    rw [← isPlain_toList_iff, String.toList_ofList] at plain
    have stands : standsForItself := by
      have kept := isTrimmed_and_isPlain_slashed plain read
      rw [isPlain_toList_iff] at kept
      exact kept
    refine ⟨stands, ?_, parse_eq_ok_iff.mpr (dotted.mpr stands)⟩
    simp [described, slashed.mpr stands, dotted.mpr stands]

/--
A name with the shape of a reference, within the descriptor of an array, is read
again from its own descriptor only.  A padded plain name is read back after it was
stored.
-/
theorem parse?_canonical_withinArray :
    (parse? "[[LLx;;" = some ⟨"Lx;"⟩ ∧ parse? "LLx;;" = some ⟨"Lx;"⟩ ∧
        parse? "Lx;" ≠ some ⟨"Lx;"⟩) ∧
      parse? " a.b/C " = some ⟨"a/b/C"⟩ ∧ parse "a.b.C" = .ok ⟨"a/b/C"⟩ := by
  have array : parse? "[[LLx;;" = some ⟨"Lx;"⟩ := by decide +kernel
  have padded : parse? " a.b/C " = some ⟨"a/b/C"⟩ := by decide +kernel
  have dotted : dotted ⟨"a/b/C"⟩ = "a.b.C" := by decide +kernel
  have plain : IsUndescribed (String.ofList (Text.trim " a.b/C ".toList)) :=
    isPlain_toList_iff.mp (by decide +kernel)
  have inner := parse?_canonical array
  have outer := (parse?_canonical padded).2.2.2.2.2 plain
  refine ⟨⟨array, inner.2.2.1, ?_⟩, padded, ?_⟩
  · intro read
    have stands := inner.2.2.2.1.mp read
    exact stands.2.2 ⟨by decide +kernel, by decide +kernel, by decide +kernel⟩
  · rw [← dotted]
    exact outer.2.2

end TypeReach.TypeName
