import TypeReach.Proofs.Text.ByteOrder
import TypeReach.Proofs.Text.Lines
import TypeReach.TypeName

/-!
# Names that were read

A name that was read, in whatever spelling, has slashes where the spelling had
dots.  The dotted form of such a name differs from the slashed one only where a
dot stands for a slash.  No character lies between the two, so names come in the
same order by their dotted forms as by their slashed ones.

A spelling is plain or it is a reference under some brackets.  Only a plain one
is as long as its name, so a name is read back from its dotted form exactly when
that form is plain and has no blank end.
-/

namespace TypeReach.TypeName

/-! ## Spellings -/

/-- A spelling that is taken as it stands: neither an array nor a descriptor. -/
structure IsPlain (spelling : List Char) : Prop where
  unbracketed : spelling.head? ≠ some '['
  undescribed : ∀ inner, inner ≠ [] → spelling ≠ 'L' :: inner ++ [';']

theorem referred?_eq_some_iff {text inner : List Char} :
    referred? text = some inner ↔ inner ≠ [] ∧ text = 'L' :: inner ++ [';'] := by
  unfold referred?
  split
  · rename_i rest
    split
    · rename_i first more found
      have ends := Text.before?_eq_some_iff.mp found
      rw [ends, Option.some.injEq]
      constructor
      · rintro rfl
        exact ⟨List.cons_ne_nil _ _, rfl⟩
      · rintro ⟨_, same⟩
        exact List.append_cancel_right (List.cons.inj same).2
    · rename_i noInner
      constructor
      · intro impossible
        cases impossible
      · rintro ⟨nonempty, same⟩
        rcases List.exists_cons_of_ne_nil nonempty with ⟨first, more, rfl⟩
        exact absurd (Text.before?_eq_some_iff.mpr (List.cons.inj same).2) (noInner first more)
  · rename_i noReference
    constructor
    · intro impossible
      cases impossible
    · rintro ⟨_, rfl⟩
      exact absurd rfl (noReference _)

theorem referred?_eq_none_iff {text : List Char} :
    referred? text = none ↔ ∀ inner, inner ≠ [] → text ≠ 'L' :: inner ++ [';'] := by
  rw [Option.eq_none_iff_forall_ne_some]
  simp only [ne_eq, referred?_eq_some_iff, not_and]

instance : DecidablePred IsPlain := fun spelling =>
  decidable_of_iff (spelling.head? ≠ some '[' ∧ referred? spelling = none)
    ⟨fun both => ⟨both.1, referred?_eq_none_iff.mp both.2⟩,
      fun plain => ⟨plain.unbracketed, referred?_eq_none_iff.mpr plain.undescribed⟩⟩

theorem ofDescriptorChars?_eq_some_iff {text : List Char} {name : TypeName} :
    ofDescriptorChars? text = some name ↔
      ∃ dimensions inner, inner ≠ [] ∧
        text = List.replicate dimensions '[' ++ ('L' :: inner ++ [';']) ∧
        name = ofSpelling inner := by
  simp only [ofDescriptorChars?, Option.map_eq_some_iff, referred?_eq_some_iff]
  constructor
  · rintro ⟨inner, ⟨nonempty, rest⟩, rfl⟩
    refine ⟨(text.takeWhile (· = '[')).length, inner, nonempty, ?_, rfl⟩
    have brackets : text.takeWhile (· = '[') =
        List.replicate (text.takeWhile (· = '[')).length '[' := by
      apply List.eq_replicate_of_mem
      intro character member
      simpa using List.mem_takeWhile_imp member
    rw [← brackets, ← rest, List.takeWhile_append_dropWhile]
  · rintro ⟨dimensions, inner, nonempty, rfl, rfl⟩
    refine ⟨inner, ⟨nonempty, ?_⟩, rfl⟩
    rw [List.dropWhile_append_of_pos (by simp)]
    rfl

/-- What is read: a plain spelling as it stands, or what a reference under brackets names. -/
theorem parseChars?_eq_some_iff {raw : List Char} {name : TypeName} :
    parseChars? raw = some name ↔
      (Text.trim raw ≠ [] ∧ IsPlain (Text.trim raw) ∧ name = ofSpelling (Text.trim raw)) ∨
        ∃ dimensions inner, inner ≠ [] ∧
          Text.trim raw = List.replicate dimensions '[' ++ ('L' :: inner ++ [';']) ∧
          name = ofSpelling inner := by
  rw [← ofDescriptorChars?_eq_some_iff]
  unfold parseChars?
  cases Text.trim raw with
  | nil => simp [ofDescriptorChars?, referred?]
  | cons first rest =>
      dsimp only
      by_cases bracket : first = '['
      · rw [if_pos bracket]
        constructor
        · exact Or.inr
        · rintro (⟨_, plain, _⟩ | read)
          · exact absurd (congrArg some bracket) plain.unbracketed
          · exact read
      · have unbracketed : (first :: rest).dropWhile (· = '[') = first :: rest := by
          simp [bracket]
        rw [if_neg bracket, ofDescriptorChars?, unbracketed]
        cases found : referred? (first :: rest) with
        | some inner =>
            rcases referred?_eq_some_iff.mp found with ⟨nonempty, described⟩
            constructor
            · exact Or.inr
            · rintro (⟨_, plain, _⟩ | read)
              · exact absurd described (plain.undescribed inner nonempty)
              · exact read
        | none =>
            have plain : IsPlain (first :: rest) :=
              ⟨fun same => bracket (Option.some.inj same), referred?_eq_none_iff.mp found⟩
            simp [plain, eq_comm]

/-! ## What names hold -/

theorem toList_slashed_ofSpelling (spelling : List Char) :
    (ofSpelling spelling).slashed.toList = Text.replaceChar '.' '/' spelling :=
  String.toList_ofList

theorem length_slashed_ofSpelling (spelling : List Char) :
    (ofSpelling spelling).slashed.toList.length = spelling.length := by
  rw [toList_slashed_ofSpelling, Text.replaceChar, List.length_map]

/-- A character of a name is a slash or one of the spelling that is no dot. -/
theorem mem_slashed_ofSpelling
    {spelling : List Char} {character : Char}
    (member : character ∈ (ofSpelling spelling).slashed.toList) :
    character = '/' ∨ character ∈ spelling ∧ character ≠ '.' := by
  rw [toList_slashed_ofSpelling] at member
  rcases List.mem_map.mp member with ⟨original, inSpelling, replaced⟩
  split at replaced
  · exact Or.inl replaced.symm
  · rename_i other
    exact Or.inr ⟨replaced ▸ inSpelling, replaced ▸ other⟩

theorem dot_not_mem_ofSpelling (spelling : List Char) :
    '.' ∉ (ofSpelling spelling).slashed.toList := by
  intro member
  rcases mem_slashed_ofSpelling member with slash | ⟨_, other⟩
  · cases slash
  · exact other rfl

/-- Whatever the spelling is, a part of it is taken for the dotted or slashed form. -/
theorem exists_ofSpelling_of_parseChars?
    {raw : List Char} {name : TypeName}
    (read : parseChars? raw = some name) :
    ∃ spelling, spelling ≠ [] ∧ spelling <:+: raw ∧ name = ofSpelling spelling := by
  rcases parseChars?_eq_some_iff.mp read with
    ⟨nonempty, _, rfl⟩ | ⟨dimensions, inner, nonempty, shape, rfl⟩
  · exact ⟨_, nonempty, Text.trim_isInfix raw, rfl⟩
  · refine ⟨inner, nonempty, List.IsInfix.trans ?_ (Text.trim_isInfix raw), rfl⟩
    exact ⟨List.replicate dimensions '[' ++ ['L'], [';'], by simp [shape]⟩

theorem slashed_ne_nil_of_parseChars?
    {raw : List Char} {name : TypeName}
    (read : parseChars? raw = some name) :
    name.slashed.toList ≠ [] := by
  rcases exists_ofSpelling_of_parseChars? read with ⟨spelling, nonempty, _, rfl⟩
  rw [ne_eq, ← List.length_eq_zero_iff, length_slashed_ofSpelling, List.length_eq_zero_iff]
  exact nonempty

theorem dot_not_mem_of_parseChars?
    {raw : List Char} {name : TypeName}
    (read : parseChars? raw = some name) :
    '.' ∉ name.slashed.toList := by
  rcases exists_ofSpelling_of_parseChars? read with ⟨spelling, _, _, rfl⟩
  exact dot_not_mem_ofSpelling spelling

/-! ## Dotted forms -/

theorem toList_dotted (name : TypeName) :
    name.dotted.toList = Text.replaceChar '/' '.' name.slashed.toList :=
  String.toList_ofList

theorem mem_slashed_of_mem_dotted
    {name : TypeName} {character : Char}
    (member : character ∈ name.dotted.toList)
    (other : character ≠ '.') :
    character ∈ name.slashed.toList := by
  rw [toList_dotted] at member
  rcases List.mem_map.mp member with ⟨original, inName, replaced⟩
  split at replaced
  · exact absurd replaced.symm other
  · exact replaced ▸ inName

theorem length_toList_dotted (name : TypeName) :
    name.dotted.toList.length = name.slashed.toList.length := by
  rw [toList_dotted, Text.replaceChar, List.length_map]

theorem ofSpelling_slashed
    {name : TypeName}
    (undotted : '.' ∉ name.slashed.toList) :
    ofSpelling name.slashed.toList = name := by
  have kept : Text.replaceChar '.' '/' name.slashed.toList = name.slashed.toList := by
    refine (List.map_congr_left ?_).trans (List.map_id _)
    intro character member
    have other : character ≠ '.' := fun same => undotted (same ▸ member)
    exact if_neg other
  rw [ofSpelling, kept, String.ofList_toList]

theorem toList_descriptor (name : TypeName) :
    name.descriptor.toList = 'L' :: name.slashed.toList ++ [';'] := by
  rw [descriptor, String.toList_append, String.toList_append]
  rfl

/-- The descriptor of a type names that type. -/
theorem ofDescriptor?_descriptor
    {type : TypeName}
    (named : type.slashed ≠ "")
    (undotted : '.' ∉ type.slashed.toList) :
    ofDescriptor? type.descriptor = some type := by
  have nonempty : type.slashed.toList ≠ [] := fun empty => named (String.toList_eq_nil_iff.mp empty)
  rw [ofDescriptor?, toList_descriptor, ofDescriptorChars?_eq_some_iff]
  exact ⟨0, type.slashed.toList, nonempty, rfl, (ofSpelling_slashed undotted).symm⟩

theorem ofSpelling_dotted
    {name : TypeName}
    (undotted : '.' ∉ name.slashed.toList) :
    ofSpelling name.dotted.toList = name := by
  have back : Text.replaceChar '.' '/' name.dotted.toList = name.slashed.toList := by
    rw [toList_dotted, Text.replaceChar, Text.replaceChar, List.map_map]
    refine (List.map_congr_left ?_).trans (List.map_id _)
    intro character member
    have noDot : character ≠ '.' := fun same => undotted (same ▸ member)
    by_cases slash : character = '/' <;> simp [slash, noDot]
  rw [ofSpelling, back, String.ofList_toList]

/-- Characters other than the two are replaced in no place. -/
theorem replaced_eq_iff
    {old new target : Char}
    (notOld : target ≠ old)
    (notNew : target ≠ new)
    (character : Char) :
    (if character = old then new else character) = target ↔ character = target := by
  split_ifs with same
  · simp [same, notOld.symm, notNew.symm]
  · rfl

/-- The shape of a spelling does not depend on how packages are separated. -/
theorem isPlain_replaceChar_iff
    (old new : Char)
    (shapeless : ∀ mark ∈ ['[', 'L', ';'], mark ≠ old ∧ mark ≠ new)
    (spelling : List Char) :
    IsPlain (Text.replaceChar old new spelling) ↔ IsPlain spelling := by
  have kept : ∀ mark ∈ ['[', 'L', ';'], ∀ character,
      (if character = old then new else character) = mark ↔ character = mark :=
    fun mark isMark =>
      replaced_eq_iff (shapeless mark isMark).1 (shapeless mark isMark).2
  have bracket : (Text.replaceChar old new spelling).head? = some '[' ↔
      spelling.head? = some '[' := by
    rw [Text.replaceChar, List.head?_map, Option.map_eq_some_iff]
    simp [kept]
  have described : (∃ inner, inner ≠ [] ∧
      Text.replaceChar old new spelling = 'L' :: inner ++ [';']) ↔
        ∃ inner, inner ≠ [] ∧ spelling = 'L' :: inner ++ [';'] := by
    constructor
    · rintro ⟨inner, nonempty, shape⟩
      rw [Text.replaceChar, List.map_eq_append_iff] at shape
      rcases shape with ⟨front, back, rfl, isFront, isBack⟩
      rcases List.map_eq_cons_iff.mp isFront with ⟨first, middle, rfl, isFirst, isMiddle⟩
      rcases List.map_eq_singleton_iff.mp isBack with ⟨last, rfl, isLast⟩
      rw [kept 'L' (by simp)] at isFirst
      rw [kept ';' (by simp)] at isLast
      refine ⟨middle, ?_, by rw [isFirst, isLast]⟩
      rintro rfl
      exact nonempty isMiddle.symm
    · rintro ⟨inner, nonempty, rfl⟩
      refine ⟨Text.replaceChar old new inner, by simpa [Text.replaceChar] using nonempty, ?_⟩
      have first := (kept 'L' (by simp) 'L').mpr rfl
      have last := (kept ';' (by simp) ';').mpr rfl
      simp [Text.replaceChar, first, last]
  constructor
  · intro plain
    refine ⟨fun first => plain.unbracketed (bracket.mpr first), ?_⟩
    intro inner nonempty shape
    rcases described.mpr ⟨inner, nonempty, shape⟩ with ⟨replaced, stillNonempty, replacedShape⟩
    exact plain.undescribed replaced stillNonempty replacedShape
  · intro plain
    refine ⟨fun first => plain.unbracketed (bracket.mp first), ?_⟩
    intro inner nonempty shape
    rcases described.mp ⟨inner, nonempty, shape⟩ with ⟨original, stillNonempty, originalShape⟩
    exact plain.undescribed original stillNonempty originalShape

theorem isTrimmed_replaceChar_iff
    (old new : Char)
    (oldVisible : Text.isBlank old = false)
    (newVisible : Text.isBlank new = false)
    (text : List Char) :
    Text.IsTrimmed (Text.replaceChar old new text) ↔ Text.IsTrimmed text := by
  have same : ∀ character, Text.isBlank (if character = old then new else character) =
      Text.isBlank character := by
    intro character
    split_ifs with isOld
    · rw [isOld, oldVisible, newVisible]
    · rfl
  have first : (∀ character ∈ (Text.replaceChar old new text).head?,
      Text.isBlank character = false) ↔
        ∀ character ∈ text.head?, Text.isBlank character = false := by
    simp [Text.replaceChar, List.head?_map, same]
  have last : (∀ character ∈ (Text.replaceChar old new text).getLast?,
      Text.isBlank character = false) ↔
        ∀ character ∈ text.getLast?, Text.isBlank character = false := by
    simp [Text.replaceChar, List.getLast?_map, same]
  exact ⟨fun trimmed => ⟨first.mp trimmed.first, last.mp trimmed.last⟩,
    fun trimmed => ⟨first.mpr trimmed.first, last.mpr trimmed.last⟩⟩

/--
A spelling is taken as it stands exactly when it has no blank end and the shape of
neither an array nor a descriptor.
-/
theorem parseChars?_eq_ofSpelling_iff
    {spelling : List Char}
    (nonempty : spelling ≠ []) :
    parseChars? spelling = some (ofSpelling spelling) ↔
      Text.IsTrimmed spelling ∧ IsPlain spelling := by
  constructor
  · intro read
    have noLonger := (Text.trim_isInfix spelling).length_le
    rcases parseChars?_eq_some_iff.mp read with
      ⟨_, plain, same⟩ | ⟨dimensions, inner, _, shape, same⟩
    · have untrimmed : Text.trim spelling = spelling := by
        apply (Text.trim_isInfix _).eq_of_length
        rw [← length_slashed_ofSpelling, ← same, length_slashed_ofSpelling]
      rw [untrimmed] at plain
      exact ⟨untrimmed ▸ Text.isTrimmed_trim _, plain⟩
    · -- What a reference names is shorter than the reference.
      rw [shape, ← length_slashed_ofSpelling spelling, same, length_slashed_ofSpelling] at noLonger
      simp only [List.length_append, List.length_replicate, List.length_cons,
        List.length_nil] at noLonger
      omega
  · rintro ⟨trimmed, plain⟩
    refine parseChars?_eq_some_iff.mpr (Or.inl ?_)
    rw [trimmed.trim_eq]
    exact ⟨nonempty, plain, rfl⟩

/--
A name is read back from its dotted form exactly when it has no blank end and the
shape of neither an array nor a descriptor.
-/
theorem parse?_dotted_iff
    {name : TypeName}
    (undotted : '.' ∉ name.slashed.toList)
    (nonempty : name.slashed.toList ≠ []) :
    parse? name.dotted = some name ↔
      Text.IsTrimmed name.slashed.toList ∧ IsPlain name.slashed.toList := by
  have dottedNonempty : name.dotted.toList ≠ [] := by
    rw [ne_eq, ← List.length_eq_zero_iff, length_toList_dotted, List.length_eq_zero_iff]
    exact nonempty
  have whole := parseChars?_eq_ofSpelling_iff dottedNonempty
  rw [ofSpelling_dotted undotted] at whole
  rw [parse?, whole, toList_dotted, isTrimmed_replaceChar_iff '/' '.' (by decide) (by decide),
    isPlain_replaceChar_iff '/' '.' (by simp)]

theorem eq_ofSpelling_of_isPlain
    {raw : List Char}
    {name : TypeName}
    (plain : IsPlain (Text.trim raw))
    (read : parseChars? raw = some name) :
    Text.trim raw ≠ [] ∧ name = ofSpelling (Text.trim raw) := by
  have nonempty : Text.trim raw ≠ [] := by
    intro empty
    simp [parseChars?, empty] at read
  have asItStands := parseChars?_eq_some_iff.mpr (Or.inl ⟨nonempty, plain, rfl⟩)
  exact ⟨nonempty, Option.some.inj (read.symm.trans asItStands)⟩

/-- A name that was read from a plain spelling has no blank end and is plain itself. -/
theorem isTrimmed_and_isPlain_slashed
    {raw : List Char}
    {name : TypeName}
    (plain : IsPlain (Text.trim raw))
    (read : parseChars? raw = some name) :
    Text.IsTrimmed name.slashed.toList ∧ IsPlain name.slashed.toList := by
  rcases eq_ofSpelling_of_isPlain plain read with ⟨_, rfl⟩
  rw [toList_slashed_ofSpelling, isTrimmed_replaceChar_iff '.' '/' (by decide) (by decide),
    isPlain_replaceChar_iff '.' '/' (by simp)]
  exact ⟨Text.isTrimmed_trim raw, plain⟩

/-- A name that was read from a plain spelling is read back from its dotted form. -/
theorem parse?_dotted_of_isPlain
    {raw : List Char}
    {name : TypeName}
    (plain : IsPlain (Text.trim raw))
    (read : parseChars? raw = some name) :
    parse? name.dotted = some name := by
  have undotted := dot_not_mem_of_parseChars? read
  have nonempty := slashed_ne_nil_of_parseChars? read
  exact (parse?_dotted_iff undotted nonempty).mpr (isTrimmed_and_isPlain_slashed plain read)

/-- A dotted form begins as the spelling does, unless that begins with a separator. -/
theorem head?_dotted_ofSpelling_iff
    {mark : Char}
    (notDot : mark ≠ '.')
    (notSlash : mark ≠ '/')
    (spelling : List Char) :
    (ofSpelling spelling).dotted.toList.head? = some mark ↔ spelling.head? = some mark := by
  rw [toList_dotted, toList_slashed_ofSpelling, Text.replaceChar, Text.replaceChar, List.map_map,
    List.head?_map, Option.map_eq_some_iff]
  simp only [Function.comp_apply, replaced_eq_iff notSlash notDot,
    replaced_eq_iff notDot notSlash]
  simp

/-- The dotted forms of names without a dot are in the order of the slashed ones. -/
theorem dotted_lt_dotted
    {left right : TypeName}
    (inLeft : '.' ∉ left.slashed.toList)
    (inRight : '.' ∉ right.slashed.toList)
    (before : left.slashed < right.slashed) :
    left.dotted < right.dotted := by
  rw [String.lt_iff, dotted, dotted, String.toList_ofList, String.toList_ofList]
  exact Text.replaceChar_lt_replaceChar (by decide) inLeft inRight before

end TypeReach.TypeName
