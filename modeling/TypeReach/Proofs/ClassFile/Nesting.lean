import TypeReach.Proofs.ClassFile.Pool

/-!
# How deep values nest

An element value is written over a pool as a tree of constants, arrays and
annotations.  Any such tree is read as what was written, as long as it nests no
deeper than the limit.  One that nests deeper is refused for that reason and no
other, whatever it is made of and wherever the deep part stands, because all that
stands before it is read.

Arrays and annotations count alike: each puts its parts one level below itself.
-/

namespace TypeReach

/-! ## Heights -/

namespace ElementValue

mutual

/-- How deep a value nests; one without parts nests one level. -/
def height : ElementValue → Nat
  | constant _ => 1
  | enumConstant _ _ => 1
  | typeToken _ => 1
  | inner _ elements => highestElement elements + 1
  | array items => highest items + 1

/-- The height of the highest of some values. -/
def highest : List ElementValue → Nat
  | [] => 0
  | item :: rest => max item.height (highest rest)

/-- The height of the highest value of some elements. -/
def highestElement : List (String × ElementValue) → Nat
  | [] => 0
  | (_, value) :: rest => max value.height (highestElement rest)

end

theorem highest_le_iff
    {items : List ElementValue} {depth : Nat} :
    highest items ≤ depth ↔ ∀ item ∈ items, item.height ≤ depth := by
  induction items with
  | nil => simp [highest]
  | cons item rest inductive_hypothesis =>
      rw [highest, Nat.max_le, inductive_hypothesis, List.forall_mem_cons]

theorem highestElement_le_iff
    {elements : List (String × ElementValue)} {depth : Nat} :
    highestElement elements ≤ depth ↔ ∀ element ∈ elements, element.2.height ≤ depth := by
  induction elements with
  | nil => simp [highestElement]
  | cons element rest inductive_hypothesis =>
      rw [highestElement, Nat.max_le, inductive_hypothesis, List.forall_mem_cons]

theorem height_pos (value : ElementValue) : 0 < value.height := by
  cases value <;> simp [height]

end ElementValue

namespace ClassFile

/-! ## Readers that may refuse -/

namespace Reader

/--
Whatever precedes and follows them, these bytes are read as a value under some
condition, and without it they are refused.
-/
structure ReadsIf
    (reader : Reader α) (chunk : List UInt8) (value : α) (fault : Fault) (condition : Prop) :
    Prop where
  reads : condition → ∀ offset, reader.Reads offset chunk value
  refuses : ¬ condition → ∀ offset rest, reader ⟨offset, chunk ++ rest⟩ = .error fault

namespace ReadsIf

variable {reader : Reader α} {chunk : List UInt8} {value : α} {fault : Fault} {condition : Prop}

/-- What is read in any case. -/
theorem always
    (reads : ∀ offset, reader.Reads offset chunk value)
    (holds : condition) :
    reader.ReadsIf chunk value fault condition :=
  ⟨fun _ => reads, fun fails => absurd holds fails⟩

theorem congr
    {other : Prop}
    (readsIf : reader.ReadsIf chunk value fault condition)
    (same : other ↔ condition) :
    reader.ReadsIf chunk value fault other :=
  ⟨fun holds => readsIf.reads (same.mp holds),
    fun fails => readsIf.refuses fun holds => fails (same.mpr holds)⟩

/-- Bytes one after the other are read under both conditions. -/
theorem bind
    {first second : List UInt8} {before : β} {left right : Prop}
    {reading : Reader β} {following : β → Reader α}
    (start : reading.ReadsIf first before fault left)
    (rest : (following before).ReadsIf second value fault right) :
    (reading >>= following).ReadsIf (first ++ second) value fault (left ∧ right) where
  reads both offset := (start.reads both.1 offset).bind (rest.reads both.2 _)
  refuses fails offset following := by
    rw [Reader.run_bind, List.append_assoc]
    by_cases holds : left
    · rw [start.reads holds offset]
      exact rest.refuses (fun also => fails ⟨holds, also⟩) _ following
    · rw [start.refuses holds offset]

/-- What stands before is read in any case. -/
theorem after
    {first second : List UInt8} {before : β}
    {reading : Reader β} {following : β → Reader α}
    (start : ∀ offset, reading.Reads offset first before)
    (rest : (following before).ReadsIf second value fault condition) :
    (reading >>= following).ReadsIf (first ++ second) value fault condition :=
  ((always start trivial).bind rest).congr (iff_of_eq (true_and condition).symm)

theorem map
    (readsIf : reader.ReadsIf chunk value fault condition) (change : α → β) :
    (reader >>= fun value => pure (change value)).ReadsIf chunk (change value) fault
      condition where
  reads holds offset := (readsIf.reads holds offset).map change
  refuses fails offset rest := by
    rw [run_bind, readsIf.refuses fails offset rest]

variable {values : List α} {chunks : List (List UInt8)} {good : α → Prop}

/-- Values one after the other are read if each of them can be. -/
theorem repeated
    (each : List.Forall₂
      (fun value chunk => reader.ReadsIf chunk value fault (good value)) values chunks) :
    (Reader.repeated reader chunks.length).ReadsIf chunks.flatten values fault
      (∀ value ∈ values, good value) := by
  induction each with
  | nil => exact .always (.pure []) (List.forall_mem_nil _)
  | cons first _ inductive_hypothesis =>
      exact (first.bind (inductive_hypothesis.map _)).congr List.forall_mem_cons

theorem counted
    (fits : chunks.length < 65536)
    (each : List.Forall₂
      (fun value chunk => reader.ReadsIf chunk value fault (good value)) values chunks) :
    (Reader.counted reader).ReadsIf (withCount chunks) values fault
      (∀ value ∈ values, good value) := by
  refine .after (reads_u2 (.ofNat chunks.length)) ?_
  rw [UInt16.toNat_ofNat_of_lt' fits]
  exact repeated each

end ReadsIf

end Reader

/-! ## How values are written -/

/-- A constant under an index of a pool, for a tag that tells its kind. -/
inductive Holds (pool : ConstantPool) (index : UInt16) : Char → Constant → Prop where
  | byte (found : pool.get index = .ok (.integer number)) : Holds pool index 'B' (.int number)
  | short (found : pool.get index = .ok (.integer number)) : Holds pool index 'S' (.int number)
  | int (found : pool.get index = .ok (.integer number)) : Holds pool index 'I' (.int number)
  | bool (found : pool.get index = .ok (.integer number)) :
      Holds pool index 'Z' (.bool (number ≠ 0))
  | char (found : pool.get index = .ok (.integer character.val.toInt32)) :
      Holds pool index 'C' (.char character)
  /-- A number that is the code of no character. -/
  | noChar (found : pool.get index = .ok (.integer number))
      (invalid : ¬ number.toUInt32.toNat.isValidChar) :
      Holds pool index 'C' (.char '\uFFFD')
  | long (found : pool.get index = .ok (.long number)) : Holds pool index 'J' (.long number)
  | float (found : pool.get index = .ok (.float bits)) : Holds pool index 'F' (.float bits)
  | double (found : pool.get index = .ok (.double bits)) : Holds pool index 'D' (.double bits)
  | text (found : pool.get index = .ok (.utf8 content)) : Holds pool index 's' (.text content)

/-- How an element is written, given how values are. -/
inductive WritesElement (pool : ConstantPool) (writes : ElementValue → List UInt8 → Prop) :
    String × ElementValue → List UInt8 → Prop where
  | intro (named : pool.get index = .ok (.utf8 key)) (written : writes value bytes) :
      WritesElement pool writes (key, value) (bytes2 index ++ bytes)

/-- How an annotation is written, given how values are. -/
inductive WritesUseWith (pool : ConstantPool) (writes : ElementValue → List UInt8 → Prop) :
    AnnotationUse → List UInt8 → Prop where
  | intro (found : pool.get index = .ok (.utf8 descriptor))
      (named : TypeName.ofDescriptor? descriptor = some type)
      (fits : chunks.length < 65536)
      (written : List.Forall₂ (WritesElement pool writes) elements chunks) :
      WritesUseWith pool writes ⟨type, elements⟩ (bytes2 index ++ withCount chunks)

/-- How a value is written: a tag, and then what the tag asks for. -/
inductive WritesValue (pool : ConstantPool) : ElementValue → List UInt8 → Prop where
  | constant (held : Holds pool index tag content) :
      WritesValue pool (.constant content) (tag.toUInt8 :: bytes2 index)
  | enumConstant (typed : pool.get typeIndex = .ok (.utf8 type))
      (named : pool.get nameIndex = .ok (.utf8 name)) :
      WritesValue pool (.enumConstant type name)
        ('e'.toUInt8 :: (bytes2 typeIndex ++ bytes2 nameIndex))
  | typeToken (found : pool.get index = .ok (.utf8 descriptor)) :
      WritesValue pool (.typeToken descriptor) ('c'.toUInt8 :: bytes2 index)
  | inner (written : WritesUseWith pool (WritesValue pool) ⟨type, elements⟩ bytes) :
      WritesValue pool (.inner type elements) ('@'.toUInt8 :: bytes)
  | array (fits : chunks.length < 65536)
      (written : List.Forall₂ (WritesValue pool) items chunks) :
      WritesValue pool (.array items) ('['.toUInt8 :: withCount chunks)

/-- How an annotation is written. -/
abbrev WritesUse (pool : ConstantPool) : AnnotationUse → List UInt8 → Prop :=
  WritesUseWith pool (WritesValue pool)

/-! ## How they are read -/

section Reading

variable {pool : ConstantPool}

theorem charOf_toInt32 (character : Char) :
    charOf character.val.toInt32 = character := by
  have valid : character.toNat.isValidChar := character.valid
  show (if character.toNat.isValidChar then Char.ofNat character.toNat else _) = character
  rw [if_pos valid, Char.ofNat_toNat]

theorem Holds.reads_readTagged
    {index : UInt16} {tag : Char} {content : Constant}
    (held : Holds pool index tag content) (readNested : Reader ElementValue) (offset : Nat) :
    (readTagged pool readNested tag.toUInt8).Reads offset (bytes2 index)
      (.constant content) := by
  have integer {number : Int32} (found : pool.get index = .ok (.integer number)) :=
    Reader.reads_indexed (ConstantPool.integer_of_get found) offset
  cases held with
  | byte found => exact (integer found).map _
  | short found => exact (integer found).map _
  | int found => exact (integer found).map _
  | bool found => exact (integer found).map _
  | char found =>
      have reads := (integer found).map fun number => ElementValue.constant (.char (charOf number))
      rw [charOf_toInt32] at reads
      exact reads
  | noChar found invalid =>
      have reads := (integer found).map fun number => ElementValue.constant (.char (charOf number))
      rw [charOf, if_neg invalid] at reads
      exact reads
  | long found => exact (Reader.reads_indexed (ConstantPool.long_of_get found) offset).map _
  | float found => exact (Reader.reads_indexed (ConstantPool.float_of_get found) offset).map _
  | double found => exact (Reader.reads_indexed (ConstantPool.double_of_get found) offset).map _
  | text found => exact (Reader.reads_indexed (ConstantPool.text_of_get found) offset).map _

section Nested

variable {writes : ElementValue → List UInt8 → Prop} {reader : Reader ElementValue}
  {fault : Fault} {good : ElementValue → Prop}

theorem readsIf_readElement
    (each : ∀ value bytes, writes value bytes → reader.ReadsIf bytes value fault (good value))
    {element : String × ElementValue} {bytes : List UInt8}
    (written : WritesElement pool writes element bytes) :
    (readElement pool reader).ReadsIf bytes element fault (good element.2) := by
  cases written with
  | intro named written =>
      exact .after (Reader.reads_indexed (ConstantPool.text_of_get named))
        ((each _ _ written).map _)

/-- An annotation is read if each of its values can be. -/
theorem readsIf_readUseWith
    (each : ∀ value bytes, writes value bytes → reader.ReadsIf bytes value fault (good value))
    {use : AnnotationUse} {bytes : List UInt8}
    (written : WritesUseWith pool writes use bytes) :
    (readUseWith pool reader).ReadsIf bytes use fault
      (∀ element ∈ use.elements, good element.2) := by
  cases written with
  | intro found named fits written =>
      have elements := Reader.ReadsIf.counted fits
        (written.imp fun _ _ => readsIf_readElement each)
      exact .after (reads_readAnnotationType found named) (elements.map _)

end Nested

/-- A value is read if it nests no deeper than the reader goes, and refused if it does. -/
theorem readsIf_readValue
    {value : ElementValue} {bytes : List UInt8}
    (written : WritesValue pool value bytes) (depth : Nat) :
    (readValue pool depth).ReadsIf bytes value .tooDeep (value.height ≤ depth) := by
  -- What nests in a value is read with one level less, so the depth decreases, whatever nests.
  induction depth generalizing value bytes with
  | zero =>
      refine ⟨fun shallow => absurd value.height_pos (by omega), fun _ _ _ => rfl⟩
  | succ depth inductive_hypothesis =>
      cases written with
      | constant held =>
          exact .after (Reader.reads_u1 _)
            (.always (held.reads_readTagged _) (Nat.le_add_left 1 depth))
      | enumConstant typed named =>
          refine .after (Reader.reads_u1 _) (.always (fun offset => ?_) (Nat.le_add_left 1 depth))
          exact (Reader.reads_indexed (ConstantPool.text_of_get typed) offset).bind
            ((Reader.reads_indexed (ConstantPool.text_of_get named) _).map _)
      | typeToken found =>
          refine .after (Reader.reads_u1 _) (.always (fun offset => ?_) (Nat.le_add_left 1 depth))
          exact (Reader.reads_indexed (ConstantPool.text_of_get found) offset).map _
      | inner written =>
          have use := readsIf_readUseWith (fun _ _ => inductive_hypothesis) written
          refine .after (Reader.reads_u1 _) ((use.map _).congr ?_)
          rw [ElementValue.height, Nat.add_le_add_iff_right, ElementValue.highestElement_le_iff]
      | array fits written =>
          have items := Reader.ReadsIf.counted fits
            (written.imp fun _ _ => inductive_hypothesis)
          refine .after (Reader.reads_u1 _) ((items.map _).congr ?_)
          rw [ElementValue.height, Nat.add_le_add_iff_right, ElementValue.highest_le_iff]

theorem readsIf_readUse
    {use : AnnotationUse} {bytes : List UInt8} (written : WritesUse pool use bytes) :
    (readUse pool).ReadsIf bytes use .tooDeep
      (∀ element ∈ use.elements, element.2.height ≤ depthLimit) :=
  readsIf_readUseWith (fun _ _ written => readsIf_readValue written depthLimit) written

/--
An annotation is read as what was written, up to its last byte, as long as none of
its values nests deeper than 64 levels.  If one does, the annotation is refused as
nested too deep.
-/
theorem readUse_nesting_exact
    {use : AnnotationUse} {bytes : List UInt8} (written : WritesUse pool use bytes)
    (offset : Nat) (rest : List UInt8) :
    ((∀ element ∈ use.elements, element.2.height ≤ 64) →
      readUse pool ⟨offset, bytes ++ rest⟩ = .ok (use, ⟨offset + bytes.length, rest⟩)) ∧
    ((∃ element ∈ use.elements, 64 < element.2.height) →
      readUse pool ⟨offset, bytes ++ rest⟩ = .error .tooDeep) := by
  have readsIf := readsIf_readUse written
  constructor
  · intro shallow
    exact readsIf.reads shallow offset rest
  · rintro ⟨element, member, deep⟩
    exact readsIf.refuses (fun shallow => absurd (shallow element member) (Nat.not_le.mpr deep))
      offset rest

end Reading

/-! ## Towers -/

namespace Tower

/-- A pool with the descriptor of an annotation type and the key of an element. -/
def pool : ConstantPool :=
  ⟨#[none, some (.utf8 "Lfix/Mark;"), some (.utf8 "value")]⟩

/-- Arrays and annotations in turn, one inside the other, around an empty array. -/
def value : Nat → ElementValue
  | 0 => .array []
  | levels + 1 =>
    if levels % 2 = 0 then .inner ⟨"fix/Mark"⟩ [("value", value levels)]
    else .array [value levels]

def bytes : Nat → List UInt8
  | 0 => '['.toUInt8 :: withCount []
  | levels + 1 =>
    if levels % 2 = 0 then '@'.toUInt8 :: (bytes2 1 ++ withCount [bytes2 2 ++ bytes levels])
    else '['.toUInt8 :: withCount [bytes levels]

theorem height_value (levels : Nat) :
    (value levels).height = levels + 1 := by
  induction levels with
  | zero => rfl
  | succ levels inductive_hypothesis =>
      rw [value]
      split <;>
        simp [ElementValue.height, ElementValue.highest, ElementValue.highestElement,
          inductive_hypothesis]

theorem writesValue (levels : Nat) :
    WritesValue pool (value levels) (bytes levels) := by
  induction levels with
  | zero => exact .array (by decide) .nil
  | succ levels inductive_hypothesis =>
      rw [value, bytes]
      split
      · exact .inner (.intro rfl (by decide +kernel) (by simp)
          (.cons (.intro rfl inductive_hypothesis) .nil))
      · exact .array (by simp) (.cons inductive_hypothesis .nil)

/-- A flat element before a tower. -/
def use (levels : Nat) : AnnotationUse :=
  ⟨⟨"fix/Mark"⟩, [("value", .array []), ("value", value levels)]⟩

def useBytes (levels : Nat) : List UInt8 :=
  bytes2 1 ++ withCount [bytes2 2 ++ bytes 0, bytes2 2 ++ bytes levels]

theorem writesUse (levels : Nat) :
    WritesUse pool (use levels) (useBytes levels) :=
  .intro rfl (by decide +kernel) (by simp)
    (.cons (.intro rfl (writesValue 0)) (.cons (.intro rfl (writesValue levels)) .nil))

end Tower

theorem readUse_nesting_exact_tower :
    (Tower.value 63).height = 64 ∧
      readUse Tower.pool ⟨7, Tower.useBytes 63 ++ [1, 2]⟩ =
        .ok (Tower.use 63, ⟨7 + (Tower.useBytes 63).length, [1, 2]⟩) ∧
      (Tower.value 64).height = 65 ∧
      readUse Tower.pool ⟨7, Tower.useBytes 64 ++ [1, 2]⟩ = .error .tooDeep := by
  have highest : (Tower.value 63).height = 64 := Tower.height_value 63
  have higher : (Tower.value 64).height = 65 := Tower.height_value 64
  refine ⟨highest, ?_, higher, ?_⟩
  · apply (readUse_nesting_exact (Tower.writesUse 63) 7 [1, 2]).1
    simp [Tower.use, highest, ElementValue.height, ElementValue.highest]
  · apply (readUse_nesting_exact (Tower.writesUse 64) 7 [1, 2]).2
    exact ⟨("value", Tower.value 64), by simp [Tower.use], by simp [higher]⟩

end ClassFile

end TypeReach
