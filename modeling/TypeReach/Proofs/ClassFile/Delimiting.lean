import TypeReach.Proofs.Outline

/-!
# Class files delimit themselves

The bytes of a class file tell where it ends.  A reader is delimited when every
success depends on the bytes that it took and on nothing after them, and when
the same bytes, cut short anywhere, make it report that they end too early, at a
place within what is left.  All readers of the decoder are delimited: those of
fixed width are, sequences of such readers are, and a reader within the body of
an attribute takes nothing itself, since the body was taken as a whole before.
-/

namespace TypeReach.ClassFile

namespace Reader

/-- A reader takes these bytes, and misses some where they are cut short. -/
structure Delimits
    (reader : Reader α) (offset : Nat) (taken : List UInt8) (value : α) :
    Prop where
  reads : reader.Reads offset taken value
  cut : ∀ front back, taken = front ++ back → back ≠ [] →
    ∃ place ≤ offset + front.length,
      reader ⟨offset, front⟩ = .error (.truncated place)

/-- Every success of a reader is one on bytes that it delimits. -/
def IsDelimited (reader : Reader α) : Prop :=
  ∀ offset bytes value after, reader ⟨offset, bytes⟩ = .ok (value, after) →
    ∃ taken, bytes = taken ++ after.rest ∧ reader.Delimits offset taken value

theorem Reads.delimits_nil
    {reader : Reader α} {offset : Nat} {value : α}
    (reads : reader.Reads offset [] value) :
    reader.Delimits offset [] value where
  reads := reads
  cut := by
    intro front back split missing
    exact absurd (List.append_eq_nil_iff.mp split.symm).2 missing

theorem Delimits.bind
    {reader : Reader α} {following : α → Reader β} {offset : Nat}
    {first second : List UInt8} {value : α} {result : β}
    (left : reader.Delimits offset first value)
    (right : (following value).Delimits (offset + first.length) second result) :
    (reader >>= following).Delimits offset (first ++ second) result where
  reads := left.reads.bind right.reads
  cut := by
    intro front back split missing
    rcases List.append_eq_append_iff.mp split with
      ⟨begun, rfl, rest⟩ | ⟨begun, whole, rest⟩
    · -- The cut lies in what comes second, which starts after the whole of the first.
      rcases right.cut begun back rest missing with ⟨place, within, refused⟩
      refine ⟨place, ?_, ?_⟩
      · rw [List.length_append, ← Nat.add_assoc]
        exact within
      · rw [run_bind, left.reads begun]
        exact refused
    · by_cases complete : begun = []
      · -- The cut lies between the two, so all of the second is missing.
        rw [complete, List.append_nil] at whole
        rw [complete, List.nil_append] at rest
        subst whole rest
        rcases right.cut [] back rfl missing with ⟨place, within, refused⟩
        refine ⟨place, within, ?_⟩
        have reads := left.reads []
        rw [List.append_nil] at reads
        rw [run_bind, reads]
        exact refused
      · rcases left.cut front begun whole complete with ⟨place, within, refused⟩
        refine ⟨place, within, ?_⟩
        rw [run_bind, refused]

namespace IsDelimited

theorem pure (value : α) : (Pure.pure value : Reader α).IsDelimited := by
  intro offset bytes result after succeeded
  cases succeeded
  exact ⟨[], rfl, (Reads.pure value offset).delimits_nil⟩

theorem throw (fault : Fault) : (MonadExcept.throw fault : Reader α).IsDelimited := by
  intro offset bytes result after succeeded
  cases succeeded

theorem bind
    {reader : Reader α} {following : α → Reader β}
    (left : reader.IsDelimited)
    (right : ∀ value, (following value).IsDelimited) :
    (reader >>= following).IsDelimited := by
  intro offset bytes result after succeeded
  rcases exists_of_run_bind_eq_ok succeeded with ⟨value, between, ran, followed⟩
  rcases left offset bytes value between ran with ⟨first, split, delimits⟩
  have place : between = ⟨offset + first.length, between.rest⟩ := by
    rw [split, delimits.reads] at ran
    exact (Prod.mk.inj (Except.ok.inj ran)).2.symm
  rw [place] at followed
  rcases right value _ _ result after followed with ⟨second, rest, follows⟩
  refine ⟨first ++ second, ?_, delimits.bind follows⟩
  rw [split, rest, List.append_assoc]

/-- A reader that takes a fixed number of bytes, or none where there are fewer. -/
theorem ofWidth
    {reader : Reader α} (width : Nat)
    (enough : ∀ offset taken, taken.length = width →
      ∃ value, reader.Reads offset taken value)
    (few : ∀ offset bytes, bytes.length < width →
      reader ⟨offset, bytes⟩ = .error (.truncated offset)) :
    reader.IsDelimited := by
  intro offset bytes value after succeeded
  by_cases short : bytes.length < width
  · rw [few offset bytes short] at succeeded
    cases succeeded
  · have length : (bytes.take width).length = width :=
      List.length_take_of_le (Nat.le_of_not_lt short)
    rcases enough offset (bytes.take width) length with ⟨found, reads⟩
    have ran := reads (bytes.drop width)
    rw [List.take_append_drop, succeeded] at ran
    cases ran
    refine ⟨bytes.take width, (List.take_append_drop width bytes).symm, reads, ?_⟩
    intro front back split missing
    refine ⟨offset, Nat.le_add_right _ _, few offset front ?_⟩
    have total := congrArg List.length split
    have positive := List.length_pos_iff.mpr missing
    rw [length, List.length_append] at total
    omega

/-! ## The readers of the decoder -/

theorem u1 : Reader.u1.IsDelimited := by
  apply ofWidth 1
  · rintro offset taken length
    rcases List.length_eq_one_iff.mp length with ⟨byte, rfl⟩
    exact ⟨_, fun _ => rfl⟩
  · intro offset bytes short
    rw [List.length_eq_zero_iff.mp (Nat.lt_one_iff.mp short)]
    rfl

theorem u2 : Reader.u2.IsDelimited := by
  apply ofWidth 2
  · intro offset taken length
    rcases List.length_eq_two.mp length with ⟨first, second, rfl⟩
    exact ⟨_, fun _ => rfl⟩
  · intro offset bytes short
    match bytes with
    | [] => rfl
    | [_] => rfl
    | _ :: _ :: _ =>
        simp only [List.length_cons] at short
        omega

theorem u4 : Reader.u4.IsDelimited := by
  apply ofWidth 4
  · intro offset taken length
    match taken with
    | [_, _, _, _] => exact ⟨_, fun _ => rfl⟩
  · intro offset bytes short
    match bytes with
    | [] => rfl
    | [_] => rfl
    | [_, _] => rfl
    | [_, _, _] => rfl
    | _ :: _ :: _ :: _ :: _ =>
        simp only [List.length_cons] at short
        omega

theorem u8 : Reader.u8.IsDelimited :=
  u4.bind fun _ => u4.bind fun _ => pure _

theorem bytes (count : Nat) : (Reader.bytes count).IsDelimited := by
  apply ofWidth count
  · intro offset taken length
    rw [← length]
    exact ⟨taken, reads_bytes taken offset⟩
  · intro offset bytes short
    have fewer : (bytes.take count).length ≠ count := by
      rw [List.length_take]
      omega
    simp only [Reader.bytes, if_neg fewer]

theorem position : Reader.position.IsDelimited := by
  intro offset bytes value after succeeded
  cases succeeded
  exact ⟨[], rfl, (reads_position offset).delimits_nil⟩

theorem repeated
    {reader : Reader α} (delimited : reader.IsDelimited) (count : Nat) :
    (Reader.repeated reader count).IsDelimited := by
  induction count with
  | zero => exact pure []
  | succ count inductive_hypothesis =>
      exact delimited.bind fun _ => inductive_hypothesis.bind fun _ => pure _

theorem counted
    {reader : Reader α} (delimited : reader.IsDelimited) :
    (Reader.counted reader).IsDelimited :=
  u2.bind fun count => delimited.repeated count.toNat

theorem iterated
    {step : α → Reader α} (delimited : ∀ value, (step value).IsDelimited)
    (count : Nat) (value : α) :
    (Reader.iterated step count value).IsDelimited := by
  induction count generalizing value with
  | zero => exact pure value
  | succ count inductive_hypothesis =>
      exact (delimited value).bind fun next => inductive_hypothesis next

theorem indexed (look : UInt16 → Except Fault α) :
    (Reader.indexed look).IsDelimited := by
  refine u2.bind fun index => ?_
  cases look index with
  | ok value => exact pure value
  | error fault => exact throw fault

/-- Whatever is read within a body, nothing is taken from the bytes outside. -/
theorem within
    (body : List UInt8) (reader : Reader α) :
    (Reader.within body reader).IsDelimited := by
  intro offset bytes value after succeeded
  unfold Reader.within at succeeded
  split at succeeded
  · rename_i inner left ran
    cases succeeded
    refine ⟨[], rfl, Reads.delimits_nil ?_⟩
    intro rest
    simp [Reader.within, ran]
  · cases succeeded

end IsDelimited

end Reader

open Reader (IsDelimited)

namespace ConstantPool

theorem isDelimited_readText : readText.IsDelimited := by
  refine IsDelimited.u2.bind fun length => (IsDelimited.bytes _).bind fun bytes => ?_
  split
  · exact .pure _
  · exact .throw _

theorem isDelimited_readOther (length : Nat) : (readOther length).IsDelimited :=
  (IsDelimited.bytes length).bind fun _ => .pure _

theorem isDelimited_readContent
    (tag : UInt8) (offset : Nat) :
    (readContent tag offset).IsDelimited := by
  unfold readContent
  split
  case h_1 => exact isDelimited_readText
  case h_2 => exact IsDelimited.u4.bind fun _ => .pure _
  case h_3 => exact IsDelimited.u4.bind fun _ => .pure _
  case h_4 => exact IsDelimited.u8.bind fun _ => .pure _
  case h_5 => exact IsDelimited.u8.bind fun _ => .pure _
  case h_6 => exact IsDelimited.u2.bind fun _ => .pure _
  case h_7 => exact IsDelimited.u2.bind fun _ => .pure _
  case h_18 => exact .throw _
  all_goals exact isDelimited_readOther _

theorem isDelimited_readEntry : readEntry.IsDelimited :=
  IsDelimited.position.bind fun offset => IsDelimited.u1.bind fun tag =>
    isDelimited_readContent tag offset

theorem isDelimited_readSlots (slots : Nat) : (readSlots slots).IsDelimited := by
  induction slots using Nat.strongRecOn with
  | _ slots inductive_hypothesis =>
      cases slots with
      | zero => exact .pure []
      | succ slots =>
          rw [readSlots_succ]
          refine isDelimited_readEntry.bind fun entry => ?_
          have fewer := Nat.sub_lt (Nat.succ_pos slots) entry.width_pos
          exact (inductive_hypothesis _ fewer).bind fun _ => .pure _

theorem isDelimited_read : ConstantPool.read.IsDelimited :=
  IsDelimited.u2.bind fun count =>
    (isDelimited_readSlots (count.toNat - 1)).bind fun _ => .pure _

end ConstantPool

theorem isDelimited_readAttribute (pool : ConstantPool) :
    (readAttribute pool).IsDelimited :=
  (IsDelimited.indexed pool.text).bind fun _ => IsDelimited.u4.bind fun length =>
    (IsDelimited.bytes length.toNat).bind fun _ => .pure _

theorem isDelimited_readMemberAttribute
    (pool : ConstantPool) (annotations : List AnnotationUse) :
    (readMemberAttribute pool annotations).IsDelimited := by
  refine (isDelimited_readAttribute pool).bind fun block => ?_
  split
  · exact .within _ _
  · exact .pure _

theorem isDelimited_readMember
    (pool : ConstantPool) (kindOf : String → MemberKind) :
    (readMember pool kindOf).IsDelimited :=
  IsDelimited.u2.bind fun _ => (IsDelimited.indexed pool.text).bind fun _ =>
    (IsDelimited.indexed pool.text).bind fun _ => IsDelimited.u2.bind fun count =>
      (IsDelimited.iterated (isDelimited_readMemberAttribute pool) count.toNat []).bind
        fun _ => .pure _

theorem isDelimited_readClassAttribute
    (pool : ConstantPool) (decl : TypeDecl) :
    (readClassAttribute pool decl).IsDelimited := by
  refine (isDelimited_readAttribute pool).bind fun block => ?_
  split
  · exact (IsDelimited.within _ _).bind fun _ => .pure _
  · split
    · exact (IsDelimited.within _ _).bind fun _ => .pure _
    · split
      · exact (IsDelimited.within _ _).bind fun _ => .pure _
      · exact .pure _

theorem isDelimited_readBody (pool : ConstantPool) :
    (readBody pool).IsDelimited := by
  have name : (readClassName pool).IsDelimited :=
    (IsDelimited.indexed pool.className).bind fun _ => .pure _
  have superclass : (readClassName? pool).IsDelimited :=
    (IsDelimited.indexed pool.className?).bind fun _ => .pure _
  exact IsDelimited.u2.bind fun _ => name.bind fun _ => superclass.bind fun _ =>
    name.counted.bind fun _ => (isDelimited_readMember pool _).counted.bind fun _ =>
      (isDelimited_readMember pool _).counted.bind fun _ => IsDelimited.u2.bind fun count =>
        .iterated (isDelimited_readClassAttribute pool) count.toNat _

theorem isDelimited_readClass : readClass.IsDelimited := by
  refine IsDelimited.u4.bind fun found => ?_
  have rest : (do
      let _ ← Reader.u2
      let _ ← Reader.u2
      let pool ← ConstantPool.read
      readBody pool : Reader TypeDecl).IsDelimited :=
    IsDelimited.u2.bind fun _ => IsDelimited.u2.bind fun _ =>
      ConstantPool.isDelimited_read.bind isDelimited_readBody
  by_cases wrong : found ≠ magic
  · rw [if_pos wrong]
    exact (IsDelimited.throw _).bind fun _ => rest
  · rw [if_neg wrong]
    exact rest

/-! ## Whole files -/

/-- A class file that is accepted is what its reader delimits. -/
theorem delimits_of_decode
    {bytes : List UInt8} {decl : TypeDecl}
    (accepted : decode bytes = .ok decl) :
    readClass.Delimits 0 bytes decl := by
  unfold decode at accepted
  split at accepted
  · cases accepted
  · rename_i found cursor ran
    split at accepted
    · rename_i none
      cases accepted
      rcases isDelimited_readClass 0 bytes decl cursor ran with ⟨taken, split, delimits⟩
      rw [List.length_eq_zero_iff.mp none, List.append_nil] at split
      rw [split]
      exact delimits
    · cases accepted

/--
No class file that is accepted is the beginning of another.  Cut short it is
truncated, at a place within what is left, and with more bytes after it these are
reported as trailing.
-/
theorem decode_delimited
    {bytes : List UInt8} {decl : TypeDecl}
    (accepted : decode bytes = .ok decl) :
    (∀ front back, bytes = front ++ back → back ≠ [] →
        ∃ offset ≤ front.length, decode front = .error (.truncated offset)) ∧
      ∀ extra, extra ≠ [] →
        decode (bytes ++ extra) = .error (.trailingBytes extra.length) := by
  have delimits := delimits_of_decode accepted
  constructor
  · intro front back split missing
    rcases delimits.cut front back split missing with ⟨offset, within, refused⟩
    rw [Nat.zero_add] at within
    refine ⟨offset, within, ?_⟩
    rw [decode, Cursor.start, refused]
  · intro extra missing
    rw [decode, Cursor.start, delimits.reads extra]
    cases extra with
    | nil => exact absurd rfl missing
    | cons byte rest => rfl

/-- A class with a wide constant and an annotation. -/
def annotatedClass : List UInt8 :=
  Outline.encode { name := "A", annotations := [("B", [])], unused := [.long 42] }

/-- The class cut within its wide constant and within its attribute, and with two bytes more. -/
theorem decode_delimited_annotatedClass :
    ∃ decl, decode annotatedClass = .ok decl ∧
      (∃ offset ≤ 23, decode (annotatedClass.take 23) = .error (.truncated offset)) ∧
      (∃ offset ≤ 82, decode (annotatedClass.take 82) = .error (.truncated offset)) ∧
      decode (annotatedClass ++ [0, 7]) = .error (.trailingBytes 2) := by
  have accepted : (decode annotatedClass).isOk = true := by decide +kernel
  cases ran : decode annotatedClass with
  | error fault =>
      rw [ran] at accepted
      cases accepted
  | ok decl =>
      rcases decode_delimited ran with ⟨cut, trailing⟩
      refine ⟨decl, rfl, ?_, ?_, trailing [0, 7] (by decide)⟩
      · exact cut (annotatedClass.take 23) (annotatedClass.drop 23) (by decide) (by decide)
      · exact cut (annotatedClass.take 82) (annotatedClass.drop 82) (by decide) (by decide)

end TypeReach.ClassFile
