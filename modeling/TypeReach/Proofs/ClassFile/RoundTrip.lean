import TypeReach.Proofs.ClassFile.Nesting
import TypeReach.Proofs.TypeName

/-!
# Class files are read as they were laid out

Each reader takes exactly the bytes of the part that it is meant for and gives
the meaning of that part.  These facts follow the layout from element values up to
the whole file; put together they say that decoding undoes encoding.
-/

namespace TypeReach.ClassFile

variable {pool : PoolLayout}

/-! ## Element values -/

theorem ConstantLayout.holds (content : ConstantLayout pool) :
    Holds pool.constantPool content.index content.tag content.value := by
  cases content with
  | byte number => exact .byte (PoolLayout.get_constantPool number.found)
  | short number => exact .short (PoolLayout.get_constantPool number.found)
  | int number => exact .int (PoolLayout.get_constantPool number.found)
  | bool number => exact .bool (PoolLayout.get_constantPool number.found)
  | char character => exact .char (PoolLayout.get_constantPool character.found)
  | long number => exact .long (PoolLayout.get_constantPool number.found)
  | float bits => exact .float (PoolLayout.get_constantPool bits.found)
  | double bits => exact .double (PoolLayout.get_constantPool bits.found)
  | text content => exact .text (PoolLayout.get_constantPool content.found)

/-- An annotation is written with the descriptor of its type. -/
theorem writesUse_of_elements
    (type : pool.AnnotationTypeRef)
    {elements : List (String × ElementValue)} {chunks : List (List UInt8)}
    (fits : chunks.length < 65536)
    (written : List.Forall₂
      (WritesElement pool.constantPool (WritesValue pool.constantPool)) elements chunks) :
    WritesUse pool.constantPool ⟨type.value, elements⟩ (bytes2 type.index ++ withCount chunks) := by
  rcases type.found with ⟨found, named, dotless⟩
  exact .intro (PoolLayout.get_constantPool found)
    (TypeName.ofDescriptor?_descriptor named dotless) fits written

/-- Parts are written as many as a count says. -/
theorem forall₂_ofFn
    {relation : α → List UInt8 → Prop} {count : Nat}
    {value : Fin count → α} {chunk : Fin count → List UInt8}
    (each : ∀ i, relation (value i) (chunk i)) :
    List.Forall₂ relation (List.ofFn value) (List.ofFn chunk) := by
  rw [List.ofFn_eq_map, List.ofFn_eq_map, List.forall₂_map_left_iff, List.forall₂_map_right_iff]
  exact List.forall₂_same.mpr fun i _ => each i

namespace ValueLayout

theorem length_ofFn_lt
    {count : UInt16} (chunk : Fin count.toNat → List UInt8) :
    (List.ofFn chunk).length < 65536 := by
  rw [List.length_ofFn]
  exact count.toNat_lt

theorem writesValue (layout : ValueLayout pool) :
    WritesValue pool.constantPool layout.value layout.encode := by
  induction layout with
  | constant content => exact .constant content.holds
  | enumConstant type name =>
      exact .enumConstant (PoolLayout.get_constantPool type.found)
        (PoolLayout.get_constantPool name.found)
  | typeToken descriptor => exact .typeToken (PoolLayout.get_constantPool descriptor.found)
  | inner type count key element inductive_hypothesis =>
      exact .inner (writesUse_of_elements type (length_ofFn_lt _)
        (forall₂_ofFn fun i =>
          .intro (PoolLayout.get_constantPool (key i).found) (inductive_hypothesis i)))
  | array count item inductive_hypothesis =>
      exact .array (length_ofFn_lt _) (forall₂_ofFn inductive_hypothesis)

/-- A layout nests as deep as what it means. -/
theorem height_value (layout : ValueLayout pool) :
    layout.value.height = layout.height := by
  induction layout with
  | constant content => rfl
  | enumConstant type name => rfl
  | typeToken descriptor => rfl
  | inner type count key element inductive_hypothesis =>
      rw [value, ElementValue.height, height]
      refine congrArg (· + 1) (eq_of_forall_ge_iff fun depth => ?_)
      simp [ElementValue.highestElement_le_iff, inductive_hypothesis]
  | array count item inductive_hypothesis =>
      rw [value, ElementValue.height, height]
      refine congrArg (· + 1) (eq_of_forall_ge_iff fun depth => ?_)
      simp [ElementValue.highest_le_iff, inductive_hypothesis]

end ValueLayout

/-! ## Annotations and attributes -/

theorem AnnotationLayout.writesUse (layout : AnnotationLayout pool) :
    WritesUse pool.constantPool layout.use layout.encode := by
  apply writesUse_of_elements
  · rw [List.length_map]
    exact layout.elements.fits
  · rw [List.forall₂_map_left_iff, List.forall₂_map_right_iff]
    exact List.forall₂_same.mpr fun element _ =>
      .intro (PoolLayout.get_constantPool element.1.found) element.2.writesValue

theorem AnnotationLayout.reads_readUse
    (layout : AnnotationLayout pool) (offset : Nat) :
    (readUse pool.constantPool).Reads offset layout.encode layout.use := by
  apply (readsIf_readUse layout.writesUse).reads
  intro element member
  rcases List.mem_map.mp member with ⟨written, among, rfl⟩
  rw [written.2.height_value]
  exact layout.shallow written among

theorem reads_readAnnotations
    (uses : Counted (AnnotationLayout pool)) (offset : Nat) :
    (readAnnotations pool.constantPool).Reads offset (uses.encode AnnotationLayout.encode)
      (uses.items.map AnnotationLayout.use) :=
  uses.reads (fun layout _ => layout.reads_readUse) offset

theorem AttributeLayout.reads_readAttribute
    {Content : String → Type}
    {write : ∀ name, Content name → List UInt8} (block : AttributeLayout pool write)
    (offset : Nat) :
    (readAttribute pool.constantPool).Reads offset block.encode
      ⟨block.name.value, block.body⟩ := by
  have length : (UInt32.ofNat block.body.length).toNat = block.body.length :=
    UInt32.toNat_ofNat_of_lt' block.fits
  refine (PoolLayout.reads_text block.name offset).bind ((Reader.reads_u4 _ _).bind ?_)
  rw [length]
  exact (Reader.reads_bytes block.body _).map _

theorem reads_readMemberAttribute
    (block : MemberAttribute pool) (uses : List AnnotationUse)
    (offset : Nat) :
    (readMemberAttribute pool.constantPool uses).Reads offset block.encode
      (block.content.uses?.getD uses) := by
  refine (block.reads_readAttribute offset).followed ?_
  rcases block with ⟨name, content, fits⟩
  cases content with
  | annotations named annotations =>
      rw [if_pos named]
      exact (reads_readAnnotations annotations 0).within _
  | other unread body =>
      rw [if_neg unread]
      exact .pure uses _

/-- The two types of an entry: the inner one and the outer one, if there is one. -/
def InnerClassLayout.types (entry : InnerClassLayout pool) : TypeName × Option TypeName :=
  (⟨entry.inner.value⟩, entry.outer.map fun ref => ⟨ref.value⟩)

theorem InnerClassLayout.reads_readInnerClass
    (entry : InnerClassLayout pool) (offset : Nat) :
    (readInnerClass pool.constantPool).Reads offset entry.encode entry.types :=
  (PoolLayout.reads_readClassName entry.inner offset).bind
    ((PoolLayout.reads_readClassName? entry.outer _).bind
      ((Reader.reads_u2 entry.nameIndex _).bind ((Reader.reads_u2 entry.flags _).map _)))

/-- What an attribute changes in the declaration of its class. -/
def ClassContent.takenInto
    (decl : TypeDecl) (content : ClassContent pool name) : TypeDecl :=
  { decl with
    annotations := content.uses?.getD decl.annotations
    nested := (content.nested? decl.name.slashed).getD decl.nested
    signature := content.signature?.or decl.signature }

/-- The types in a class are told by names just as by what is read of them. -/
theorem nestedIn_map_types
    (this : TypeName) (entries : List (InnerClassLayout pool)) :
    nestedIn this (entries.map InnerClassLayout.types) =
      (entries.filter fun entry =>
        entry.outer.map Ref.value = some this.slashed && entry.inner.value ≠ this.slashed).map
          fun entry => ⟨entry.inner.value⟩ := by
  rw [nestedIn, List.filter_map, List.map_map]
  refine congrArg _ (List.filter_congr ?_)
  intro entry _
  rcases this with ⟨this⟩
  rcases entry with ⟨inner, outer, nameIndex, flags⟩
  cases outer <;> simp [InnerClassLayout.types]

theorem reads_readClassAttribute
    (block : ClassAttribute pool) (decl : TypeDecl) (offset : Nat) :
    (readClassAttribute pool.constantPool decl).Reads offset block.encode
      (block.content.takenInto decl) := by
  refine (block.reads_readAttribute offset).followed ?_
  rcases block with ⟨name, content, fits⟩
  cases content with
  | annotations named uses =>
      rw [if_pos named]
      exact ((reads_readAnnotations uses 0).within _).map _
  | innerClasses named entries =>
      have unannotating : name.value ≠ "RuntimeVisibleAnnotations" := by
        rw [named]
        decide
      have table := entries.reads (fun entry _ => entry.reads_readInnerClass) 0
      have nested : ClassContent.takenInto decl (.innerClasses named entries) =
          { decl with
            nested := nestedIn decl.name (entries.items.map InnerClassLayout.types) } := by
        rw [nestedIn_map_types]
        rfl
      rw [if_neg unannotating, if_pos named, nested]
      exact (table.within _).map _
  | signature named text =>
      have unannotating : name.value ≠ "RuntimeVisibleAnnotations" := by
        rw [named]
        decide
      have unnesting : name.value ≠ "InnerClasses" := by
        rw [named]
        decide
      rw [if_neg unannotating, if_neg unnesting, if_pos named]
      exact ((PoolLayout.reads_text text 0).within _).map _
  | other unread body =>
      simp only [List.mem_cons, List.not_mem_nil, or_false, not_or] at unread
      rw [if_neg unread.1, if_neg unread.2.1, if_neg unread.2.2]
      exact .pure decl _

/-! ## The last of several attributes -/

theorem getLastD_filterMap_cons
    (value? : ι → Option α) (item : ι) (rest : List ι) (start : α) :
    ((item :: rest).filterMap value?).getLastD start =
      (rest.filterMap value?).getLastD ((value? item).getD start) := by
  rw [List.filterMap_cons]
  cases value? item with
  | none => rfl
  | some value => exact List.getLastD_cons ..

theorem getLast?_filterMap_cons_or
    (value? : ι → Option α) (item : ι) (rest : List ι) (start : Option α) :
    ((item :: rest).filterMap value?).getLast?.or start =
      (rest.filterMap value?).getLast?.or ((value? item).or start) := by
  rw [List.filterMap_cons]
  cases value? item with
  | none => rfl
  | some value =>
      rw [List.getLast?_cons]
      cases (rest.filterMap value?).getLast? <;> rfl

/-- Of the values that some items give, the last one stays. -/
theorem foldl_getD
    (value? : ι → Option α) (items : List ι) (start : α) :
    items.foldl (fun value item => (value? item).getD value) start =
      (items.filterMap value?).getLastD start := by
  induction items generalizing start with
  | nil => rfl
  | cons item rest inductive_hypothesis =>
      rw [List.foldl_cons, inductive_hypothesis, getLastD_filterMap_cons]

theorem foldl_takenInto
    (blocks : List (ClassAttribute pool)) (decl : TypeDecl) :
    blocks.foldl (fun decl block => block.content.takenInto decl) decl =
      { decl with
        annotations := (blocks.filterMap (·.content.uses?)).getLastD decl.annotations
        nested := (blocks.filterMap
          (·.content.nested? decl.name.slashed)).getLastD decl.nested
        signature := (blocks.filterMap (·.content.signature?)).getLast?.or decl.signature } := by
  induction blocks generalizing decl with
  | nil => rfl
  | cons block rest inductive_hypothesis =>
      rw [List.foldl_cons, inductive_hypothesis, getLastD_filterMap_cons,
        getLastD_filterMap_cons, getLast?_filterMap_cons_or]
      rfl

/-! ## Members and classes -/

theorem MemberLayout.reads_readMember
    (layout : MemberLayout pool) (kindOf : String → MemberKind)
    (offset : Nat) :
    (readMember pool.constantPool kindOf).Reads offset layout.encode
      (layout.member (kindOf layout.name.value)) := by
  have annotations := layout.attributes.reads_iterated
    (fun block _ => reads_readMemberAttribute block) []
  rw [foldl_getD] at annotations
  exact (Reader.reads_u2 layout.access offset).bind
    ((PoolLayout.reads_text layout.name _).bind
      ((PoolLayout.reads_text layout.descriptor _).bind
        ((Reader.reads_u2 _ _).bind ((annotations _).map _))))

namespace ClassLayout

/-- The declaration before anything is taken over from the attributes. -/
def bareDecl (layout : ClassLayout) : TypeDecl :=
  { name := ⟨layout.this.value⟩
    access := ⟨layout.access⟩
    superclass := layout.superclass.map fun ref => ⟨ref.value⟩
    interfaces := layout.interfaces.items.map fun ref => ⟨ref.value⟩
    members :=
      layout.fields.items.map (MemberLayout.member .field) ++
        (layout.methods.items.map MemberLayout.method).filter
          fun member => member.name ≠ "<clinit>" }

theorem foldl_bareDecl
    (layout : ClassLayout) :
    layout.attributes.items.foldl (fun decl block => block.content.takenInto decl)
      layout.bareDecl = layout.decl := by
  rw [foldl_takenInto, bareDecl, List.filter_map, Option.or_none]
  rfl

theorem reads_readBody
    (layout : ClassLayout) (offset : Nat) :
    (readBody layout.pool.constantPool).Reads offset layout.encodeBody layout.decl := by
  have interfaces := layout.interfaces.reads
    fun interface _ => PoolLayout.reads_readClassName interface
  have fields := layout.fields.reads
    fun field _ => field.reads_readMember fun _ => .field
  have methods := layout.methods.reads
    fun method _ => method.reads_readMember methodKind
  have attributes := layout.attributes.reads_iterated
    (fun block _ => reads_readClassAttribute block) layout.bareDecl
  rw [foldl_bareDecl] at attributes
  exact (Reader.reads_u2 layout.access offset).bind
    ((PoolLayout.reads_readClassName layout.this _).bind
      ((PoolLayout.reads_readClassName? layout.superclass _).bind
        ((interfaces _).bind ((fields _).bind ((methods _).bind
          ((Reader.reads_u2 _ _).bind (attributes _)))))))

theorem reads_readClass
    (layout : ClassLayout) (offset : Nat) :
    readClass.Reads offset layout.encode layout.decl := by
  exact (Reader.reads_u4 magic offset).bind
    ((Reader.reads_u2 layout.minor _).bind ((Reader.reads_u2 layout.major _).bind
      ((layout.pool.reads_read _).bind (layout.reads_readBody _))))

end ClassLayout

/--
Decoding undoes encoding: the bytes of a layout are read, to their end, as the
declaration that the layout describes.
-/
theorem decode_encode
    (layout : ClassLayout) :
    decode layout.encode = .ok layout.decl := by
  have reads := layout.reads_readClass 0 []
  rw [List.append_nil] at reads
  rw [decode, Cursor.start, reads]
  rfl

/-! ## A layout with a part of each kind -/

def samplePool : PoolLayout where
  items :=
    [.text .plain "a/A" (by decide), .classRef 1,
      -- The number takes two slots, so the next item begins in slot five.
      .long 7, .text .modified "La/Mark;" (by decide), .text .plain "value" (by decide),
      .text .plain "RuntimeVisibleAnnotations" (by decide),
      .text .plain "InnerClasses" (by decide), .text .plain "a/A$B" (by decide), .classRef 9,
      .text .plain "Signature" (by decide), .text .plain "La/C<La/A;>;" (by decide),
      .text .plain "<clinit>" (by decide), .text .plain "<init>" (by decide),
      .text .plain "()V" (by decide), .text .plain "J" (by decide),
      .text .plain "Code" (by decide), .other .nameAndType [0, 14, 0, 15] rfl]
  fits := by decide

def sampleMark : AnnotationLayout samplePool where
  type := ⟨5, ⟨"a/Mark"⟩, rfl, by decide, by decide⟩
  elements :=
    ⟨[(⟨6, "value", rfl⟩, .array 2 fun i =>
      if i.val = 0 then .constant (.long ⟨3, 7, rfl⟩)
      else .inner ⟨5, ⟨"a/Mark"⟩, rfl, by decide, by decide⟩ 0 Fin.elim0 Fin.elim0)], by decide⟩
  shallow := by decide

def sampleLayout : ClassLayout where
  minor := 0
  major := 61
  pool := samplePool
  access := 0x21
  this := ⟨2, "a/A", 1, rfl, rfl⟩
  superclass := none
  interfaces := ⟨[⟨10, "a/A$B", 9, rfl, rfl⟩], by decide⟩
  fields := ⟨[⟨1, ⟨6, "value", rfl⟩, ⟨16, "J", rfl⟩, ⟨[], by decide⟩⟩], by decide⟩
  methods :=
    ⟨[⟨8, ⟨13, "<clinit>", rfl⟩, ⟨15, "()V", rfl⟩, ⟨[], by decide⟩⟩,
      ⟨1, ⟨14, "<init>", rfl⟩, ⟨15, "()V", rfl⟩,
        ⟨[⟨⟨17, "Code", rfl⟩, .other (by decide) [0xB1], by decide⟩], by decide⟩⟩], by decide⟩
  attributes :=
    ⟨[⟨⟨7, "RuntimeVisibleAnnotations", rfl⟩, .annotations rfl ⟨[sampleMark], by decide⟩,
        by decide⟩,
      ⟨⟨8, "InnerClasses", rfl⟩, .innerClasses rfl
        ⟨[⟨⟨10, "a/A$B", 9, rfl, rfl⟩, some ⟨2, "a/A", 1, rfl, rfl⟩, 0, 0⟩], by decide⟩,
        by decide⟩,
      ⟨⟨11, "Signature", rfl⟩, .signature rfl ⟨12, "La/C<La/A;>;", rfl⟩, by decide⟩],
      by decide⟩

theorem decode_encode_sample :
    decode sampleLayout.encode = .ok
      { name := ⟨"a/A"⟩
        access := ⟨0x21⟩
        interfaces := [⟨"a/A$B"⟩]
        nested := [⟨"a/A$B"⟩]
        annotations :=
          [⟨⟨"a/Mark"⟩, [("value", .array [.constant (.long 7), .inner ⟨"a/Mark"⟩ []])]⟩]
        members :=
          [⟨.field, "value", "J", ⟨1⟩, []⟩, ⟨.constructor, "<init>", "()V", ⟨1⟩, []⟩]
        signature := some "La/C<La/A;>;" } :=
  decode_encode sampleLayout

end TypeReach.ClassFile
