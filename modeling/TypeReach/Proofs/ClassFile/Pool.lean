import TypeReach.Proofs.ClassFile.Layout
import TypeReach.Proofs.Text.Coding

/-!
# Reading the pool of a layout

Numbers and counted lists are read back, and so is a pool: its items fill the
slots that they take, one after the other.  An index that a layout refers to is
then found to hold what the layout says, whatever kind of reference it is.  How an
index is read is said of any pool, whether it comes from a layout or not.
-/

namespace TypeReach.ClassFile

namespace Reader

/-! ## Numbers and counted lists -/

theorem reads_u2 (number : UInt16) (offset : Nat) :
    u2.Reads offset (bytes2 number) number := by
  intro rest
  have bound := number.toNat_lt
  simp only [u2, bytes2, List.cons_append, List.nil_append]
  rw [Text.toNat_ofNat_of_lt (by omega), Text.toNat_ofNat_of_lt (by omega),
    Nat.div_add_mod', UInt16.ofNat_toNat]
  rfl

theorem reads_u4 (number : UInt32) (offset : Nat) :
    u4.Reads offset (bytes4 number) number := by
  intro rest
  have bound := number.toNat_lt
  have whole : ((number.toNat / 16777216 * 256 + number.toNat / 65536 % 256) * 256 +
      number.toNat / 256 % 256) * 256 + number.toNat % 256 = number.toNat := by omega
  simp only [u4, bytes4, List.cons_append, List.nil_append]
  rw [Text.toNat_ofNat_of_lt (by omega), Text.toNat_ofNat_of_lt (by omega),
    Text.toNat_ofNat_of_lt (by omega), Text.toNat_ofNat_of_lt (by omega), whole,
    UInt32.ofNat_toNat]
  rfl

theorem reads_u8 (number : UInt64) (offset : Nat) :
    u8.Reads offset (bytes8 number) number := by
  have bound := number.toNat_lt
  have high : (UInt32.ofNat (number.toNat / 4294967296)).toNat = number.toNat / 4294967296 := by
    apply UInt32.toNat_ofNat_of_lt'
    show _ < 4294967296
    omega
  have low : (UInt32.ofNat (number.toNat % 4294967296)).toNat = number.toNat % 4294967296 := by
    apply UInt32.toNat_ofNat_of_lt'
    show _ < 4294967296
    omega
  have whole : number = UInt64.ofNat
      ((UInt32.ofNat (number.toNat / 4294967296)).toNat * 4294967296 +
        (UInt32.ofNat (number.toNat % 4294967296)).toNat) := by
    rw [high, low, Nat.div_add_mod', UInt64.ofNat_toNat]
  nth_rewrite 2 [whole]
  exact (reads_u4 _ offset).bind ((reads_u4 _ _).map _)

theorem Reads.counted
    {reader : Reader α} {chunks : List (List UInt8)} {values : List α}
    (fits : chunks.length < 65536)
    (each : List.Forall₂
      (fun chunk value => ∀ offset, reader.Reads offset chunk value) chunks values)
    (offset : Nat) :
    (Reader.counted reader).Reads offset (withCount chunks) values := by
  have length : (UInt16.ofNat chunks.length).toNat = chunks.length :=
    UInt16.toNat_ofNat_of_lt' fits
  refine (reads_u2 (.ofNat chunks.length) offset).bind ?_
  rw [length]
  exact Reads.repeated each _

end Reader

/-- A counted list is read as the meanings of its items. -/
theorem Counted.reads
    {reader : Reader β} {write : α → List UInt8} {meaning : α → β} (list : Counted α)
    (each : ∀ item ∈ list.items, ∀ offset, reader.Reads offset (write item) (meaning item))
    (offset : Nat) :
    (Reader.counted reader).Reads offset (list.encode write) (list.items.map meaning) := by
  apply Reader.Reads.counted
  · rw [List.length_map]
    exact list.fits
  · rw [List.forall₂_map_left_iff, List.forall₂_map_right_iff]
    exact List.forall₂_same.mpr each

/-- What is taken over from one item after the other of a counted list. -/
theorem Counted.reads_iterated
    {step : β → Reader β} {write : α → List UInt8} {next : β → α → β} (list : Counted α)
    (each : ∀ item ∈ list.items, ∀ value offset,
      (step value).Reads offset (write item) (next value item))
    (value : β) (offset : Nat) :
    (Reader.iterated step (UInt16.ofNat (list.items.map write).length).toNat value).Reads
      offset (list.items.map write).flatten (list.items.foldl next value) := by
  rw [List.length_map, UInt16.toNat_ofNat_of_lt' list.fits]
  exact Reader.Reads.iterated each value offset

/-! ## The pool -/

theorem TextCoding.decode?_encode
    (coding : TextCoding) (text : String) :
    Text.ModifiedUtf8.decode? (coding.encode text) = some text.toList := by
  cases coding with
  | plain => exact Text.ModifiedUtf8.decode?_utf8 text.toList
  | modified => exact Text.ModifiedUtf8.decode?_encode text.toList

namespace PoolItem

theorem reads_readText
    {coding : TextCoding} {content : String}
    (fits : (coding.encode content).length < 65536) (offset : Nat) :
    ConstantPool.readText.Reads offset
      (bytes2 (.ofNat (coding.encode content).length) ++ coding.encode content)
      (.utf8 content) := by
  refine (Reader.reads_u2 _ offset).bind ?_
  rw [UInt16.toNat_ofNat_of_lt' fits]
  refine (Reader.reads_bytes _ _).followed ?_
  rw [coding.decode?_encode content]
  show Reader.Reads (pure (PoolEntry.utf8 (String.ofList content.toList))) _ _ _
  rw [String.ofList_toList]
  exact .pure _ _

theorem reads_readOther
    {length : Nat} {content : List UInt8} (whole : content.length = length) (offset : Nat) :
    (ConstantPool.readOther length).Reads offset content .other := by
  subst whole
  exact (Reader.reads_bytes content offset).map _

theorem reads_readContent
    (item : PoolItem) (start offset : Nat) :
    (ConstantPool.readContent item.tag start).Reads offset item.content item.entry := by
  cases item with
  | text coding content fits => exact reads_readText fits offset
  | integer number => exact (Reader.reads_u4 number.toUInt32 offset).map _
  | float bits => exact (Reader.reads_u4 bits offset).map _
  | long number => exact (Reader.reads_u8 number.toUInt64 offset).map _
  | double bits => exact (Reader.reads_u8 bits offset).map _
  | classRef nameIndex => exact (Reader.reads_u2 nameIndex offset).map _
  | stringRef textIndex => exact (Reader.reads_u2 textIndex offset).map _
  | other kind content whole => cases kind <;> exact reads_readOther whole offset

theorem reads_readEntry
    (item : PoolItem) (offset : Nat) :
    ConstantPool.readEntry.Reads offset item.encode item.entry :=
  (Reader.reads_position offset).bind
    ((Reader.reads_u1 item.tag _).bind (item.reads_readContent offset _))

/-- Items fill as many slots as their entries take, one item after the other. -/
theorem reads_readSlots
    (items : List PoolItem) (offset : Nat) :
    (ConstantPool.readSlots (ConstantPool.slotCount (items.map entry))).Reads offset
      (items.flatMap encode) ((items.map entry).flatMap PoolEntry.slots) := by
  induction items generalizing offset with
  | nil => exact .pure [] offset
  | cons item rest inductive_hypothesis =>
      rw [List.map_cons, ConstantPool.slotCount_cons, List.flatMap_cons, List.flatMap_cons]
      generalize total : item.entry.width + ConstantPool.slotCount (rest.map entry) = count
      have positive := item.entry.width_pos
      cases count with
      | zero => omega
      | succ count =>
          have left : count + 1 - item.entry.width =
              ConstantPool.slotCount (rest.map entry) := by
            omega
          rw [ConstantPool.readSlots_succ]
          refine (item.reads_readEntry offset).bind ?_
          rw [left]
          exact (inductive_hypothesis _).map _

end PoolItem

/-! ## Looking up -/

namespace ConstantPool

variable {pool : ConstantPool} {index : UInt16}

theorem text_of_get
    {text : String} (found : pool.get index = .ok (.utf8 text)) :
    pool.text index = .ok text := by
  rw [ConstantPool.text, found]
  rfl

theorem integer_of_get
    {number : Int32} (found : pool.get index = .ok (.integer number)) :
    pool.integer index = .ok number := by
  rw [ConstantPool.integer, found]
  rfl

theorem long_of_get
    {number : Int64} (found : pool.get index = .ok (.long number)) :
    pool.long index = .ok number := by
  rw [ConstantPool.long, found]
  rfl

theorem float_of_get
    {bits : UInt32} (found : pool.get index = .ok (.float bits)) :
    pool.float index = .ok bits := by
  rw [ConstantPool.float, found]
  rfl

theorem double_of_get
    {bits : UInt64} (found : pool.get index = .ok (.double bits)) :
    pool.double index = .ok bits := by
  rw [ConstantPool.double, found]
  rfl

end ConstantPool

/-- An index is read as what is looked up under it. -/
theorem Reader.reads_indexed
    {look : UInt16 → Except Fault α} {index : UInt16} {value : α}
    (found : look index = .ok value) (offset : Nat) :
    (indexed look).Reads offset (bytes2 index) value := by
  refine (reads_u2 index offset).followed ?_
  rw [found]
  exact .pure value _

/-- The type of an annotation is read from its descriptor. -/
theorem reads_readAnnotationType
    {pool : ConstantPool} {index : UInt16} {descriptor : String} {type : TypeName}
    (found : pool.get index = .ok (.utf8 descriptor))
    (named : TypeName.ofDescriptor? descriptor = some type) (offset : Nat) :
    (readAnnotationType pool).Reads offset (bytes2 index) type := by
  refine (Reader.reads_indexed (ConstantPool.text_of_get found) offset).followed ?_
  rw [named]
  exact .pure _ _

/-! ## The pool of a layout -/

namespace PoolLayout

variable {pool : PoolLayout}

/-- The pool that a layout is read as. -/
def constantPool (pool : PoolLayout) : ConstantPool :=
  .ofEntries pool.entries

theorem reads_read
    (pool : PoolLayout) (offset : Nat) :
    ConstantPool.read.Reads offset pool.encode pool.constantPool := by
  refine (Reader.reads_u2 _ offset).bind ?_
  rw [entries, UInt16.toNat_ofNat_of_lt' pool.fits, Nat.add_sub_cancel_left]
  exact (PoolItem.reads_readSlots pool.items _).map _

/-- An entry that begins in a slot stands behind as many slots as the ones before it take. -/
theorem exists_of_entryFrom
    {start slot : Nat} {entries : List PoolEntry} {entry : PoolEntry}
    (found : entryFrom start entries slot = some entry) :
    ∃ place, entries[place]? = some entry ∧
      slot = start + ConstantPool.slotCount (entries.take place) := by
  induction entries generalizing start with
  | nil => cases found
  | cons first rest inductive_hypothesis =>
      rw [entryFrom] at found
      split at found
      · rename_i here
        exact ⟨0, found, here⟩
      · rcases inductive_hypothesis found with ⟨place, here, behind⟩
        refine ⟨place + 1, here, ?_⟩
        rw [List.take_succ_cons, ConstantPool.slotCount_cons, behind, Nat.add_assoc]

theorem get_constantPool
    {index : UInt16} {entry : PoolEntry}
    (found : pool.entryAt? index = some entry) :
    pool.constantPool.get index = .ok entry := by
  rcases exists_of_entryFrom found with ⟨place, here, first⟩
  exact ConstantPool.get_firstSlot here first

theorem entryAt?_zero (pool : PoolLayout) :
    pool.entryAt? 0 = none := by
  cases found : pool.entryAt? 0 with
  | none => rfl
  | some entry =>
      rcases exists_of_entryFrom found with ⟨_, _, first⟩
      rw [UInt16.toNat_zero] at first
      omega

theorem text_constantPool
    {index : UInt16} {text : String}
    (found : pool.entryAt? index = some (.utf8 text)) :
    pool.constantPool.text index = .ok text :=
  ConstantPool.text_of_get (get_constantPool found)

theorem className_constantPool
    (ref : pool.ClassRef) :
    pool.constantPool.className ref.index = .ok ref.value := by
  rcases ref.found with ⟨nameIndex, isClass, isName⟩
  rw [ConstantPool.className, get_constantPool isClass]
  exact text_constantPool isName

theorem className?_constantPool
    (ref : Option pool.ClassRef) :
    pool.constantPool.className? (optionalIndex ref) = .ok (ref.map Ref.value) := by
  cases ref with
  | none => rfl
  | some ref =>
      have used : ref.index ≠ 0 := by
        intro zero
        rcases ref.found with ⟨_, isClass, _⟩
        rw [zero, entryAt?_zero] at isClass
        cases isClass
      rw [optionalIndex, ConstantPool.className?, if_neg used, className_constantPool ref]
      rfl

theorem reads_text
    (ref : pool.TextRef) (offset : Nat) :
    (Reader.indexed pool.constantPool.text).Reads offset (bytes2 ref.index) ref.value :=
  Reader.reads_indexed (text_constantPool ref.found) offset

theorem reads_readClassName
    (ref : pool.ClassRef) (offset : Nat) :
    (readClassName pool.constantPool).Reads offset (bytes2 ref.index) ⟨ref.value⟩ :=
  (Reader.reads_indexed (className_constantPool ref) offset).map _

theorem reads_readClassName?
    (ref : Option pool.ClassRef) (offset : Nat) :
    (readClassName? pool.constantPool).Reads offset (bytes2 (optionalIndex ref))
      (ref.map fun ref => ⟨ref.value⟩) := by
  have reads := (Reader.reads_indexed (className?_constantPool ref) offset).map
    (Option.map TypeName.mk)
  rw [Option.map_map] at reads
  exact reads

end PoolLayout

end TypeReach.ClassFile
