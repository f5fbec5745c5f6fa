import Mathlib.Data.List.Forall2
import TypeReach.ClassFile.Decode

/-!
# What readers take

A reader that succeeds has taken some bytes from the front of what was left, and
what follows these makes no difference.  `Reads` says so of one reader, the
place where it starts, the bytes that it takes and the value that it gives.  It
is kept under sequencing, with the bytes appended, so what a whole class file is
read as can be put together from its parts.
-/

namespace TypeReach.ClassFile.Reader

/-- A reader takes these bytes, whatever follows them, and gives this value. -/
def Reads
    (reader : Reader α) (offset : Nat) (taken : List UInt8) (value : α) :
    Prop :=
  ∀ rest, reader ⟨offset, taken ++ rest⟩ =
    .ok (value, ⟨offset + taken.length, rest⟩)

theorem run_bind
    (reader : Reader α) (following : α → Reader β) (cursor : Cursor) :
    (reader >>= following) cursor =
      match reader cursor with
      | .ok (value, after) => following value after
      | .error fault => .error fault := by
  show (StateT.bind reader following) cursor = _
  simp only [StateT.bind, bind, Except.bind]
  cases reader cursor <;> rfl

theorem exists_of_run_bind_eq_ok
    {reader : Reader α} {following : α → Reader β} {cursor after : Cursor} {result : β}
    (succeeded : (reader >>= following) cursor = .ok (result, after)) :
    ∃ value between, reader cursor = .ok (value, between) ∧
      following value between = .ok (result, after) := by
  rw [run_bind] at succeeded
  cases ran : reader cursor with
  | error fault =>
      rw [ran] at succeeded
      cases succeeded
  | ok pair =>
      rw [ran] at succeeded
      exact ⟨pair.1, pair.2, rfl, succeeded⟩

/-! ## Sequences -/

theorem Reads.pure
    (value : α) (offset : Nat) :
    (pure value : Reader α).Reads offset [] value :=
  fun _ => rfl

theorem Reads.bind
    {reader : Reader α} {following : α → Reader β} {offset : Nat}
    {first second : List UInt8} {value : α} {result : β}
    (left : reader.Reads offset first value)
    (right : (following value).Reads (offset + first.length) second result) :
    (reader >>= following).Reads offset (first ++ second) result := by
  intro rest
  rw [run_bind, List.append_assoc, left (second ++ rest)]
  show following value ⟨offset + first.length, second ++ rest⟩ = _
  rw [right rest, List.length_append, Nat.add_assoc]

/-- What comes after a reader takes no further bytes. -/
theorem Reads.followed
    {reader : Reader α} {following : α → Reader β} {offset : Nat}
    {taken : List UInt8} {value : α} {result : β}
    (left : reader.Reads offset taken value)
    (right : (following value).Reads (offset + taken.length) [] result) :
    (reader >>= following).Reads offset taken result := by
  have both := left.bind right
  rw [List.append_nil] at both
  exact both

/-- A value that is changed once it was read. -/
theorem Reads.map
    {reader : Reader α} {offset : Nat} {taken : List UInt8} {value : α}
    (reads : reader.Reads offset taken value) (change : α → β) :
    (reader >>= fun value => Pure.pure (change value)).Reads offset taken
      (change value) :=
  reads.followed (.pure (change value) _)

/-- Values one after the other take their bytes one after the other. -/
theorem Reads.repeated
    {reader : Reader α} {chunks : List (List UInt8)} {values : List α}
    (each : List.Forall₂
      (fun chunk value => ∀ offset, reader.Reads offset chunk value) chunks values)
    (offset : Nat) :
    (Reader.repeated reader chunks.length).Reads offset chunks.flatten values := by
  induction each generalizing offset with
  | nil => exact .pure [] offset
  | cons first _ inductive_hypothesis =>
      exact (first offset).bind ((inductive_hypothesis _).map _)

/-- A step that is taken once for each of some chunks, each handing its value on. -/
theorem Reads.iterated
    {ι : Type} {step : α → Reader α} {chunk : ι → List UInt8} {next : α → ι → α}
    {items : List ι}
    (each : ∀ item ∈ items, ∀ value offset,
      (step value).Reads offset (chunk item) (next value item))
    (value : α) (offset : Nat) :
    (Reader.iterated step items.length value).Reads offset (items.flatMap chunk)
      (items.foldl next value) := by
  induction items generalizing value offset with
  | nil => exact .pure value offset
  | cons item rest inductive_hypothesis =>
      rw [List.flatMap_cons, List.foldl_cons]
      exact (each item List.mem_cons_self value offset).bind
        (inductive_hypothesis
          (fun other member => each other (List.mem_cons_of_mem _ member)) _ _)

/-! ## Single readers -/

theorem reads_position (offset : Nat) :
    position.Reads offset [] offset :=
  fun _ => rfl

theorem reads_bytes
    (taken : List UInt8) (offset : Nat) :
    (bytes taken.length).Reads offset taken taken := by
  intro rest
  simp [bytes]

theorem reads_u1 (byte : UInt8) (offset : Nat) :
    u1.Reads offset [byte] byte :=
  fun _ => rfl

/-- A reader on bytes of its own takes none of the others. -/
theorem Reads.within
    {reader : Reader α} {body : List UInt8} {value : α}
    (reads : reader.Reads 0 body value) (offset : Nat) :
    (Reader.within body reader).Reads offset [] value := by
  intro rest
  have alone := reads []
  rw [List.append_nil] at alone
  simp [Reader.within, Cursor.start, alone]

end TypeReach.ClassFile.Reader
