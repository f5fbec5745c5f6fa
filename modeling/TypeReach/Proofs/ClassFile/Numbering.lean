import Mathlib.Algebra.GroupWithZero.Nat
import Mathlib.Order.Monotone.Basic
import TypeReach.Proofs.ClassFile.Reading

/-!
# How slots are numbered

A pool is read entry by entry until the slots that its count announces are
filled.  A wide entry takes two slots at once, so the last one may take a slot
more than was announced.  The entries are therefore the shortest sequence that
takes enough slots.  Each of them is found in its first slot, which is told by the
widths of the entries before it, and in no other slot is anything found.
-/

namespace TypeReach.ClassFile

namespace PoolEntry

/-- How many slots an entry takes. -/
def width (entry : PoolEntry) : Nat :=
  if entry.isWide then 2 else 1

/-- The slots that an entry takes; it stands in the first of them. -/
def slots (entry : PoolEntry) : List (Option PoolEntry) :=
  some entry :: List.replicate (entry.width - 1) none

theorem width_of_isWide
    {entry : PoolEntry}
    (wide : entry.isWide = true) :
    entry.width = 2 :=
  if_pos wide

theorem width_of_not_isWide
    {entry : PoolEntry}
    (narrow : ¬ entry.isWide = true) :
    entry.width = 1 :=
  if_neg narrow

theorem width_pos (entry : PoolEntry) : 0 < entry.width := by
  unfold width
  split <;> decide

theorem length_slots (entry : PoolEntry) : entry.slots.length = entry.width := by
  rw [slots, List.length_cons, List.length_replicate, Nat.sub_add_cancel entry.width_pos]

end PoolEntry

namespace ConstantPool

/-! ## Entries and their slots -/

/-- How many slots entries take. -/
def slotCount (entries : List PoolEntry) : Nat :=
  (entries.map PoolEntry.width).sum

theorem slotCount_cons
    (entry : PoolEntry) (rest : List PoolEntry) :
    slotCount (entry :: rest) = entry.width + slotCount rest :=
  rfl

theorem length_flatMap_slots (entries : List PoolEntry) :
    (entries.flatMap PoolEntry.slots).length = slotCount entries := by
  rw [List.length_flatMap]
  exact congrArg List.sum (List.map_congr_left fun entry _ => entry.length_slots)

/-- The first slot of the entry in a given place; slot zero comes before all entries. -/
def firstSlot (entries : List PoolEntry) (place : Nat) : Nat :=
  1 + slotCount (entries.take place)

theorem firstSlot_succ
    {entries : List PoolEntry} {place : Nat} {entry : PoolEntry}
    (here : entries[place]? = some entry) :
    firstSlot entries (place + 1) = firstSlot entries place + entry.width := by
  simp [firstSlot, slotCount, List.take_add_one, here, Nat.add_assoc]

theorem firstSlot_mono (entries : List PoolEntry) : Monotone (firstSlot entries) := by
  apply monotone_nat_of_le_succ
  intro place
  cases here : entries[place]? with
  | none => simp [firstSlot, List.take_add_one, here]
  | some entry =>
      rw [firstSlot_succ here]
      exact Nat.le_add_right _ _

/-- The pool in which entries follow each other. -/
def ofEntries (entries : List PoolEntry) : ConstantPool :=
  ⟨(none :: entries.flatMap PoolEntry.slots).toArray⟩

theorem getElem?_firstSlot
    {entries : List PoolEntry} {place : Nat} {entry : PoolEntry}
    (here : entries[place]? = some entry) :
    (ofEntries entries).slots[firstSlot entries place]? = some (some entry) := by
  have split : entries = entries.take place ++ entry :: entries.drop (place + 1) := by
    rcases List.getElem?_eq_some_iff.mp here with ⟨inside, rfl⟩
    simp
  have before := length_flatMap_slots (entries.take place)
  rw [ofEntries, List.getElem?_toArray, firstSlot, Nat.add_comm, List.getElem?_cons_succ]
  nth_rewrite 1 [split]
  rw [List.flatMap_append, List.getElem?_append_right (Nat.le_of_eq before), before,
    Nat.sub_self]
  rfl

/-- Where an entry stands is the first slot of one of the entries. -/
theorem exists_of_getElem?_flatMap_slots
    {entries : List PoolEntry} {slot : Nat} {entry : PoolEntry}
    (found : (entries.flatMap PoolEntry.slots)[slot]? = some (some entry)) :
    ∃ place, entries[place]? = some entry ∧ slot = slotCount (entries.take place) := by
  induction entries generalizing slot with
  | nil => cases found
  | cons first rest inductive_hypothesis =>
      rw [List.flatMap_cons] at found
      by_cases own : slot < first.slots.length
      · rw [List.getElem?_append_left own] at found
        cases slot with
        | zero => exact ⟨0, Option.some.inj found, rfl⟩
        | succ slot =>
            -- A second slot is never used.
            rw [PoolEntry.slots, List.getElem?_cons_succ] at found
            have unused := List.eq_of_mem_replicate (List.mem_of_getElem? found)
            cases unused
      · rw [List.getElem?_append_right (Nat.le_of_not_lt own)] at found
        rcases inductive_hypothesis found with ⟨place, here, same⟩
        refine ⟨place + 1, here, ?_⟩
        rw [List.take_succ_cons, slotCount_cons, ← same, ← first.length_slots]
        omega

theorem exists_of_getElem?_ofEntries
    {entries : List PoolEntry} {slot : Nat} {entry : PoolEntry}
    (found : (ofEntries entries).slots[slot]? = some (some entry)) :
    ∃ place, entries[place]? = some entry ∧ slot = firstSlot entries place := by
  rw [ofEntries, List.getElem?_toArray] at found
  cases slot with
  | zero => cases found
  | succ slot =>
      rw [List.getElem?_cons_succ] at found
      rcases exists_of_getElem?_flatMap_slots found with ⟨place, here, same⟩
      exact ⟨place, here, by rw [same, firstSlot, Nat.add_comm]⟩

/-! ## Looking up -/

theorem get_firstSlot
    {entries : List PoolEntry} {place : Nat} {entry : PoolEntry} {index : UInt16}
    (here : entries[place]? = some entry)
    (first : index.toNat = firstSlot entries place) :
    (ofEntries entries).get index = .ok entry := by
  rw [get, first, getElem?_firstSlot here]

theorem get_of_forall_ne
    {entries : List PoolEntry} {index : UInt16}
    (other : ∀ place < entries.length, index.toNat ≠ firstSlot entries place) :
    (ofEntries entries).get index = .error (.badConstantIndex index) := by
  unfold get
  split
  · rename_i found
    rcases exists_of_getElem?_ofEntries found with ⟨place, here, same⟩
    exact absurd same (other place (List.getElem?_eq_some_iff.mp here).1)
  · rfl
  · rfl

/-! ## Reading -/

/-- Entries take enough slots, and no entry is read after enough were taken. -/
structure Fills (count : Nat) (entries : List PoolEntry) : Prop where
  needed : ∀ place < entries.length, slotCount (entries.take place) < count
  enough : count ≤ slotCount entries

theorem Fills.cons
    {count : Nat} {entry : PoolEntry} {rest : List PoolEntry}
    (unfilled : 0 < count)
    (fills : Fills (count - entry.width) rest) :
    Fills count (entry :: rest) where
  needed := by
    intro place inside
    cases place with
    | zero => exact unfilled
    | succ place =>
        have less := fills.needed place (Nat.lt_of_succ_lt_succ inside)
        rw [List.take_succ_cons, slotCount_cons]
        omega
  enough := by
    have more := fills.enough
    rw [slotCount_cons]
    omega

/-- A wide entry and a narrow one are taken in the same way, apart from their widths. -/
theorem readSlots_succ (count : Nat) :
    readSlots (count + 1) = do
      let entry ← readEntry
      let rest ← readSlots (count + 1 - entry.width)
      return entry.slots ++ rest := by
  rw [readSlots]
  refine bind_congr fun entry => ?_
  by_cases wide : entry.isWide = true
  · rw [if_pos wide, PoolEntry.slots, PoolEntry.width_of_isWide wide]
    cases count <;> rfl
  · rw [if_neg wide, PoolEntry.slots, PoolEntry.width_of_not_isWide wide]
    rfl

/--
What is read into slots is read entry by entry.  The induction is on the number of
slots that are left to fill, which each entry makes smaller.
-/
theorem exists_of_readSlots_eq_ok
    {count : Nat} {cursor after : Cursor} {slots : List (Option PoolEntry)}
    (succeeded : readSlots count cursor = .ok (slots, after)) :
    ∃ entries, Reader.repeated readEntry entries.length cursor = .ok (entries, after) ∧
      slots = entries.flatMap PoolEntry.slots ∧ Fills count entries := by
  induction count using Nat.strongRecOn generalizing cursor slots with
  | _ count inductive_hypothesis =>
      cases count with
      | zero =>
          cases succeeded
          exact ⟨[], rfl, rfl, ⟨fun _ impossible => absurd impossible (Nat.not_lt_zero _),
            Nat.le_refl 0⟩⟩
      | succ count =>
          rw [readSlots_succ] at succeeded
          rcases Reader.exists_of_run_bind_eq_ok succeeded with
            ⟨entry, between, readFirst, succeeded⟩
          rcases Reader.exists_of_run_bind_eq_ok succeeded with ⟨rest, last, readRest, given⟩
          cases given
          have fewer : count + 1 - entry.width < count + 1 :=
            Nat.sub_lt (Nat.succ_pos count) entry.width_pos
          rcases inductive_hypothesis _ fewer readRest with ⟨entries, readMore, rfl, fills⟩
          refine ⟨entry :: entries, ?_, rfl, fills.cons (Nat.succ_pos count)⟩
          rw [List.length_cons, Reader.repeated, Reader.run_bind, readFirst]
          dsimp only
          rw [Reader.run_bind, readMore]
          rfl

/--
A pool that was read consists of the entries that follow its count, as many as it
takes to fill the slots announced.  Each entry is found in its first slot.  All
other indices are refused: slot zero, the second slots of wide entries and all slots
that were not announced, even if a wide entry took one of them.
-/
theorem read_numbered
    {cursor after : Cursor} {pool : ConstantPool}
    (succeeded : read cursor = .ok (pool, after)) :
    ∃ count between entries,
      Reader.u2 cursor = .ok (count, between) ∧
      Reader.repeated readEntry entries.length between = .ok (entries, after) ∧
      (∀ place < entries.length, slotCount (entries.take place) < count.toNat - 1) ∧
      count.toNat - 1 ≤ slotCount entries ∧
      (count.toNat ≤ 1 → entries = []) ∧
      (∀ index place entry, entries[place]? = some entry →
        index.toNat = firstSlot entries place → pool.get index = .ok entry) ∧
      (∀ index, (∀ place < entries.length, index.toNat ≠ firstSlot entries place) →
        pool.get index = .error (.badConstantIndex index)) ∧
      pool.get 0 = .error (.badConstantIndex 0) ∧
      (∀ index place entry, entries[place]? = some entry → entry.isWide = true →
        index.toNat = firstSlot entries place + 1 →
        pool.get index = .error (.badConstantIndex index)) ∧
      ∀ index, count.toNat ≤ index.toNat → pool.get index = .error (.badConstantIndex index) := by
  rcases Reader.exists_of_run_bind_eq_ok succeeded with ⟨count, between, counted, rest⟩
  rcases Reader.exists_of_run_bind_eq_ok rest with ⟨slots, last, readRest, given⟩
  cases given
  rcases exists_of_readSlots_eq_ok readRest with ⟨entries, readEntries, rfl, fills⟩
  refine ⟨count, between, entries, counted, readEntries, fills.needed, fills.enough,
    ?empty, fun _ _ _ => get_firstSlot, fun _ => get_of_forall_ne, ?zero, ?second, ?beyond⟩
  case empty =>
    intro few
    by_contra nonempty
    have first := fills.needed 0 (List.length_pos_iff.mpr nonempty)
    omega
  case zero =>
    apply get_of_forall_ne
    intro place _ same
    have none : (0 : UInt16).toNat = 0 := rfl
    rw [firstSlot, none] at same
    omega
  case second =>
    intro index place entry here wide second
    apply get_of_forall_ne
    intro other _ same
    have next := firstSlot_succ here
    rw [PoolEntry.width_of_isWide wide] at next
    rcases Nat.lt_or_ge place other with later | earlier
    · have above : firstSlot entries (place + 1) ≤ firstSlot entries other :=
        firstSlot_mono entries later
      omega
    · have below := firstSlot_mono entries earlier
      omega
  case beyond =>
    intro index beyond
    apply get_of_forall_ne
    intro place inside same
    have needed := fills.needed place inside
    rw [firstSlot] at same
    omega

/-- A pool of three slots besides slot zero, the last of which begins a wide entry. -/
def crowdedPool : List UInt8 :=
  [0, 4, 5, 0, 0, 0, 0, 0, 0, 0, 42, 6, 64, 9, 0, 0, 0, 0, 0, 0, 255]

/-- The entry in the last slot announced is found, and the slot that it takes besides is refused. -/
theorem read_numbered_crowdedPool :
    ∃ pool, read (Cursor.start crowdedPool) = .ok (pool, ⟨20, [255]⟩) ∧
      pool.get 1 = .ok (.long 42) ∧ pool.get 2 = .error (.badConstantIndex 2) ∧
      pool.get 3 = .ok (.double 0x4009000000000000) ∧
      pool.get 4 = .error (.badConstantIndex 4) := by
  have succeeded : read (Cursor.start crowdedPool) =
      .ok (ofEntries [.long 42, .double 0x4009000000000000], ⟨20, [255]⟩) :=
    rfl
  rcases read_numbered succeeded with
    ⟨count, between, _, counted, _, _, _, _, _, _, _, _, beyond⟩
  have announced : Reader.u2 (Cursor.start crowdedPool) =
      .ok (4, ⟨2, crowdedPool.drop 2⟩) :=
    rfl
  have four : count = 4 :=
    (Prod.mk.inj (Except.ok.inj (counted.symm.trans announced))).1
  exact ⟨_, succeeded, rfl, rfl, rfl, beyond 4 (by rw [four])⟩

end ConstantPool

end TypeReach.ClassFile
