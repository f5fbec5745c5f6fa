/-!
# Keyed lists

Lists of keys with values in which every key has one place, the place of its
first insertion.
-/

namespace TypeReach.Keyed

variable {κ α : Type} [DecidableEq κ]

/-- The value of a key. -/
def get? (key : κ) : List (κ × α) → Option α
  | [] => none
  | (other, value) :: rest => if other = key then some value else get? key rest

/--
Change the value of a key where it stands, or add the key at the end with a
fresh value.
-/
def alter (key : κ) (change : α → α) (fresh : α) : List (κ × α) → List (κ × α)
  | [] => [(key, fresh)]
  | (other, value) :: rest =>
    if other = key then (other, change value) :: rest
    else (other, value) :: alter key change fresh rest

/-- Give a key a value, in the place of an earlier one if there is one. -/
def set (key : κ) (value : α) (entries : List (κ × α)) : List (κ × α) :=
  alter key (fun _ => value) value entries

/-- Give a key a value unless it has one. -/
def setIfNew (key : κ) (value : α) (entries : List (κ × α)) : List (κ × α) :=
  alter key id value entries

/--
Change the value of a key in a list that is in ascending order of its keys, or
add the key with a fresh value in its place in order.
-/
def alterInOrder (isBefore : κ → κ → Bool) (key : κ) (change : α → α) (fresh : α) :
    List (κ × α) → List (κ × α)
  | [] => [(key, fresh)]
  | (other, value) :: rest =>
    if other = key then (other, change value) :: rest
    else if isBefore key other then (key, fresh) :: (other, value) :: rest
    else (other, value) :: alterInOrder isBefore key change fresh rest

/-- Whether a key has a value. -/
def contains (key : κ) (entries : List (κ × α)) : Bool :=
  (get? key entries).isSome

/-- The keys in order. -/
def keys (entries : List (κ × α)) : List κ :=
  entries.map Prod.fst

@[simp]
theorem get?_alter_self (key : κ) (change : α → α) (fresh : α) (entries : List (κ × α)) :
    get? key (alter key change fresh entries) =
      some (((get? key entries).map change).getD fresh) := by
  induction entries with
  | nil => simp [alter, get?]
  | cons entry rest inductive_hypothesis =>
    by_cases same : entry.1 = key <;> simp [alter, get?, same, inductive_hypothesis]

theorem get?_alter_of_ne {key other : κ} (different : other ≠ key) (change : α → α)
    (fresh : α) (entries : List (κ × α)) :
    get? other (alter key change fresh entries) = get? other entries := by
  induction entries with
  | nil => simp [alter, get?, Ne.symm different]
  | cons entry rest inductive_hypothesis =>
    by_cases same : entry.1 = key
    · simp [alter, get?, same, Ne.symm different]
    · simp [alter, get?, same, inductive_hypothesis]

theorem mem_of_get? {key : κ} {value : α} {entries : List (κ × α)}
    (found : get? key entries = some value) : (key, value) ∈ entries := by
  induction entries with
  | nil => cases found
  | cons head rest inductive_hypothesis =>
    simp only [get?] at found
    split at found
    · rename_i same
      have sameValue : head.2 = value := Option.some.inj found
      rw [← same, ← sameValue]
      exact List.mem_cons_self
    · exact List.mem_cons_of_mem head (inductive_hypothesis found)

/-- The keys that have a value are those in the list. -/
theorem get?_isSome_iff {key : κ} {entries : List (κ × α)} :
    (get? key entries).isSome = true ↔ key ∈ keys entries := by
  induction entries with
  | nil => simp [get?, keys]
  | cons head rest inductive_hypothesis =>
    by_cases same : head.1 = key
    · simp [get?, keys, same]
    · have different : ¬ key = head.1 := fun equal => same equal.symm
      simpa [get?, keys, same, different] using inductive_hypothesis

theorem get?_eq_none_iff {key : κ} {entries : List (κ × α)} :
    get? key entries = none ↔ key ∉ keys entries := by
  rw [← get?_isSome_iff, Bool.not_eq_true, Option.isSome_eq_false_iff, Option.isNone_iff_eq_none]

/-- Where no key occurs twice, every entry is what its key gives. -/
theorem get?_of_mem {key : κ} {value : α} {entries : List (κ × α)}
    (distinct : (keys entries).Nodup) (member : (key, value) ∈ entries) :
    get? key entries = some value := by
  induction entries with
  | nil => cases member
  | cons head rest inductive_hypothesis =>
    obtain ⟨fresh, below⟩ := List.nodup_cons.mp distinct
    rcases List.mem_cons.mp member with here | later
    · rw [← here]
      simp [get?]
    · have different : head.1 ≠ key := by
        intro same
        exact fresh (same ▸ List.mem_map_of_mem later)
      simpa [get?, different] using inductive_hypothesis below later

/-- A key that is not there is added at the end. -/
theorem alter_of_not_mem {key : κ} {entries : List (κ × α)} (absent : key ∉ keys entries)
    (change : α → α) (fresh : α) :
    alter key change fresh entries = entries ++ [(key, fresh)] := by
  induction entries with
  | nil => rfl
  | cons head rest inductive_hypothesis =>
    have apart : head.1 ≠ key ∧ key ∉ keys rest := by
      simpa [keys, eq_comm] using absent
    simp [alter, apart.1, inductive_hypothesis apart.2]

/-- A key that is there keeps its place. -/
theorem keys_alter_of_mem {key : κ} {entries : List (κ × α)} (present : key ∈ keys entries)
    (change : α → α) (fresh : α) :
    keys (alter key change fresh entries) = keys entries := by
  induction entries with
  | nil => cases present
  | cons head rest inductive_hypothesis =>
    by_cases same : head.1 = key
    · simp [alter, keys, same]
    · have below : key ∈ keys rest := by
        simpa [keys, Ne.symm same] using present
      have kept := inductive_hypothesis below
      simp only [keys] at kept
      simp [alter, keys, same, kept]

theorem nodup_keys_alter {entries : List (κ × α)} (distinct : (keys entries).Nodup) (key : κ)
    (change : α → α) (fresh : α) : (keys (alter key change fresh entries)).Nodup := by
  by_cases present : key ∈ keys entries
  · rwa [keys_alter_of_mem present]
  · rw [alter_of_not_mem present, keys, List.map_append]
    refine List.nodup_append.mpr ⟨distinct, List.pairwise_singleton _ _, ?_⟩
    intro other member added isAdded same
    have isKey : other = key := same.trans (List.mem_singleton.mp isAdded)
    exact present (isKey ▸ member)

theorem mem_alter {key : κ} {change : α → α} {fresh : α} {entries : List (κ × α)}
    {entry : κ × α} (member : entry ∈ alter key change fresh entries) :
    entry ∈ entries ∨ entry = (key, fresh) ∨
      ∃ old, (key, old) ∈ entries ∧ entry = (key, change old) := by
  induction entries with
  | nil => exact Or.inr (Or.inl (List.mem_singleton.mp member))
  | cons head rest inductive_hypothesis =>
    simp only [alter] at member
    split at member
    · rename_i same
      rcases List.mem_cons.mp member with changed | kept
      · exact Or.inr (Or.inr ⟨head.2, same ▸ List.mem_cons_self, same ▸ changed⟩)
      · exact Or.inl (List.mem_cons_of_mem _ kept)
    · rcases List.mem_cons.mp member with first | later
      · exact Or.inl (first ▸ List.mem_cons_self)
      · rcases inductive_hypothesis later with kept | added | ⟨old, oldMember, changed⟩
        · exact Or.inl (List.mem_cons_of_mem _ kept)
        · exact Or.inr (Or.inl added)
        · exact Or.inr (Or.inr ⟨old, List.mem_cons_of_mem _ oldMember, changed⟩)

/-! ## Lists in order -/

/-- What a test of precedence satisfies when it orders all keys. -/
structure IsOrder (isBefore : κ → κ → Bool) : Prop where
  irrefl : ∀ key, isBefore key key = false
  trans : ∀ {first second third},
    isBefore first second = true → isBefore second third = true →
      isBefore first third = true
  total : ∀ {left right}, left ≠ right →
    isBefore left right = true ∨ isBefore right left = true

/-- Each key precedes those that follow it. -/
def InOrder (isBefore : κ → κ → Bool) (entries : List (κ × α)) : Prop :=
  entries.Pairwise fun left right => isBefore left.1 right.1 = true

/-- A key that precedes all keys of a list is not in it. -/
theorem get?_eq_none_of_forall_before {isBefore : κ → κ → Bool} (order : IsOrder isBefore)
    {key : κ} {entries : List (κ × α)}
    (before : ∀ entry ∈ entries, isBefore key entry.1 = true) : get? key entries = none := by
  induction entries with
  | nil => rfl
  | cons head rest inductive_hypothesis =>
    have different : head.1 ≠ key := by
      intro same
      have contradictory := before head (by simp)
      rw [same, order.irrefl] at contradictory
      exact Bool.noConfusion contradictory
    have below : get? key rest = none :=
      inductive_hypothesis fun entry member => before entry (by simp [member])
    simp [get?, different, below]

theorem InOrder.get?_eq_none_of_before {isBefore : κ → κ → Bool} (order : IsOrder isBefore)
    {key : κ} {head : κ × α} {rest : List (κ × α)} (ordered : InOrder isBefore (head :: rest))
    (before : isBefore key head.1 = true) : get? key (head :: rest) = none := by
  apply get?_eq_none_of_forall_before order
  intro entry member
  rcases List.mem_cons.mp member with same | later
  · rw [same]
    exact before
  · exact order.trans before (List.rel_of_pairwise_cons ordered later)

theorem InOrder.get?_rest_eq_none {isBefore : κ → κ → Bool} (order : IsOrder isBefore)
    {head : κ × α} {rest : List (κ × α)} (ordered : InOrder isBefore (head :: rest)) :
    get? head.1 rest = none :=
  get?_eq_none_of_forall_before order fun _ member => List.rel_of_pairwise_cons ordered member

theorem mem_alterInOrder {isBefore : κ → κ → Bool} {key : κ} {change : α → α} {fresh : α}
    {entries : List (κ × α)} {entry : κ × α}
    (member : entry ∈ alterInOrder isBefore key change fresh entries) :
    entry.1 = key ∨ ∃ old ∈ entries, old.1 = entry.1 := by
  induction entries with
  | nil =>
    rw [alterInOrder, List.mem_singleton] at member
    exact Or.inl (by rw [member])
  | cons head rest inductive_hypothesis =>
    simp only [alterInOrder] at member
    split at member
    · rcases List.mem_cons.mp member with changed | below
      · exact Or.inr ⟨head, by simp, by rw [changed]⟩
      · exact Or.inr ⟨entry, by simp [below], rfl⟩
    · split at member
      · rcases List.mem_cons.mp member with added | below
        · exact Or.inl (by rw [added])
        · exact Or.inr ⟨entry, below, rfl⟩
      · rcases List.mem_cons.mp member with kept | below
        · exact Or.inr ⟨head, by simp, by rw [kept]⟩
        · rcases inductive_hypothesis below with same | ⟨old, oldMember, same⟩
          · exact Or.inl same
          · exact Or.inr ⟨old, by simp [oldMember], same⟩

/-- Changing a value or adding a key in its place keeps the order. -/
theorem InOrder.alterInOrder {isBefore : κ → κ → Bool} (order : IsOrder isBefore) {key : κ}
    {change : α → α} {fresh : α} {entries : List (κ × α)} (ordered : InOrder isBefore entries) :
    InOrder isBefore (alterInOrder isBefore key change fresh entries) := by
  induction entries with
  | nil => exact List.pairwise_singleton _ _
  | cons head rest inductive_hypothesis =>
    obtain ⟨first, below⟩ := List.pairwise_cons.mp ordered
    simp only [Keyed.alterInOrder]
    split
    · exact List.pairwise_cons.mpr ⟨first, below⟩
    · rename_i different
      split
      · rename_i before
        refine List.pairwise_cons.mpr ⟨?_, ordered⟩
        intro entry member
        rcases List.mem_cons.mp member with same | later
        · rw [same]
          exact before
        · exact order.trans before (first entry later)
      · rename_i notBefore
        refine List.pairwise_cons.mpr ⟨?_, inductive_hypothesis below⟩
        intro entry member
        rcases mem_alterInOrder member with same | ⟨old, oldMember, same⟩
        · rw [same]
          exact (order.total different).resolve_right notBefore
        · rw [← same]
          exact first old oldMember

theorem get?_alterInOrder_self {isBefore : κ → κ → Bool} (order : IsOrder isBefore) (key : κ)
    (change : α → α) (fresh : α) {entries : List (κ × α)} (ordered : InOrder isBefore entries) :
    get? key (alterInOrder isBefore key change fresh entries) =
      some (((get? key entries).map change).getD fresh) := by
  induction entries with
  | nil => simp [alterInOrder, get?]
  | cons head rest inductive_hypothesis =>
    by_cases same : head.1 = key
    · simp [alterInOrder, get?, same]
    · by_cases before : isBefore key head.1 = true
      · rw [ordered.get?_eq_none_of_before order before]
        simp [alterInOrder, get?, same, before]
      · simp [alterInOrder, get?, same, before,
          inductive_hypothesis (List.pairwise_cons.mp ordered).2]

theorem get?_alterInOrder_of_ne {isBefore : κ → κ → Bool} {key other : κ}
    (different : other ≠ key) (change : α → α) (fresh : α) (entries : List (κ × α)) :
    get? other (alterInOrder isBefore key change fresh entries) = get? other entries := by
  induction entries with
  | nil => simp [alterInOrder, get?, Ne.symm different]
  | cons head rest inductive_hypothesis =>
    by_cases same : head.1 = key
    · simp [alterInOrder, get?, same, Ne.symm different]
    · by_cases before : isBefore key head.1 = true
      · simp [alterInOrder, get?, same, before, Ne.symm different]
      · simp [alterInOrder, get?, same, before, inductive_hypothesis]

/-- Two lists in order that give each key the same value are equal. -/
theorem InOrder.ext {isBefore : κ → κ → Bool} (order : IsOrder isBefore)
    {left right : List (κ × α)} (leftOrdered : InOrder isBefore left)
    (rightOrdered : InOrder isBefore right)
    (same : ∀ key, get? key left = get? key right) : left = right := by
  induction left generalizing right with
  | nil =>
    cases right with
    | nil => rfl
    | cons head rest =>
      have impossible := same head.1
      simp [get?] at impossible
  | cons leftHead leftRest inductive_hypothesis =>
    cases right with
    | nil =>
      have impossible := same leftHead.1
      simp [get?] at impossible
    | cons rightHead rightRest =>
      -- A first key that preceded the other one would be missing on the other side.
      have sameKey : leftHead.1 = rightHead.1 := by
        by_cases equal : leftHead.1 = rightHead.1
        · exact equal
        · rcases order.total equal with before | before
          · have impossible := same leftHead.1
            rw [rightOrdered.get?_eq_none_of_before order before] at impossible
            simp [get?] at impossible
          · have impossible := same rightHead.1
            rw [leftOrdered.get?_eq_none_of_before order before] at impossible
            simp [get?] at impossible
      have sameValue : leftHead.2 = rightHead.2 := by
        have values := same leftHead.1
        simpa [get?, sameKey] using values
      have sameRest : ∀ key, get? key leftRest = get? key rightRest := by
        intro key
        by_cases first : leftHead.1 = key
        · have leftAbsent := leftOrdered.get?_rest_eq_none order
          have rightAbsent := rightOrdered.get?_rest_eq_none order
          rw [← sameKey] at rightAbsent
          rw [← first, leftAbsent, rightAbsent]
        · simpa [get?, first, ← sameKey] using same key
      have leftBelow := (List.pairwise_cons.mp leftOrdered).2
      have rightBelow := (List.pairwise_cons.mp rightOrdered).2
      rw [Prod.ext sameKey sameValue, inductive_hypothesis leftBelow rightBelow sameRest]

end TypeReach.Keyed
