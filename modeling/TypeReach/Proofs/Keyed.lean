import Mathlib.Data.List.Basic
import TypeReach.Keyed

/-!
# Keyed lists that are built entry by entry

Entries are added one after the other.  A key that is new takes its place at the
end; a key that is there already keeps its place, and its old value is combined
with the new one.  So the keys of the outcome are those that were there before and
then the new ones in the order of their first occurrences, and no key is there
twice.

Lists without a repeated key are equal when they have the same keys in the same
order and the same value for each.  Therefore adding lists to each other obeys the
laws that the combination of values obeys.
-/

namespace TypeReach

/-! ## Lists without repetitions -/

theorem nodup_eraseDups
    {α : Type} [DecidableEq α]
    (values : List α) :
    values.eraseDups.Nodup := by
  match values with
  | [] => exact List.nodup_nil
  | value :: rest =>
      rw [List.eraseDups_cons, List.nodup_cons]
      constructor
      · intro member
        simp at member
      · exact nodup_eraseDups _
termination_by values.length
decreasing_by exact Nat.lt_succ_of_le (List.length_filter_le _ _)

theorem eraseDups_filter
    {α : Type} [DecidableEq α]
    (test : α → Bool) (values : List α) :
    (values.filter test).eraseDups = values.eraseDups.filter test := by
  match values with
  | [] => rfl
  | value :: rest =>
      rw [List.eraseDups_cons]
      by_cases passes : test value = true
      · rw [List.filter_cons_of_pos passes, List.filter_cons_of_pos passes,
          List.eraseDups_cons, ← eraseDups_filter test, List.filter_comm]
      · -- The value itself is the only one that the first filter drops in addition.
        rw [List.filter_cons_of_neg passes, List.filter_cons_of_neg passes,
          ← eraseDups_filter test, List.filter_filter]
        congr 1
        apply List.filter_congr
        intro other _
        by_cases same : other = value
        · simp [same, passes]
        · simp [same]
termination_by values.length
decreasing_by
  all_goals exact Nat.lt_succ_of_le (List.length_filter_le _ _)

theorem eraseDups_of_nodup
    {α : Type} [DecidableEq α]
    {values : List α}
    (distinct : values.Nodup) :
    values.eraseDups = values := by
  induction values with
  | nil => rfl
  | cons value rest inductive_hypothesis =>
      obtain ⟨fresh, below⟩ := List.nodup_cons.mp distinct
      have untouched : rest.filter (fun other => ! other == value) = rest := by
        apply List.filter_eq_self.mpr
        intro other member
        have different : other ≠ value := fun same => fresh (same ▸ member)
        simpa using different
      rw [List.eraseDups_cons, untouched, inductive_hypothesis below]

namespace Keyed

variable {κ α : Type} [DecidableEq κ]

/-- Lists with the same keys, none of them twice, and the same values are equal. -/
theorem ext_get?
    {left right : List (κ × α)}
    (sameKeys : keys left = keys right)
    (distinct : (keys left).Nodup)
    (sameValues : ∀ key, get? key left = get? key right) :
    left = right := by
  induction left generalizing right with
  | nil => exact (List.map_eq_nil_iff.mp sameKeys.symm).symm
  | cons head rest inductive_hypothesis =>
      cases right with
      | nil => cases sameKeys
      | cons otherHead otherRest =>
          obtain ⟨sameKey, sameBelow⟩ := List.cons.inj sameKeys
          obtain ⟨fresh, below⟩ := List.nodup_cons.mp distinct
          have sameValue : head.2 = otherHead.2 := by
            have values := sameValues head.1
            simpa [get?, sameKey] using values
          have sameRest : rest = otherRest := by
            apply inductive_hypothesis sameBelow below
            intro key
            by_cases first : head.1 = key
            · have absent : key ∉ keys rest := first ▸ fresh
              have otherAbsent : key ∉ keys otherRest := by
                rwa [keys, ← sameBelow]
              rw [get?_eq_none_iff.mpr absent, get?_eq_none_iff.mpr otherAbsent]
            · have values := sameValues key
              simpa [get?, first, ← sameKey] using values
          rw [Prod.ext sameKey sameValue, sameRest]

/-! ## Entries that are added -/

/--
Add entries one after the other.  Where a key is there already, the old value is
combined with the new one.
-/
def addAll (combine : α → α → α) (added entries : List (κ × α)) : List (κ × α) :=
  added.foldl (fun entries entry => alter entry.1 (combine · entry.2) entry.2 entries) entries

variable {combine : α → α → α} {added entries : List (κ × α)}

theorem addAll_cons
    (combine : α → α → α)
    (entry : κ × α)
    (rest entries : List (κ × α)) :
    addAll combine (entry :: rest) entries =
      addAll combine rest (alter entry.1 (combine · entry.2) entry.2 entries) :=
  rfl

/-- Keys that were there keep their places; new ones follow, each at its first occurrence. -/
theorem keys_addAll
    (combine : α → α → α)
    (added entries : List (κ × α)) :
    keys (addAll combine added entries) =
      keys entries ++ ((keys added).filter (! (keys entries).contains ·)).eraseDups := by
  induction added generalizing entries with
  | nil => simp [addAll, keys]
  | cons first rest inductive_hypothesis =>
      have split : keys (first :: rest) = first.1 :: keys rest := rfl
      rw [addAll_cons, inductive_hypothesis, split]
      by_cases present : first.1 ∈ keys entries
      · rw [keys_alter_of_mem present, List.filter_cons_of_neg (by simpa using present)]
      · have extended : keys (alter first.1 (combine · first.2) first.2 entries) =
            keys entries ++ [first.1] := by
          rw [alter_of_not_mem present, keys, List.map_append]
          rfl
        have following : (keys rest).filter (! (keys entries ++ [first.1]).contains ·) =
            ((keys rest).filter (! (keys entries).contains ·)).filter (! · == first.1) := by
          rw [List.filter_filter]
          apply List.filter_congr
          intro key _
          rw [List.contains_append, Bool.not_or, Bool.and_comm, List.contains_cons]
          simp
        rw [extended, following, List.filter_cons_of_pos (by simpa using present),
          List.eraseDups_cons, List.append_assoc]
        rfl

theorem keys_addAll_of_nodup
    (combine : α → α → α)
    (distinct : (keys added).Nodup)
    (entries : List (κ × α)) :
    keys (addAll combine added entries) =
      keys entries ++ (keys added).filter (! (keys entries).contains ·) := by
  rw [keys_addAll, eraseDups_of_nodup (distinct.sublist List.filter_sublist)]

theorem prefix_keys_addAll
    (combine : α → α → α)
    (added entries : List (κ × α)) :
    keys entries <+: keys (addAll combine added entries) := by
  rw [keys_addAll]
  exact List.prefix_append _ _

theorem mem_keys_addAll_iff
    {key : κ} :
    key ∈ keys (addAll combine added entries) ↔ key ∈ keys entries ∨ key ∈ keys added := by
  rw [keys_addAll, List.mem_append, List.mem_eraseDups, List.mem_filter]
  by_cases present : key ∈ keys entries <;> simp [present]

theorem nodup_keys_addAll
    (combine : α → α → α)
    (added : List (κ × α))
    (distinct : (keys entries).Nodup) :
    (keys (addAll combine added entries)).Nodup := by
  induction added generalizing entries with
  | nil => exact distinct
  | cons first rest inductive_hypothesis =>
      exact inductive_hypothesis (nodup_keys_alter distinct _ _ _)

theorem get?_addAll_of_not_mem
    {key : κ}
    (absent : key ∉ keys added) :
    get? key (addAll combine added entries) = get? key entries := by
  induction added generalizing entries with
  | nil => rfl
  | cons first rest inductive_hypothesis =>
      have apart : key ≠ first.1 ∧ key ∉ keys rest := by
        simpa [keys] using absent
      rw [addAll_cons, inductive_hypothesis apart.2, get?_alter_of_ne apart.1]

/-- A key has the combination of the values that it has in both lists. -/
theorem get?_addAll
    (distinct : (keys added).Nodup)
    (key : κ) :
    get? key (addAll combine added entries) =
      (get? key entries).merge combine (get? key added) := by
  induction added generalizing entries with
  | nil => simp [addAll, get?]
  | cons first rest inductive_hypothesis =>
      obtain ⟨fresh, below⟩ := List.nodup_cons.mp distinct
      rw [addAll_cons]
      by_cases same : first.1 = key
      · subst key
        rw [get?_addAll_of_not_mem fresh, get?_alter_self]
        cases get? first.1 entries <;> simp [get?]
      · rw [inductive_hypothesis below, get?_alter_of_ne (Ne.symm same)]
        simp [get?, same]

/-- Keys that are all new are added in their order. -/
theorem addAll_of_nodup
    (distinct : (keys (entries ++ added)).Nodup) :
    addAll combine added entries = entries ++ added := by
  induction added generalizing entries with
  | nil => simp [addAll]
  | cons entry rest inductive_hypothesis =>
      have absent : entry.1 ∉ keys entries := by
        rw [keys, List.map_append] at distinct
        intro present
        exact (List.nodup_append.mp distinct).2.2 _ present _ List.mem_cons_self rfl
      rw [addAll_cons, alter_of_not_mem absent, inductive_hypothesis (by simpa using distinct)]
      simp

/-- Lists can be added in either grouping where values can be combined in either. -/
theorem addAll_addAll
    [Std.Associative combine]
    {first second third : List (κ × α)}
    (distinct : (keys first).Nodup)
    (distinctSecond : (keys second).Nodup)
    (distinctThird : (keys third).Nodup) :
    addAll combine third (addAll combine second first) =
      addAll combine (addAll combine third second) first := by
  have distinctBoth := nodup_keys_addAll combine third distinctSecond
  apply ext_get?
  · rw [keys_addAll_of_nodup combine distinctThird, keys_addAll_of_nodup combine distinctSecond,
      keys_addAll_of_nodup combine distinctBoth, keys_addAll_of_nodup combine distinctThird,
      List.filter_append, List.filter_filter, List.append_assoc]
    congr 2
    apply List.filter_congr
    intro key _
    by_cases present : key ∈ keys first <;> simp [present]
  · exact nodup_keys_addAll combine third (nodup_keys_addAll combine second distinct)
  · intro key
    rw [get?_addAll distinctThird, get?_addAll distinctSecond, get?_addAll distinctBoth,
      get?_addAll distinctThird]
    exact (Option.associative_merge combine).assoc _ _ _

/-- A list that was added before changes nothing where its values change nothing. -/
theorem addAll_again
    (absorbs : ∀ old new, combine (combine old new) new = combine old new)
    (same : ∀ value, combine value value = value)
    (distinct : (keys entries).Nodup)
    (distinctAdded : (keys added).Nodup) :
    addAll combine added (addAll combine added entries) = addAll combine added entries := by
  apply ext_get?
  · have nothingNew : (keys added).filter
        (! (keys (addAll combine added entries)).contains ·) = [] := by
      apply List.filter_eq_nil_iff.mpr
      intro key member
      simpa using mem_keys_addAll_iff.mpr (Or.inr member)
    rw [keys_addAll_of_nodup combine distinctAdded (addAll combine added entries), nothingNew,
      List.append_nil]
  · exact nodup_keys_addAll combine added (nodup_keys_addAll combine added distinct)
  · intro key
    rw [get?_addAll distinctAdded, get?_addAll distinctAdded]
    cases get? key entries <;> cases get? key added <;> simp [absorbs, same]

/-- Where one of two values is kept as it is, no entry is new. -/
theorem mem_addAll
    (picks : ∀ old new, combine old new = old ∨ combine old new = new)
    {entry : κ × α}
    (member : entry ∈ addAll combine added entries) :
    entry ∈ added ∨ entry ∈ entries := by
  induction added generalizing entries with
  | nil => exact Or.inr member
  | cons first rest inductive_hypothesis =>
      rcases inductive_hypothesis member with later | present
      · exact Or.inl (List.mem_cons_of_mem _ later)
      · rcases mem_alter present with kept | added | ⟨old, before, changed⟩
        · exact Or.inr kept
        · exact Or.inl (added ▸ List.mem_cons_self)
        · rcases picks old first.2 with isOld | isNew
          · exact Or.inr (by rwa [changed, isOld])
          · exact Or.inl (by rw [changed, isNew]; exact List.mem_cons_self)

/-! ## Values that are replaced -/

/-- Give keys their values one after the other. -/
def setAll (added entries : List (κ × α)) : List (κ × α) :=
  added.foldl (fun entries entry => set entry.1 entry.2 entries) entries

theorem setAll_eq_addAll (added entries : List (κ × α)) :
    setAll added entries = addAll (fun _ value => value) added entries :=
  rfl

theorem setAll_cons
    (entry : κ × α)
    (rest entries : List (κ × α)) :
    setAll (entry :: rest) entries = setAll rest (set entry.1 entry.2 entries) :=
  rfl

theorem set_of_not_mem
    {entry : κ × α}
    {entries : List (κ × α)}
    (absent : entry.1 ∉ keys entries) :
    set entry.1 entry.2 entries = entries ++ [entry] :=
  alter_of_not_mem absent _ _

theorem setAll_of_nodup
    {added entries : List (κ × α)}
    (distinct : (keys (entries ++ added)).Nodup) :
    setAll added entries = entries ++ added := by
  rw [setAll_eq_addAll, addAll_of_nodup distinct]

theorem length_set_of_mem
    {entry : κ × α}
    {entries : List (κ × α)}
    (present : entry.1 ∈ keys entries) :
    (set entry.1 entry.2 entries).length = entries.length := by
  have sameKeys := congrArg List.length
    (keys_alter_of_mem present (fun _ => entry.2) entry.2)
  simpa [set, keys] using sameKeys

theorem length_setAll_le (added entries : List (κ × α)) :
    (setAll added entries).length ≤ entries.length + added.length := by
  induction added generalizing entries with
  | nil => exact Nat.le_refl _
  | cons entry rest inductive_hypothesis =>
      rw [setAll_cons]
      have below := inductive_hypothesis (set entry.1 entry.2 entries)
      by_cases present : entry.1 ∈ keys entries
      · rw [length_set_of_mem present] at below
        grind
      · rw [set_of_not_mem present] at below ⊢
        grind

/-- Where nothing is replaced, everything is added in its order. -/
theorem setAll_of_length_le
    {added entries : List (κ × α)}
    (nothingLost : entries.length + added.length ≤ (setAll added entries).length) :
    setAll added entries = entries ++ added := by
  induction added generalizing entries with
  | nil => simp [setAll]
  | cons entry rest inductive_hypothesis =>
      rw [setAll_cons] at nothingLost ⊢
      by_cases present : entry.1 ∈ keys entries
      · have lost := length_setAll_le rest (set entry.1 entry.2 entries)
        rw [length_set_of_mem present] at lost
        simp only [List.length_cons] at nothingLost
        omega
      · rw [set_of_not_mem present] at nothingLost ⊢
        rw [inductive_hypothesis (by simpa [Nat.add_assoc, Nat.add_comm 1] using nothingLost)]
        simp

theorem mem_setAll
    {added entries : List (κ × α)} {entry : κ × α}
    (member : entry ∈ setAll added entries) :
    entry ∈ added ∨ entry ∈ entries :=
  mem_addAll (fun _ _ => Or.inr rfl) member

/-- The last value set for a key stays. -/
theorem get?_setAll_append_cons
    (before : List (κ × α))
    {key : κ}
    (value : α)
    {after : List (κ × α)}
    (notAgain : key ∉ keys after)
    (entries : List (κ × α)) :
    get? key (setAll (before ++ (key, value) :: after) entries) = some value := by
  rw [setAll, List.foldl_append, ← setAll, ← setAll, setAll_cons, setAll_eq_addAll,
    get?_addAll_of_not_mem notAgain, set, get?_alter_self]
  cases get? key (setAll before entries) <;> rfl

/-- A key takes the place of its first occurrence. -/
theorem keys_setAll
    (added entries : List (κ × α)) :
    keys (setAll added entries) =
      keys entries ++ ((keys added).filter (! (keys entries).contains ·)).eraseDups := by
  rw [setAll_eq_addAll, keys_addAll]

end Keyed

end TypeReach
