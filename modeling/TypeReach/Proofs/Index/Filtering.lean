import TypeReach.Index.Components
import TypeReach.Index.Factories
import TypeReach.Proofs.Keyed

/-!
# Index files without rejected types

Rejected types are taken out of the values of some keys of a factories file, and
out of the types of a components file.  Values are texts in any spelling, and some
name no type at all, while candidates are types, each listed once over all keys.
Still it does not matter whether rejected types are taken out of the values or out
of the candidates, and what is rejected can be taken out at once or step by step.
-/

namespace TypeReach.Index

namespace Factories

theorem isRejected_iff
    {rejected : List TypeName} {value : String} :
    isRejected rejected value = true ↔ ∃ name ∈ rejected, TypeName.parse? value = some name := by
  unfold isRejected
  cases TypeName.parse? value with
  | none => simp
  | some name => simp

/-- What filtering leaves of the values of a key. -/
def retained (keys : List String) (rejected : List TypeName) (key : String)
    (values : List String) : List String :=
  if key ∈ keys then values.filter (! isRejected rejected ·) else values

theorem entries_filtered (index : Factories) (keys : List String) (rejected : List TypeName) :
    (index.filtered keys rejected).entries =
      index.entries.map fun entry => (entry.1, retained keys rejected entry.1 entry.2) := by
  apply List.map_congr_left
  intro entry _
  by_cases selected : entry.1 ∈ keys <;> simp [retained, selected]

theorem get?_filtered
    (index : Factories) (keys : List String) (rejected : List TypeName) (key : String) :
    Keyed.get? key (index.filtered keys rejected).entries =
      (Keyed.get? key index.entries).map (retained keys rejected key) := by
  rw [entries_filtered]
  induction index.entries with
  | nil => rfl
  | cons entry rest inductive_hypothesis =>
      by_cases same : entry.1 = key
      · simp [Keyed.get?, same]
      · simpa [Keyed.get?, same] using inductive_hypothesis

theorem values_filtered
    (index : Factories) (keys : List String) (rejected : List TypeName) (key : String) :
    (index.filtered keys rejected).values key = retained keys rejected key (index.values key) := by
  rw [values, get?_filtered, values]
  cases Keyed.get? key index.entries with
  | none => simp [retained]
  | some values => rfl

theorem values_filtered_of_not_mem
    (index : Factories) {keys : List String} (rejected : List TypeName)
    {key : String}
    (spared : key ∉ keys) :
    (index.filtered keys rejected).values key = index.values key := by
  rw [values_filtered, retained, if_neg spared]

/-- Reading the types of values commutes with taking rejected ones out. -/
theorem filterMap_parse?_filter
    (rejected : List TypeName) (values : List String) :
    (values.filter (! isRejected rejected ·)).filterMap TypeName.parse? =
      (values.filterMap TypeName.parse?).filter (! rejected.contains ·) := by
  rw [List.filterMap_filter, List.filter_filterMap]
  apply List.filterMap_congr
  intro value _
  cases read : TypeName.parse? value with
  | none => simp
  | some name => simp [isRejected, read, Option.filter]

/-- What is left of the candidates under some keys is what was not rejected, in its order. -/
theorem candidates_filtered
    (index : Factories) (keys : List String) (rejected : List TypeName) :
    (index.filtered keys rejected).candidates keys =
      (index.candidates keys).filter (! rejected.contains ·) := by
  have values :
      keys.flatMap (index.filtered keys rejected).values =
        (keys.flatMap index.values).filter (! isRejected rejected ·) := by
    rw [List.filter_flatMap]
    apply List.flatMap_congr
    intro key selected
    rw [values_filtered, retained, if_pos selected]
  rw [candidates, values, filterMap_parse?_filter, eraseDups_filter, candidates]

theorem mem_candidates_iff
    {index : Factories} {keys : List String} {name : TypeName} :
    name ∈ index.candidates keys ↔
      ∃ key ∈ keys, ∃ value ∈ index.values key, TypeName.parse? value = some name := by
  simp only [candidates, List.mem_eraseDups, List.mem_filterMap, List.mem_flatMap]
  constructor
  · rintro ⟨value, ⟨key, selected, member⟩, read⟩
    exact ⟨key, selected, value, member, read⟩
  · rintro ⟨key, selected, value, member, read⟩
    exact ⟨value, ⟨key, selected, member⟩, read⟩

theorem retained_retained
    {first second both : List TypeName}
    (union : ∀ name, name ∈ both ↔ name ∈ first ∨ name ∈ second)
    (keys : List String) (key : String) (values : List String) :
    retained keys second key (retained keys first key values) = retained keys both key values := by
  have rejectedByEither : ∀ value,
      isRejected both value = (isRejected second value || isRejected first value) := by
    intro value
    rw [Bool.eq_iff_iff, Bool.or_eq_true, isRejected_iff, isRejected_iff, isRejected_iff]
    simp only [union, or_and_right, exists_or]
    exact or_comm
  unfold retained
  split
  · rw [List.filter_filter]
    apply List.filter_congr
    intro value _
    rw [rejectedByEither, Bool.not_or]
  · rfl

/-- Types can be rejected in two steps or at once. -/
theorem filtered_filtered
    (index : Factories)
    {first second both : List TypeName}
    (union : ∀ name, name ∈ both ↔ name ∈ first ∨ name ∈ second)
    (keys : List String) :
    (index.filtered keys first).filtered keys second = index.filtered keys both := by
  have entries : ((index.filtered keys first).filtered keys second).entries =
      (index.filtered keys both).entries := by
    rw [entries_filtered, entries_filtered, entries_filtered, List.map_map]
    apply List.map_congr_left
    intro entry _
    simp only [Function.comp_apply, retained_retained union]
  exact congrArg Factories.mk entries

/--
Taking rejected types out of the values of some keys leaves the candidates under
these keys that were not rejected, in their order.  What is rejected in two steps
might as well be rejected at once.  The keys and what other keys have do not change.
-/
theorem filtered_commutes
    (index : Factories) (keys : List String) (first second : List TypeName) :
    (index.candidates keys).Nodup ∧
    (∀ name, name ∈ index.candidates keys ↔
      ∃ key ∈ keys, ∃ value ∈ index.values key, TypeName.parse? value = some name) ∧
    (index.filtered keys first).candidates keys =
      (index.candidates keys).filter (fun name => decide (name ∉ first)) ∧
    (∀ both : List TypeName, (∀ name, name ∈ both ↔ name ∈ first ∨ name ∈ second) →
      (index.filtered keys first).filtered keys second = index.filtered keys both) ∧
    Keyed.keys (index.filtered keys first).entries = Keyed.keys index.entries ∧
    ∀ key, key ∉ keys → (index.filtered keys first).values key = index.values key := by
  refine ⟨nodup_eraseDups _, fun name => mem_candidates_iff, ?_, ?_,
    index.keys_filtered keys first, ?_⟩
  · rw [candidates_filtered]
    apply List.filter_congr
    intro name _
    simp
  · exact fun both union => index.filtered_filtered union keys
  · exact fun key => index.values_filtered_of_not_mem first

end Factories

theorem Components.types_filtered
    (index : Components) (rejected : List TypeName) :
    (index.filtered rejected).types = index.types.filter (! rejected.contains ·) := by
  simp only [filtered, types, Keyed.keys, List.filter_map]
  rfl

end TypeReach.Index
