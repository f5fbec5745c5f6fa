import Mathlib.Data.List.Forall2
import TypeReach.Index.Discovery
import TypeReach.Proofs.Index.Formed
import TypeReach.Proofs.Keyed
import TypeReach.Proofs.Steps

/-!
# Index files that are merged

Both kinds of index are lists with distinct keys.  Where a key is in both of two
indexes, a factories index adds the values that are new to those that are there,
and a components index keeps the stereotype that is there.  Either way it does not
matter how a sequence of indexes is grouped, and an index that was merged before
adds nothing.

A key that only the other index has comes with its values as they are, repetitions
included.  Repetitions are therefore kept in the index where they are read and lost
when it is merged into one that has the key; the laws hold in spite of that.
-/

namespace TypeReach.Index

/-! ## Sequences of indexes -/

/--
Merging indexes of some kind into each other is an accumulation: it is associative,
the empty index changes nothing, and neither does one that was merged before.
-/
structure Accumulates {ι : Type} (reachable : ι → Prop) (empty : ι) (merge : ι → ι → ι) :
    Prop where
  reachable_empty : reachable empty
  reachable_merge : ∀ {index other}, reachable index → reachable other →
    reachable (merge index other)
  assoc : ∀ {first second third}, reachable first → reachable second → reachable third →
    merge (merge first second) third = merge first (merge second third)
  empty_merge : ∀ {index}, reachable index → merge empty index = index
  merge_empty : ∀ {index}, reachable index → merge index empty = index
  merge_again : ∀ {index other}, reachable index → reachable other →
    merge (merge index other) other = merge index other

/-- Lists with distinct keys accumulate where the combination of values does. -/
theorem accumulates_of_addAll
    {ι κ α : Type} [DecidableEq κ]
    {combine : α → α → α} [Std.Associative combine]
    (absorbs : ∀ old new, combine (combine old new) new = combine old new)
    (same : ∀ value, combine value value = value)
    {reachable : ι → Prop} {empty : ι} {merge : ι → ι → ι}
    {entries : ι → List (κ × α)}
    (injective : Function.Injective entries)
    (noEntries : entries empty = [])
    (entries_merge : ∀ index other,
      entries (merge index other) = Keyed.addAll combine (entries other) (entries index))
    (reachable_empty : reachable empty)
    (reachable_merge : ∀ {index other}, reachable index → reachable other →
      reachable (merge index other))
    (distinct : ∀ {index}, reachable index → (Keyed.keys (entries index)).Nodup) :
    Accumulates reachable empty merge where
  reachable_empty := reachable_empty
  reachable_merge := reachable_merge
  assoc reached reachedSecond reachedThird := by
    apply injective
    simp only [entries_merge]
    exact Keyed.addAll_addAll (distinct reached) (distinct reachedSecond) (distinct reachedThird)
  empty_merge reached := by
    apply injective
    rw [entries_merge, noEntries]
    exact Keyed.addAll_of_nodup (distinct reached)
  merge_empty _ := by
    apply injective
    rw [entries_merge, noEntries]
    rfl
  merge_again reached reachedOther := by
    apply injective
    simp only [entries_merge]
    exact Keyed.addAll_again absorbs same (distinct reached) (distinct reachedOther)

/-- A sequence that is put into groups, groups of groups and so on. -/
inductive Grouping (ι : Type) where
  | nothing
  | single (index : ι)
  | pair (first second : Grouping ι)

namespace Grouping

variable {ι : Type}

def sequence : Grouping ι → List ι
  | nothing => []
  | single index => [index]
  | pair first second => first.sequence ++ second.sequence

/-- Merge each group on its own and then the groups. -/
def merged (empty : ι) (merge : ι → ι → ι) : Grouping ι → ι
  | nothing => empty
  | single index => index
  | pair first second => merge (first.merged empty merge) (second.merged empty merge)

variable {reachable : ι → Prop} {empty : ι} {merge : ι → ι → ι}

theorem reachable_merged
    (laws : Accumulates reachable empty merge)
    {grouping : Grouping ι}
    (reached : ∀ index ∈ grouping.sequence, reachable index) :
    reachable (grouping.merged empty merge) := by
  induction grouping with
  | nothing => exact laws.reachable_empty
  | single index => exact reached index (List.mem_singleton_self index)
  | pair first second inFirst inSecond =>
      rcases List.forall_mem_append.mp reached with ⟨reachedFirst, reachedSecond⟩
      exact laws.reachable_merge (inFirst reachedFirst) (inSecond reachedSecond)

/-- Merging a grouped sequence into an index is merging its elements one by one. -/
theorem merge_merged
    (laws : Accumulates reachable empty merge)
    {grouping : Grouping ι}
    (reached : ∀ index ∈ grouping.sequence, reachable index)
    {start : ι}
    (reachedStart : reachable start) :
    merge start (grouping.merged empty merge) = grouping.sequence.foldl merge start := by
  induction grouping generalizing start with
  | nothing => exact laws.merge_empty reachedStart
  | single index => rfl
  | pair first second inFirst inSecond =>
      rcases List.forall_mem_append.mp reached with ⟨reachedFirst, reachedSecond⟩
      have mergedFirst := reachable_merged laws reachedFirst
      calc
        merge start (merge (first.merged empty merge) (second.merged empty merge))
        _ = merge (merge start (first.merged empty merge)) (second.merged empty merge) :=
            (laws.assoc reachedStart mergedFirst (reachable_merged laws reachedSecond)).symm
        _ = second.sequence.foldl merge (merge start (first.merged empty merge)) :=
            inSecond reachedSecond (laws.reachable_merge reachedStart mergedFirst)
        _ = second.sequence.foldl merge (first.sequence.foldl merge start) := by
            rw [inFirst reachedFirst reachedStart]
        _ = (first.sequence ++ second.sequence).foldl merge start :=
            List.foldl_append.symm

/-- However a sequence is grouped, merging it comes to merging its elements in order. -/
theorem merged_eq_foldl
    (laws : Accumulates reachable empty merge)
    {grouping : Grouping ι}
    (reached : ∀ index ∈ grouping.sequence, reachable index) :
    grouping.merged empty merge = grouping.sequence.foldl merge empty := by
  rw [← merge_merged laws reached laws.reachable_empty,
    laws.empty_merge (reachable_merged laws reached)]

end Grouping

/-! ## Factories files -/

namespace Factories

theorem addNew_cons (present : List String) (value : String) (rest : List String) :
    addNew present (value :: rest) = addNew (addNew present [value]) rest :=
  rfl

theorem addNew_append (present first second : List String) :
    addNew present (first ++ second) = addNew (addNew present first) second :=
  List.foldl_append

theorem addNew_of_mem
    {present : List String} {value : String}
    (member : value ∈ present) :
    addNew present [value] = present :=
  if_pos member

theorem addNew_of_not_mem
    {present : List String} {value : String}
    (absent : value ∉ present) :
    addNew present [value] = present ++ [value] :=
  if_neg absent

theorem addNew_assoc (first second third : List String) :
    addNew (addNew first second) third = addNew first (addNew second third) := by
  induction third generalizing second with
  | nil => rfl
  | cons value rest inductive_hypothesis =>
      have one : addNew (addNew first second) [value] = addNew first (addNew second [value]) := by
        by_cases present : value ∈ second
        · rw [addNew_of_mem present, addNew_of_mem (mem_addNew_iff.mpr (Or.inr present))]
        · rw [addNew_of_not_mem present, addNew_append]
      calc
        addNew (addNew first second) (value :: rest)
        _ = addNew (addNew first (addNew second [value])) rest := by rw [addNew_cons, one]
        _ = addNew first (addNew (addNew second [value]) rest) := inductive_hypothesis _
        _ = addNew first (addNew second (value :: rest)) := by
            rw [addNew_cons second value rest]

instance : Std.Associative addNew := ⟨addNew_assoc⟩

theorem addNew_of_subset
    {present added : List String}
    (nothingNew : added ⊆ present) :
    addNew present added = present := by
  induction added with
  | nil => rfl
  | cons value rest inductive_hypothesis =>
      rcases List.cons_subset.mp nothingNew with ⟨here, below⟩
      rw [addNew_cons, addNew_of_mem here, inductive_hypothesis below]

/-- Values that are there are neither lost nor moved. -/
theorem prefix_addNew (present added : List String) : present <+: addNew present added := by
  induction added generalizing present with
  | nil => exact List.prefix_refl present
  | cons value rest inductive_hypothesis =>
      rw [addNew_cons]
      refine List.IsPrefix.trans ?_ (inductive_hypothesis _)
      by_cases member : value ∈ present
      · simp [addNew_of_mem member]
      · simp [addNew_of_not_mem member]

theorem entries_merge (index other : Factories) :
    (index.merge other).entries = Keyed.addAll addNew other.entries index.entries :=
  rfl

theorem accumulates_merge : Accumulates Reachable empty merge :=
  accumulates_of_addAll
    (fun _ _ => addNew_of_subset fun _ member => mem_addNew_iff.mpr (Or.inr member))
    (fun _ => addNew_of_subset (List.Subset.refl _))
    (fun left right same => by cases left; cases right; cases same; rfl)
    rfl entries_merge .empty .merged fun reached => reached.isFormed.distinct

/-- After another index was merged, an index has what it had, in its place, and what the other has. -/
structure Extends (merged index other : Factories) : Prop where
  keys_prefix : Keyed.keys index.entries <+: Keyed.keys merged.entries
  mem_keys_iff : ∀ key, key ∈ Keyed.keys merged.entries ↔
    key ∈ Keyed.keys index.entries ∨ key ∈ Keyed.keys other.entries
  values_prefix : ∀ key, index.values key <+: merged.values key
  mem_values_iff : ∀ key value, value ∈ merged.values key ↔
    value ∈ index.values key ∨ value ∈ other.values key

theorem values_merge
    (index : Factories) {other : Factories}
    (distinct : (Keyed.keys other.entries).Nodup)
    (key : String) :
    (index.merge other).values key =
      ((Keyed.get? key index.entries).merge addNew (Keyed.get? key other.entries)).getD [] := by
  rw [values, entries_merge, Keyed.get?_addAll distinct]

theorem extends_merge
    (index : Factories) {other : Factories}
    (distinct : (Keyed.keys other.entries).Nodup) :
    (index.merge other).Extends index other where
  keys_prefix := by
    rw [entries_merge]
    exact Keyed.prefix_keys_addAll _ _ _
  mem_keys_iff key := by
    rw [entries_merge, Keyed.mem_keys_addAll_iff]
  values_prefix key := by
    rw [index.values_merge distinct, values]
    cases Keyed.get? key index.entries with
    | none => exact List.nil_prefix
    | some present =>
        cases Keyed.get? key other.entries with
        | none => exact List.prefix_refl present
        | some added => exact prefix_addNew present added
  mem_values_iff key value := by
    rw [index.values_merge distinct, values, values]
    cases Keyed.get? key index.entries with
    | none => simp
    | some present =>
        cases Keyed.get? key other.entries with
        | none => simp
        | some added => exact mem_addNew_iff

end Factories

/-! ## Components files -/

namespace Components

/-- The indexes that reading, inserting, merging and filtering can build. -/
inductive Reachable : Components → Prop
  | empty : Reachable empty
  | parsed {source text : String} {index : Components}
      (read : parse source text = .ok index) : Reachable index
  | inserted {index : Components} (reached : Reachable index)
      (name : TypeName) (stereotype : String) : Reachable (index.insert name stereotype)
  | merged {index other : Components} (first : Reachable index) (second : Reachable other) :
      Reachable (index.merge other)
  | filtered {index : Components} (reached : Reachable index)
      (rejected : List TypeName) : Reachable (index.filtered rejected)

theorem nodup_types_addLines
    {source : String}
    {lines : List LogicalLine}
    {index result : Components}
    (distinct : index.types.Nodup)
    (added : addLines source lines index = .ok result) :
    result.types.Nodup := by
  induction lines generalizing index with
  | nil =>
      cases added
      exact distinct
  | cons line rest inductive_hypothesis =>
      unfold addLines at added
      split at added
      · cases added
      · exact inductive_hypothesis (Keyed.nodup_keys_alter distinct _ _ _) added

theorem entries_merge (index other : Components) :
    (index.merge other).entries =
      Keyed.addAll (fun kept _ => kept) other.entries index.entries :=
  rfl

theorem Reachable.nodup_types
    {index : Components}
    (reached : Reachable index) :
    index.types.Nodup := by
  have distinctEmpty : Components.empty.types.Nodup := List.nodup_nil
  induction reached with
  | empty => exact distinctEmpty
  | parsed read => exact nodup_types_addLines distinctEmpty read
  | inserted _ name stereotype distinct => exact Keyed.nodup_keys_alter distinct _ _ _
  | merged _ _ first _ =>
      rw [types, entries_merge]
      exact Keyed.nodup_keys_addAll _ _ first
  | filtered _ rejected distinct =>
      exact distinct.sublist (List.Sublist.map _ List.filter_sublist)

theorem accumulates_merge : Accumulates Reachable empty merge :=
  have : Std.Associative fun (kept _ : String) => kept := ⟨fun _ _ _ => rfl⟩
  accumulates_of_addAll (fun _ _ => rfl) (fun _ => rfl)
    (fun left right same => by cases left; cases right; cases same; rfl)
    rfl entries_merge .empty .merged Reachable.nodup_types

/-- After another index was merged, an index has its own types and stereotypes and then new ones. -/
structure Extends (merged index other : Components) : Prop where
  types_prefix : index.types <+: merged.types
  stereotype?_eq : ∀ name,
    merged.stereotype? name = (index.stereotype? name).or (other.stereotype? name)

theorem extends_merge
    (index : Components) {other : Components}
    (distinct : other.types.Nodup) :
    (index.merge other).Extends index other where
  types_prefix := by
    rw [types, types, entries_merge]
    exact Keyed.prefix_keys_addAll _ _ _
  stereotype?_eq name := by
    rw [stereotype?, entries_merge, Keyed.get?_addAll distinct, stereotype?, stereotype?]
    cases Keyed.get? name index.entries <;> cases Keyed.get? name other.entries <;> rfl

end Components

/-! ## Discovery -/

namespace IndexSet

open Files (Disk)
open Classpath (Container)

theorem addFactories_eq_ok_iff
    {set added : IndexSet}
    {source text : String} :
    set.addFactories source text = .ok added ↔
      ∃ file, Factories.parse source text = .ok file ∧
        added = { set with
          factories := set.factories.merge file
          sources := set.sources ++ [source] } := by
  unfold addFactories
  cases Factories.parse source text with
  | error malformed => simp
  | ok file => simp [eq_comm]

theorem addComponents_eq_ok_iff
    {set added : IndexSet}
    {source text : String} :
    set.addComponents source text = .ok added ↔
      ∃ file, Components.parse source text = .ok file ∧
        added = { set with
          components := some ((set.components.getD .empty).merge file)
          sources := set.sources ++ [source] } := by
  unfold addComponents
  cases Components.parse source text with
  | error malformed => simp
  | ok file => simp [eq_comm]

/-- What was found in containers is read as index files, one by one. -/
def AreRead {ι : Type} (parse : String → String → Except Malformed ι) (entry : String) :
    List (Container × List UInt8) → List ι → Prop :=
  List.Forall₂ fun item file =>
    parse (sourceOf item.1 entry) (String.ofList (Text.Utf8.decodeLenient item.2)) = .ok file

/-- Reading files accumulates in a part of the set what each file adds to it. -/
theorem exists_files_of_addFound
    {ι σ : Type}
    {parse : String → String → Except Malformed ι}
    {add : IndexSet → String → String → Except Cause IndexSet}
    {part : IndexSet → σ} {accumulate : σ → ι → σ}
    (adds : ∀ set added source text, add set source text = .ok added →
      ∃ file, parse source text = .ok file ∧ part added = accumulate (part set) file)
    {entry : String} {found : List (Container × List UInt8)} {set result : IndexSet}
    (succeeded : addFound add entry set found = .ok result) :
    ∃ files, AreRead parse entry found files ∧
      part result = files.foldl accumulate (part set) := by
  induction found generalizing set with
  | nil =>
      cases succeeded
      exact ⟨[], .nil, rfl⟩
  | cons item rest inductive_hypothesis =>
      rw [addFound, List.foldlM_cons] at succeeded
      rcases exists_of_bind_eq_ok succeeded with ⟨next, here, below⟩
      rcases adds _ _ _ _ here with ⟨file, read, isAdded⟩
      rcases inductive_hypothesis below with ⟨files, areRead, accumulated⟩
      refine ⟨file :: files, .cons read areRead, ?_⟩
      rw [accumulated, isAdded, List.foldl_cons]

/-- Merge a components file into what was found so far, if anything was. -/
def accumulateComponents (found : Option Components) (file : Components) : Option Components :=
  some ((found.getD .empty).merge file)

theorem foldl_accumulateComponents (files : List Components) :
    files.foldl accumulateComponents none =
      if files = [] then none else some (files.foldl Components.merge .empty) := by
  cases files with
  | nil => rfl
  | cons file rest => exact List.foldl_hom some fun _ _ => rfl

theorem factories_addComponents
    {set added : IndexSet}
    {source text : String}
    (succeeded : set.addComponents source text = .ok added) :
    added.factories = set.factories := by
  rcases addComponents_eq_ok_iff.mp succeeded with ⟨file, _, rfl⟩
  rfl

theorem components_addFactories
    {set added : IndexSet}
    {source text : String}
    (succeeded : set.addFactories source text = .ok added) :
    added.components = set.components := by
  rcases addFactories_eq_ok_iff.mp succeeded with ⟨file, _, rfl⟩
  rfl

/--
What is discovered are the files of all containers, merged in the order of the
classpath, and nothing else.
-/
theorem exists_files_of_discover
    {classpath : Classpath} {disk : Disk} {set : IndexSet}
    (discovered : discover classpath disk = .ok set) :
    ∃ factoriesFound factoriesFiles componentsFound componentsFiles,
      classpath.readResource disk factoriesPath = .ok factoriesFound ∧
      AreRead Factories.parse factoriesPath factoriesFound factoriesFiles ∧
      classpath.readResource disk componentsPath = .ok componentsFound ∧
      AreRead Components.parse componentsPath componentsFound componentsFiles ∧
      set.factories = factoriesFiles.foldl Factories.merge .empty ∧
      set.components = componentsFiles.foldl accumulateComponents none := by
  rcases exists_of_bind_eq_ok discovered with ⟨factoriesFound, readFactories, afterFactories⟩
  rcases exists_of_bind_eq_ok afterFactories with ⟨between, factoriesAdded, afterwards⟩
  rcases exists_of_bind_eq_ok afterwards with ⟨componentsFound, readComponents, componentsAdded⟩
  have addsFactories : ∀ set added source text,
      addFactories set source text = .ok added →
        ∃ file, Factories.parse source text = .ok file ∧
          added.factories = set.factories.merge file := by
    intro set added source text succeeded
    rcases addFactories_eq_ok_iff.mp succeeded with ⟨file, read, rfl⟩
    exact ⟨file, read, rfl⟩
  have addsComponents : ∀ set added source text,
      addComponents set source text = .ok added →
        ∃ file, Components.parse source text = .ok file ∧
          added.components = accumulateComponents set.components file := by
    intro set added source text succeeded
    rcases addComponents_eq_ok_iff.mp succeeded with ⟨file, read, rfl⟩
    exact ⟨file, read, rfl⟩
  rcases exists_files_of_addFound addsFactories factoriesAdded with
    ⟨factoriesFiles, factoriesRead, factories⟩
  rcases exists_files_of_addFound addsComponents componentsAdded with
    ⟨componentsFiles, componentsRead, components⟩
  -- Files of one kind leave what was found of the other kind alone.
  have sameFactories : set.factories = between.factories :=
    of_foldlM_eq_ok (fun later => later.factories = between.factories)
      (fun same added => (factories_addComponents added).trans same) rfl componentsAdded
  have noComponents : between.components = none :=
    of_foldlM_eq_ok (fun later => later.components = none)
      (fun same added => (components_addFactories added).trans same) rfl factoriesAdded
  rw [noComponents] at components
  exact ⟨factoriesFound, factoriesFiles, componentsFound, componentsFiles, readFactories,
    factoriesRead, readComponents, componentsRead, sameFactories.trans factories, components⟩

theorem AreRead.exists_parsed
    {ι : Type}
    {parse : String → String → Except Malformed ι}
    {entry : String} {found : List (Container × List UInt8)} {files : List ι}
    (areRead : AreRead parse entry found files) :
    ∀ file ∈ files, ∃ source text, parse source text = .ok file := by
  intro file member
  rcases exists_of_forall₂ areRead file member with ⟨item, _, read⟩
  exact ⟨_, _, read⟩

end IndexSet

/--
Merging accumulates both kinds of index.  Keys stay distinct, what an index has
stays in its place, and what the merged one has is there afterwards; a type keeps
its first stereotype.  So what is discovered is the sequence of the files found,
merged in any grouping.
-/
theorem merge_accumulates :
    Accumulates Factories.Reachable .empty Factories.merge ∧
    (∀ {index : Factories}, index.Reachable → (Keyed.keys index.entries).Nodup) ∧
    (∀ {index other : Factories}, index.Reachable → other.Reachable →
      (index.merge other).Extends index other) ∧
    Accumulates Components.Reachable .empty Components.merge ∧
    (∀ {index : Components}, index.Reachable → index.types.Nodup) ∧
    (∀ {index other : Components}, index.Reachable → other.Reachable →
      (index.merge other).Extends index other) ∧
    ∀ {classpath : Classpath} {disk : Files.Disk} {set : IndexSet},
      IndexSet.discover classpath disk = .ok set →
      ∃ factoriesFound factoriesFiles componentsFound componentsFiles,
        classpath.readResource disk factoriesPath = .ok factoriesFound ∧
        IndexSet.AreRead Factories.parse factoriesPath factoriesFound factoriesFiles ∧
        classpath.readResource disk componentsPath = .ok componentsFound ∧
        IndexSet.AreRead Components.parse componentsPath componentsFound componentsFiles ∧
        (∀ grouping : Grouping Factories, grouping.sequence = factoriesFiles →
          set.factories = grouping.merged .empty Factories.merge) ∧
        ∀ grouping : Grouping Components, grouping.sequence = componentsFiles →
          set.components =
            if componentsFiles = [] then none
            else some (grouping.merged .empty Components.merge) := by
  refine ⟨Factories.accumulates_merge, fun reached => reached.isFormed.distinct,
    fun {index _} _ reached => index.extends_merge reached.isFormed.distinct,
    Components.accumulates_merge, fun reached => reached.nodup_types,
    fun {index _} _ reached => index.extends_merge reached.nodup_types, ?_⟩
  intro classpath disk set discovered
  rcases IndexSet.exists_files_of_discover discovered with
    ⟨factoriesFound, factoriesFiles, componentsFound, componentsFiles, readFactories,
      factoriesRead, readComponents, componentsRead, factories, components⟩
  refine ⟨factoriesFound, factoriesFiles, componentsFound, componentsFiles, readFactories,
    factoriesRead, readComponents, componentsRead, ?_, ?_⟩
  · rintro grouping rfl
    rw [factories, Grouping.merged_eq_foldl Factories.accumulates_merge]
    intro file member
    rcases factoriesRead.exists_parsed file member with ⟨source, text, read⟩
    exact .parsed read
  · rintro grouping rfl
    rw [components, IndexSet.foldl_accumulateComponents,
      Grouping.merged_eq_foldl Components.accumulates_merge]
    intro file member
    rcases componentsRead.exists_parsed file member with ⟨source, text, read⟩
    exact .parsed read

/-- Two containers with index files that repeat values and name one type twice. -/
def repeatingFiles : Files.Disk :=
  ⟨[], [(["a.jar"], .archive ⟨[
      ⟨factoriesPath, Text.Utf8.encode "k=x,x\n".toList, .stored⟩,
      ⟨componentsPath, Text.Utf8.encode "p.A=first\n".toList, .stored⟩], by decide⟩),
    (["b.jar"], .archive ⟨[
      ⟨factoriesPath, Text.Utf8.encode "k=y,x,y\nm=z,z\n".toList, .stored⟩,
      ⟨componentsPath, Text.Utf8.encode "p/A=second\np.B=second\n".toList, .stored⟩],
      by decide⟩)]⟩

/-- Repetitions stay where a key is new and go where values are added to those that are there. -/
theorem merge_accumulates_repeatingFiles :
    ∃ classpath set,
      Classpath.build repeatingFiles ["a.jar", "b.jar"] .classpathOrder = .ok classpath ∧
      IndexSet.discover classpath repeatingFiles = .ok set ∧
      set.factories.entries = [("k", ["x", "x", "y"]), ("m", ["z", "z"])] ∧
      set.components = some ⟨[(⟨"p/A"⟩, "first"), (⟨"p/B"⟩, "second")]⟩ ∧
      ∃ files : List Factories,
        ∀ grouping : Grouping Factories, grouping.sequence = files →
          set.factories = grouping.merged .empty Factories.merge := by
  have computed :
      ((Classpath.build repeatingFiles ["a.jar", "b.jar"] .classpathOrder).toOption.bind
        fun classpath => (IndexSet.discover classpath repeatingFiles).toOption).map
          (fun set => (set.factories.entries, set.components)) =
        some ([("k", ["x", "x", "y"]), ("m", ["z", "z"])],
          some ⟨[(⟨"p/A"⟩, "first"), (⟨"p/B"⟩, "second")]⟩) := by
    decide +kernel
  cases built : Classpath.build repeatingFiles ["a.jar", "b.jar"] .classpathOrder with
  | error cause =>
      rw [built] at computed
      cases computed
  | ok classpath =>
      rw [built] at computed
      change (IndexSet.discover classpath repeatingFiles).toOption.map _ = _ at computed
      cases discovered : IndexSet.discover classpath repeatingFiles with
      | error cause =>
          rw [discovered] at computed
          cases computed
      | ok set =>
          rw [discovered] at computed
          rcases Prod.mk.inj (Option.some.inj computed) with ⟨factories, components⟩
          rcases merge_accumulates.2.2.2.2.2.2 discovered with
            ⟨_, files, _, _, _, _, _, _, grouped, _⟩
          exact ⟨classpath, set, rfl, discovered, factories, components, files, grouped⟩

end TypeReach.Index
