import TypeReach.Proofs.Analysis.Depth
import TypeReach.Proofs.Hierarchy
import TypeReach.Proofs.Index.RoundTrip

/-!
# What a scan lists

A name is nested in another one when it goes on with `$` and at least one more
character.  That relation is transitive and makes names longer, so among names
with any property each is nested in none of the others or in an outermost one.

A scan takes the names from the directories, where one name can come up more than
once, and drops those that are nested in another name that passed.  The index that
it builds holds the outermost ones, each once and in the place of its first
occurrence.
-/

namespace TypeReach

/-! ## Nested names -/

namespace TypeName

theorem isNestedIn_iff
    {name outer : TypeName} :
    name.isNestedIn outer = true ↔
      ∃ first rest, name.slashed.toList = outer.slashed.toList ++ '$' :: first :: rest := by
  simp only [isNestedIn, ← Text.after?_eq_some_iff]
  constructor
  · intro nested
    split at nested
    · rename_i first rest following
      exact ⟨first, rest, following⟩
    · cases nested
  · rintro ⟨first, rest, following⟩
    simp [following]

theorem length_lt_of_isNestedIn
    {name outer : TypeName}
    (nested : name.isNestedIn outer = true) :
    outer.slashed.toList.length < name.slashed.toList.length := by
  rcases isNestedIn_iff.mp nested with ⟨first, rest, spelled⟩
  rw [spelled, List.length_append, List.length_cons]
  exact Nat.lt_add_of_pos_right (Nat.succ_pos _)

theorem isNestedIn_trans
    {name between outer : TypeName}
    (nested : name.isNestedIn between = true)
    (nestedToo : between.isNestedIn outer = true) :
    name.isNestedIn outer = true := by
  rcases isNestedIn_iff.mp nested with ⟨_, rest, spelled⟩
  rcases isNestedIn_iff.mp nestedToo with ⟨first, _, spelledToo⟩
  rw [spelledToo, List.append_assoc] at spelled
  exact isNestedIn_iff.mpr ⟨first, _, spelled⟩

/-- A name has a property, and no name with that property has it nested in itself. -/
structure IsOutermost (holds : TypeName → Prop) (name : TypeName) : Prop where
  member : holds name
  apart : ∀ outer, holds outer → name.isNestedIn outer = false

/--
A name that is not outermost is nested in one that is.  The induction is on the
length of the name, which falls towards the names around it.
-/
theorem exists_isOutermost
    {holds : TypeName → Prop} {name : TypeName}
    (member : holds name)
    (inner : ¬ IsOutermost holds name) :
    ∃ outer, IsOutermost holds outer ∧ name.isNestedIn outer = true := by
  have nested : ∃ outer, holds outer ∧ name.isNestedIn outer = true := by
    by_contra none
    push Not at none
    exact inner ⟨member, fun outer holding => Bool.eq_false_iff.mpr (none outer holding)⟩
  rcases nested with ⟨outer, holding, nested⟩
  by_cases outermost : IsOutermost holds outer
  · exact ⟨outer, outermost, nested⟩
  · rcases exists_isOutermost holding outermost with ⟨above, isOutermost, nestedAbove⟩
    exact ⟨above, isOutermost, isNestedIn_trans nested nestedAbove⟩
termination_by name.slashed.toList.length
decreasing_by exact length_lt_of_isNestedIn nested

end TypeName

/-! ## Scans -/

namespace Index.Scan

open Resolution (Session Sources)
open TypeReach.TypeName (IsOutermost exists_isOutermost)

variable {lookup : TypeName → Option TypeDecl}

/-- The stereotype under which a scan finds a name. -/
def stereotype? (lookup : TypeName → Option TypeDecl) (bound : Nat) (name : TypeName) :
    Option TypeName :=
  (lookup name).bind fun decl =>
    if decl.access.isAnnotationType then none else (Stereotype.of bound decl).answer lookup

theorem stereotype?_eq_some_iff
    {bound : Nat} {name stereotype : TypeName} :
    stereotype? lookup bound name = some stereotype ↔
      ∃ decl, lookup name = some decl ∧ decl.access.isAnnotationType = false ∧
        (Stereotype.of bound decl).answer lookup = some stereotype := by
  simp [stereotype?, Option.bind_eq_some_iff]

theorem answer_stereotyped_eq_filterMap
    (bound : Nat) (names : List TypeName) :
    (stereotyped bound names).answer lookup =
      names.filterMap fun name => (stereotype? lookup bound name).map (name, ·) := by
  rw [answer_stereotyped]
  apply List.filterMap_congr
  intro name _
  rw [stereotype?, Option.map_bind]
  congr 1
  funext decl
  rw [Function.comp_apply, apply_ite (Option.map (name, ·))]
  rfl

theorem mem_stereotyped_iff
    {bound : Nat} {names : List TypeName} {name stereotype : TypeName} :
    (name, stereotype) ∈ (stereotyped bound names).answer lookup ↔
      name ∈ names ∧ stereotype? lookup bound name = some stereotype := by
  rw [answer_stereotyped_eq_filterMap, List.mem_filterMap]
  constructor
  · rintro ⟨other, member, found⟩
    rcases Option.map_eq_some_iff.mp found with ⟨_, given, same⟩
    cases same
    exact ⟨member, given⟩
  · rintro ⟨member, given⟩
    exact ⟨name, member, by rw [given]; rfl⟩

/-- The names that are found stand in the order in which they were given. -/
theorem keys_stereotyped
    (bound : Nat) (names : List TypeName) :
    Keyed.keys ((stereotyped bound names).answer lookup) =
      names.filter fun name => (stereotype? lookup bound name).isSome := by
  rw [answer_stereotyped_eq_filterMap, Keyed.keys, List.map_filterMap,
    ← List.filterMap_eq_filter]
  apply List.filterMap_congr
  intro name _
  cases found : stereotype? lookup bound name <;> simp [Option.guard, found]

theorem keys_outermost
    (found : List (TypeName × TypeName)) :
    Keyed.keys (outermost found) =
      (Keyed.keys found).filter fun name => ! found.any fun outer => name.isNestedIn outer.1 := by
  rw [Keyed.keys, Keyed.keys, outermost, List.filter_map]
  rfl

theorem entries_components
    (bound : Nat) (names : List TypeName) :
    ((components bound names).answer lookup).entries =
      Keyed.setAll
        ((outermost ((stereotyped bound names).answer lookup)).map
          fun entry => (entry.1, entry.2.dotted)) [] := by
  rw [components, Query.answer_bind, Query.answer_pure, Keyed.setAll, List.foldl_map]
  exact (List.foldl_hom Components.entries fun _ _ => rfl).symm

/-- The index lists what is outermost, each name in the place of its first occurrence. -/
theorem types_components
    (bound : Nat) (names : List TypeName) :
    ((components bound names).answer lookup).types =
      names.eraseDups.filter fun name => (stereotype? lookup bound name).isSome &&
        ! ((stereotyped bound names).answer lookup).any fun outer =>
          name.isNestedIn outer.1 := by
  have keys : ∀ found : List (TypeName × TypeName),
      Keyed.keys (found.map fun entry => (entry.1, entry.2.dotted)) = Keyed.keys found := by
    intro found
    simp [Keyed.keys]
  rw [Components.types, entries_components, Keyed.keys_setAll, keys, keys_outermost,
    keys_stereotyped, ← eraseDups_filter]
  simp [Keyed.keys, List.filter_filter, Bool.and_comm]

/--
A type that the directories of the classpath hold, that resolves, that is no
annotation type and that has a stereotype.
-/
structure IsFound (sources : Sources) (name stereotype : TypeName) : Prop where
  kept : ∃ names, sources.classpath.directoryTypes sources.disk = .ok names ∧ name ∈ names
  declared : ∃ decl, sources.lookup name = some decl ∧ decl.access.isAnnotationType = false ∧
    (Stereotype.of sources.depthBound decl).answer sources.lookup = some stereotype

theorem isFound_iff
    {sources : Sources} {names : List TypeName}
    (listed : sources.classpath.directoryTypes sources.disk = .ok names)
    {name stereotype : TypeName} :
    IsFound sources name stereotype ↔
      name ∈ names ∧
        stereotype? sources.lookup sources.depthBound name = some stereotype := by
  rw [stereotype?_eq_some_iff]
  constructor
  · rintro ⟨⟨others, listedToo, member⟩, declared⟩
    rw [listed] at listedToo
    cases listedToo
    exact ⟨member, declared⟩
  · rintro ⟨member, declared⟩
    exact ⟨⟨names, listed, member⟩, declared⟩

theorem mem_types_components_iff
    {sources : Sources} {names : List TypeName}
    (listed : sources.classpath.directoryTypes sources.disk = .ok names)
    {name : TypeName} :
    name ∈ ((components sources.depthBound names).answer sources.lookup).types ↔
      IsOutermost (fun name => ∃ stereotype, IsFound sources name stereotype) name := by
  rw [types_components, List.mem_filter, List.mem_eraseDups, Bool.and_eq_true,
    Option.isSome_iff_exists, Bool.not_eq_true', List.any_eq_false]
  constructor
  · rintro ⟨member, ⟨stereotype, given⟩, apart⟩
    refine ⟨⟨stereotype, (isFound_iff listed).mpr ⟨member, given⟩⟩, ?_⟩
    rintro outer ⟨_, found⟩
    exact Bool.eq_false_iff.mpr
      (apart _ (mem_stereotyped_iff.mpr ((isFound_iff listed).mp found)))
  · rintro ⟨⟨stereotype, found⟩, apart⟩
    rcases (isFound_iff listed).mp found with ⟨member, given⟩
    refine ⟨member, ⟨stereotype, given⟩, ?_⟩
    rintro ⟨outer, _⟩ foundToo
    exact Bool.eq_false_iff.mp
      (apart outer ⟨_, (isFound_iff listed).mpr (mem_stereotyped_iff.mp foundToo)⟩)

/-- What is listed with a type is its own stereotype. -/
theorem exists_isFound_of_mem_entries
    {sources : Sources} {names : List TypeName}
    (listed : sources.classpath.directoryTypes sources.disk = .ok names)
    {name : TypeName} {text : String}
    (member : (name, text) ∈
      ((components sources.depthBound names).answer sources.lookup).entries) :
    ∃ stereotype, IsFound sources name stereotype ∧ text = stereotype.dotted := by
  rw [entries_components] at member
  rcases Keyed.mem_setAll member with added | impossible
  · rcases List.mem_map.mp added with ⟨⟨other, stereotype⟩, outermost, same⟩
    cases same
    have found := mem_stereotyped_iff.mp (List.mem_filter.mp outermost).1
    exact ⟨stereotype, (isFound_iff listed).mpr found, rfl⟩
  · cases impossible

/--
A scan lists the outermost types that it finds, each once, in the order in which
they occur first and with its own stereotype.  So no listed type is nested in
another one, and what is found and not listed is nested in a listed type.
-/
theorem components_outermost
    (sources : Sources) (earlier : Query α)
    {names : List TypeName}
    (listed : sources.classpath.directoryTypes sources.disk = .ok names) :
    let index := Session.resultAfter sources earlier (components sources.depthBound names)
    let found := fun name => ∃ stereotype, IsFound sources name stereotype
    index.types.Nodup ∧
      index.types.Sublist names.eraseDups ∧
      (∀ name text, (name, text) ∈ index.entries ↔
        IsOutermost found name ∧
          ∃ stereotype, IsFound sources name stereotype ∧ text = stereotype.dotted) ∧
      (∀ name ∈ index.types, ∀ outer ∈ index.types, name.isNestedIn outer = false) ∧
      ∀ name, found name → name ∉ index.types →
        ∃ outer ∈ index.types, name.isNestedIn outer = true := by
  intro index found
  have answered : index = (components sources.depthBound names).answer sources.lookup :=
    Session.resultAfter_eq_answer sources earlier _
  have types : ∀ {name}, name ∈ index.types ↔ IsOutermost found name := by
    rw [answered]
    exact mem_types_components_iff listed
  have own : ∀ {name text}, (name, text) ∈ index.entries →
      ∃ stereotype, IsFound sources name stereotype ∧ text = stereotype.dotted := by
    rw [answered]
    exact exists_isFound_of_mem_entries listed
  have ordered : index.types.Sublist names.eraseDups := by
    rw [answered, types_components]
    exact List.filter_sublist
  refine ⟨ordered.nodup (nodup_eraseDups _), ordered, ?_, ?_, ?_⟩
  · intro name text
    constructor
    · intro member
      exact ⟨types.mp (List.mem_map_of_mem member), own member⟩
    · rintro ⟨outermost, stereotype, isFound, rfl⟩
      -- The type is listed with some text, and a type has one stereotype only.
      rcases List.mem_map.mp (types.mpr outermost) with ⟨⟨other, text⟩, member, rfl⟩
      rcases own member with ⟨given, isGiven, rfl⟩
      have same := ((isFound_iff listed).mp isFound).2.symm.trans
        ((isFound_iff listed).mp isGiven).2
      rw [Option.some.inj same]
      exact member
  · intro name member outer outerMember
    exact (types.mp member).apart outer (types.mp outerMember).member
  · intro name isFound unlisted
    rcases exists_isOutermost isFound (mt types.mpr unlisted) with ⟨outer, outermost, nested⟩
    exact ⟨outer, types.mpr outermost, nested⟩

/-- Each outlined type in a directory of its own. -/
def spreadSources (outlines : List (String × ClassFile.Outline)) : Sources where
  disk := ⟨[], outlines.flatMap fun entry =>
    [([entry.1], .directory),
      ([entry.1, entry.2.name ++ ".class"], .file entry.2.encode)]⟩
  classpath :=
    { containers := outlines.map fun entry => ⟨entry.1, .directory, none⟩
      packages := [("", List.range outlines.length)]
      precedence := .classpathOrder }
  platform := .empty

/-- A nested type comes before the types around it, and one of these comes up twice. -/
theorem components_outermost_repeated :
    let sources := spreadSources
      [("first", { name := "A$B", annotations := [("Component", [])] }),
        ("second", { name := "A", annotations := [("Component", [])] }),
        ("third", { name := "Component", annotations := [(Stereotype.indexed.slashed, [])] }),
        ("fourth", { name := "A", annotations := [("Component", [])] }),
        ("fifth", { name := "A$B$C", annotations := [("Component", [])] })]
    let names : List TypeName := [⟨"A$B"⟩, ⟨"A"⟩, ⟨"Component"⟩, ⟨"A"⟩, ⟨"A$B$C"⟩]
    let index := Session.resultAfter sources (Query.find ⟨"A$B"⟩)
      (components sources.depthBound names)
    sources.classpath.directoryTypes sources.disk = .ok names ∧
      index.entries = [(⟨"A"⟩, "Component"), (⟨"Component"⟩, "Component")] ∧
      (∃ stereotype, IsFound sources ⟨"A$B$C"⟩ stereotype) ∧
      ∃ outer ∈ index.types, (⟨"A$B$C"⟩ : TypeName).isNestedIn outer = true := by
  intro sources names index
  have listed : sources.classpath.directoryTypes sources.disk = .ok names := by
    have computed : (sources.classpath.directoryTypes sources.disk).toOption = some names := by
      decide +kernel
    cases given : sources.classpath.directoryTypes sources.disk with
    | error cause =>
        rw [given] at computed
        cases computed
    | ok others =>
        rw [given] at computed
        rw [Option.some.inj computed]
  have entries : index.entries = [(⟨"A"⟩, "Component"), (⟨"Component"⟩, "Component")] := by
    decide +kernel
  have inner : stereotype? sources.lookup sources.depthBound ⟨"A$B$C"⟩ =
      some ⟨"Component"⟩ := by
    decide +kernel
  have isFound : ∃ stereotype, IsFound sources ⟨"A$B$C"⟩ stereotype :=
    ⟨_, (isFound_iff listed).mpr ⟨by decide, inner⟩⟩
  have unlisted : (⟨"A$B$C"⟩ : TypeName) ∉ index.types := by
    rw [Components.types, entries]
    decide
  exact ⟨listed, entries, isFound,
    (components_outermost sources (Query.find ⟨"A$B"⟩) listed).2.2.2.2 _ isFound unlisted⟩

end Index.Scan

end TypeReach
