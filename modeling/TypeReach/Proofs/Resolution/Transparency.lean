import Mathlib.Algebra.GroupWithZero.Nat
import TypeReach.Resolution.Session

/-!
# Remembered answers are the answers

A session keeps outcomes and never looks a type up twice.  As long as the
sources stay as they are, every outcome that it keeps is the one that a fresh
look-up would give, and so are the interfaces that it keeps for declarations.
`IsFaithful` says so, together with the account of what was read.

`Advances` says what an operation does to a session that asks for some types:
the session stays faithful, it comes to know exactly these types besides those
that it knew, and if it knew all of them, nothing is read.  Each operation is
shown to advance a session once; everything else is composed of these steps.
In particular a query has the same result in every session that began empty,
whatever was asked in between: the result that the plain look-up function
gives.
-/

namespace TypeReach.Resolution

/-- The names whose outcomes are kept, in the order in which they were looked up. -/
def Cache.names (cache : Cache) : List TypeName :=
  Keyed.keys cache.entries

theorem Cache.get?_eq_none_iff
    {cache : Cache} {name : TypeName} :
    cache.get? name = none ↔ name ∉ cache.names :=
  Keyed.get?_eq_none_iff

/-- The outcome of a name that is not known is added at the end. -/
theorem Cache.insert_of_not_mem
    {cache : Cache} {name : TypeName}
    (unknown : name ∉ cache.names) (outcome : Outcome) :
    cache.insert name outcome = ⟨cache.entries ++ [(name, outcome)]⟩ :=
  congrArg Cache.mk (Keyed.alter_of_not_mem unknown id outcome)

namespace Session

/--
Everything that is kept is what looking it up gives, and each container that
was tried was tried for one of the names that are kept.
-/
structure IsFaithful (sources : Sources) (session : Session) : Prop where
  distinct : session.cache.names.Nodup
  outcomes : ∀ entry ∈ session.cache.entries, entry.2 = sources.load entry.1
  reads : session.reads =
    (session.cache.names.map fun name => (sources.probeFor name).tried).sum
  interfaces : ∀ list found, Keyed.get? list session.interfaces = some found →
    found = list.2.filterMap sources.lookup ∧
      ∀ name ∈ list.2, name ∈ session.cache.names

theorem isFaithful_start (sources : Sources) :
    start.IsFaithful sources where
  distinct := List.nodup_nil
  outcomes := by
    intro entry member
    cases member
  reads := rfl
  interfaces := by
    intro list found kept
    cases kept

/-- An outcome that is kept is the one that looking the type up gives. -/
theorem IsFaithful.eq_load
    {sources : Sources} {session : Session}
    (faithful : session.IsFaithful sources)
    {name : TypeName} {outcome : Outcome}
    (kept : session.cache.get? name = some outcome) :
    outcome = sources.load name := by
  rw [Cache.get?] at kept
  have member : (name, outcome) ∈ session.cache.entries := by
    have known : name ∈ session.cache.names := by
      rw [Cache.names, ← Keyed.get?_isSome_iff, kept]
      rfl
    rcases List.mem_map.mp known with ⟨entry, entryMember, same⟩
    have found := Keyed.get?_of_mem faithful.distinct entryMember
    rw [same, kept] at found
    rw [← same, Option.some.inj found]
    exact entryMember
  exact faithful.outcomes _ member

/-! ## Steps -/

/-- What becomes of a session that is asked for some types. -/
structure Advances
    (sources : Sources) (before : Session)
    (asked : List TypeName) (after : Session) : Prop where
  faithful : after.IsFaithful sources
  known : ∀ name,
    name ∈ after.cache.names ↔ name ∈ before.cache.names ∨ name ∈ asked
  settled : (∀ name ∈ asked, name ∈ before.cache.names) →
    after.cache = before.cache ∧ after.reads = before.reads

namespace Advances

theorem refl
    {sources : Sources} {session : Session}
    (faithful : session.IsFaithful sources) :
    Advances sources session [] session where
  faithful := faithful
  known := by simp
  settled := fun _ => ⟨rfl, rfl⟩

/-- One operation after another asks for what both ask for. -/
theorem append
    {sources : Sources} {before between after : Session}
    {first second : List TypeName}
    (left : Advances sources before first between)
    (right : Advances sources between second after) :
    Advances sources before (first ++ second) after where
  faithful := right.faithful
  known := by
    intro name
    rw [right.known, left.known, List.mem_append, or_assoc]
  settled := by
    intro all
    have sameLeft := left.settled fun name member =>
      all name (List.mem_append_left _ member)
    have sameRight := right.settled fun name member => by
      rw [sameLeft.1]
      exact all name (List.mem_append_right _ member)
    exact ⟨sameRight.1.trans sameLeft.1, sameRight.2.trans sameLeft.2⟩

end Advances

/-- A type that is known is not looked up again. -/
theorem IsFaithful.resolve_of_mem
    {sources : Sources} {session : Session}
    (faithful : session.IsFaithful sources)
    {name : TypeName} (known : name ∈ session.cache.names) :
    resolve sources name session = (sources.load name, session) := by
  rw [Cache.names, ← Keyed.get?_isSome_iff] at known
  rcases Option.isSome_iff_exists.mp known with ⟨outcome, kept⟩
  rw [← faithful.eq_load kept]
  change session.cache.get? name = some outcome at kept
  simp only [resolve, kept]

/-- What a session comes to know when a type is looked up for the first time. -/
theorem resolve_of_not_mem
    {sources : Sources} {session : Session} {name : TypeName}
    (unknown : name ∉ session.cache.names) :
    resolve sources name session =
      (sources.load name,
        { session with
          cache := ⟨session.cache.entries ++ [(name, sources.load name)]⟩
          reads := session.reads + (sources.probeFor name).tried }) := by
  simp only [resolve, Cache.get?_eq_none_iff.mpr unknown,
    Cache.insert_of_not_mem unknown]

/-- One look-up gives what the sources give. -/
theorem IsFaithful.resolve
    {sources : Sources} {session : Session}
    (faithful : session.IsFaithful sources) (name : TypeName) :
    (resolve sources name session).1 = sources.load name ∧
      Advances sources session [name] (resolve sources name session).2 := by
  by_cases known : name ∈ session.cache.names
  · rw [faithful.resolve_of_mem known]
    refine ⟨rfl, faithful, ?_, fun _ => ⟨rfl, rfl⟩⟩
    intro other
    rw [List.mem_singleton]
    exact ⟨Or.inl, fun either => either.elim id fun same => same ▸ known⟩
  · rw [resolve_of_not_mem known]
    let cache : Cache := ⟨session.cache.entries ++ [(name, sources.load name)]⟩
    have names : cache.names = session.cache.names ++ [name] :=
      List.map_append
    refine ⟨rfl, ?_, ?_, ?_⟩
    · constructor
      · change cache.names.Nodup
        rw [names]
        exact List.nodup_append.mpr
          ⟨faithful.distinct, by simp, by
            rintro other member _ new rfl
            exact known (List.mem_singleton.mp new ▸ member)⟩
      · intro entry member
        rcases List.mem_append.mp member with old | new
        · exact faithful.outcomes entry old
        · rw [List.mem_singleton.mp new]
      · change session.reads + _ = (cache.names.map _).sum
        rw [names, faithful.reads]
        simp
      · intro list found kept
        rcases faithful.interfaces list found kept with ⟨same, all⟩
        refine ⟨same, fun other member => ?_⟩
        change other ∈ cache.names
        rw [names]
        exact List.mem_append_left _ (all other member)
    · intro other
      change other ∈ cache.names ↔ _
      rw [names, List.mem_append]
    · intro all
      exact absurd (all name (List.mem_singleton_self name)) known

/-- Types looked up one after the other give the declarations that the sources give. -/
theorem IsFaithful.resolveEach
    {sources : Sources} {session : Session}
    (faithful : session.IsFaithful sources) (names : List TypeName) :
    (resolveEach sources names session).1 = names.filterMap sources.lookup ∧
      Advances sources session names (resolveEach sources names session).2 := by
  induction names generalizing session with
  | nil => exact ⟨rfl, .refl faithful⟩
  | cons name rest inductive_hypothesis =>
      have first := faithful.resolve name
      have following := inductive_hypothesis first.2.faithful
      refine ⟨?_, first.2.append following.2⟩
      change (Session.resolve sources name session).1.decl?.toList ++
        (Session.resolveEach sources rest (Session.resolve sources name session).2).1 = _
      rw [first.1, following.1, List.filterMap_cons]
      change (sources.lookup name).toList ++ _ = _
      cases sources.lookup name <;> rfl

/-- The interfaces that are kept for a declaration are those that look-ups give. -/
theorem IsFaithful.interfacesOf
    {sources : Sources} {session : Session}
    (faithful : session.IsFaithful sources) (decl : TypeDecl) :
    (interfacesOf sources decl session).1 = decl.interfaces.filterMap sources.lookup ∧
      Advances sources session decl.interfaces (interfacesOf sources decl session).2 := by
  unfold Session.interfacesOf
  cases kept : Keyed.get? (InterfaceList.of decl) session.interfaces with
  | some found =>
      rcases faithful.interfaces _ found kept with ⟨same, all⟩
      refine ⟨same, faithful, ?_, fun _ => ⟨rfl, rfl⟩⟩
      intro name
      exact ⟨Or.inl, fun either => either.elim id (all name)⟩
  | none =>
      have looked := faithful.resolveEach decl.interfaces
      refine ⟨looked.1, ?_, looked.2.known, looked.2.settled⟩
      have faithfulAfter := looked.2.faithful
      refine ⟨faithfulAfter.distinct, faithfulAfter.outcomes, faithfulAfter.reads, ?_⟩
      intro list found keptAfter
      change Keyed.get? list (Keyed.alter (InterfaceList.of decl) id _ _) =
        some found at keptAfter
      by_cases own : list = InterfaceList.of decl
      · -- What is kept now was found just now, or was kept before under the same list.
        rw [own, Keyed.get?_alter_self, Option.map_id_fun, id] at keptAfter
        cases before : Keyed.get? (InterfaceList.of decl)
            (Session.resolveEach sources decl.interfaces session).2.interfaces with
        | some earlier =>
            rw [before] at keptAfter
            rw [own, ← Option.some.inj keptAfter]
            exact faithfulAfter.interfaces _ earlier before
        | none =>
            rw [before] at keptAfter
            rw [own, ← Option.some.inj keptAfter]
            exact ⟨looked.1, fun name member => (looked.2.known name).mpr (Or.inr member)⟩
      · apply faithfulAfter.interfaces list found
        rw [Keyed.get?_alter_of_ne own] at keptAfter
        exact keptAfter

theorem run_ask
    (sources : Sources) (name : TypeName) (next : Option TypeDecl → Query α)
    (session : Session) :
    run sources (.ask name next) session =
      run sources (next (resolve sources name session).1.decl?)
        (resolve sources name session).2 :=
  rfl

theorem run_askInterfaces
    (sources : Sources) (decl : TypeDecl) (next : List TypeDecl → Query α)
    (session : Session) :
    run sources (.askInterfaces decl next) session =
      run sources (next (interfacesOf sources decl session).1)
        (interfacesOf sources decl session).2 :=
  rfl

/-! ## Queries -/

/-- A whole query gives what the look-up function gives. -/
theorem IsFaithful.run
    {sources : Sources} {session : Session}
    (faithful : session.IsFaithful sources) (query : Query α) :
    (run sources query session).1 = query.answer sources.lookup ∧
      Advances sources session (query.asked sources.lookup)
        (run sources query session).2 := by
  induction query generalizing session with
  | done value => exact ⟨rfl, .refl faithful⟩
  | ask name next inductive_hypothesis =>
      have looked := faithful.resolve name
      rw [run_ask, looked.1]
      have following := inductive_hypothesis (sources.lookup name) looked.2.faithful
      exact ⟨following.1, looked.2.append following.2⟩
  | askInterfaces decl next inductive_hypothesis =>
      have looked := faithful.interfacesOf decl
      rw [run_askInterfaces, looked.1]
      have following := inductive_hypothesis
        (decl.interfaces.filterMap sources.lookup) looked.2.faithful
      exact ⟨following.1, looked.2.append following.2⟩

/-- What a query gives in a session that has answered another one before. -/
def resultAfter (sources : Sources) (earlier : Query β) (query : Query α) : α :=
  (run sources query (run sources earlier start).2).1

/-- What was asked before makes no difference to a result. -/
theorem resultAfter_eq_answer
    (sources : Sources) (earlier : Query β) (query : Query α) :
    resultAfter sources earlier query = query.answer sources.lookup :=
  (((isFaithful_start sources).run earlier).2.faithful.run query).1

end Session

end TypeReach.Resolution
