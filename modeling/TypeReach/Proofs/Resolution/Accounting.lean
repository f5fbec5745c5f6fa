import TypeReach.Index.Scan
import TypeReach.Proofs.Resolution.Finiteness
import TypeReach.Proofs.Resolution.Transparency
import TypeReach.Reach.Evaluation

/-!
# The account of a session

Whatever is asked of a session, and in whatever order, its cache holds what
fresh look-ups would give, its results are those of fresh look-ups, and each
container that was tried was tried for one of the names in the cache, each of
them once.  A call is any of the operations that a session offers, down to whole
walks over annotations and evaluations of units; what holds after every list of
calls holds in particular after each beginning of it.
-/

namespace TypeReach

namespace Resolution

/-! ## Kinds of outcomes -/

namespace Outcome

def isResolved : Outcome → Bool
  | resolved _ => true
  | _ => false

def isMissing : Outcome → Bool
  | missing => true
  | _ => false

def isCorrupt : Outcome → Bool
  | corrupt _ => true
  | _ => false

end Outcome

/-- Counting outcomes one by one adds up the outcomes of each kind. -/
theorem Cache.foldl_count
    (entries : List (TypeName × Outcome)) (counts : Counts) :
    entries.foldl (fun counts entry => count counts entry.2) counts =
      ⟨counts.resolved + entries.countP (·.2.isResolved),
        counts.missing + entries.countP (·.2.isMissing),
        counts.corrupt + entries.countP (·.2.isCorrupt)⟩ := by
  induction entries generalizing counts with
  | nil => rfl
  | cons entry rest inductive_hypothesis =>
      rw [List.foldl_cons, inductive_hypothesis]
      rcases entry with ⟨name, outcome⟩
      cases outcome <;>
        simp [count, Outcome.isResolved, Outcome.isMissing, Outcome.isCorrupt] <;>
        omega

/-- A declaration that a look-up gives has the name that was looked up. -/
theorem Sources.name_of_load_eq_resolved
    {sources : Sources} {name : TypeName} {decl : TypeDecl}
    (loaded : sources.load name = .resolved decl) :
    decl.name = name := by
  have found : sources.lookup name = some decl := by
    rw [lookup, loaded]
    rfl
  exact (lookup_eq_some found).1

namespace Session

/-- The names of one kind in the cache are those for which look-ups give that kind. -/
theorem IsFaithful.countP_entries
    {sources : Sources} {session : Session}
    (faithful : session.IsFaithful sources) (test : Outcome → Bool) :
    session.cache.entries.countP (fun entry => test entry.2) =
      session.cache.names.countP fun name => test (sources.load name) := by
  rw [Cache.names, Keyed.keys, List.countP_map]
  apply List.countP_congr
  intro entry member
  rw [faithful.outcomes entry member]
  rfl

theorem IsFaithful.counts
    {sources : Sources} {session : Session}
    (faithful : session.IsFaithful sources) :
    session.cache.counts =
      ⟨session.cache.names.countP fun name => (sources.load name).isResolved,
        session.cache.names.countP fun name => (sources.load name).isMissing,
        session.cache.names.countP fun name => (sources.load name).isCorrupt⟩ := by
  rw [Cache.counts, Cache.foldl_count, faithful.countP_entries Outcome.isResolved,
    faithful.countP_entries Outcome.isMissing, faithful.countP_entries Outcome.isCorrupt]
  simp

/-- A spelling that names a type is looked up under that name, any other one is not. -/
theorem IsFaithful.demandSpelled
    {sources : Sources} {session : Session}
    (faithful : session.IsFaithful sources) (raw : String) :
    Advances sources session (TypeName.parse? raw).toList
      (demandSpelled sources raw session).2 := by
  unfold Session.demandSpelled
  cases TypeName.parse? raw with
  | none => exact .refl faithful
  | some name => exact (faithful.resolve name).2

end Session

end Resolution

namespace Query

theorem asked_find?
    (lookup : TypeName → Option TypeDecl) (name : Option TypeName) :
    (find? name).asked lookup = name.toList := by
  cases name <;> rfl

theorem asked_interfacesOf
    (lookup : TypeName → Option TypeDecl) (decl : TypeDecl) :
    (interfacesOf decl).asked lookup = decl.interfaces :=
  List.append_nil _

end Query

namespace Resolution

/-! ## Calls -/

/-- Something that is asked of a session. -/
inductive Call where
  /-- The declaration of a type that has to be there. -/
  | demand (name : TypeName)
  | demandSpelled (raw : String)
  /-- The declaration of a type that may be absent. -/
  | find (name : TypeName)
  | canFind (name : TypeName)
  | superclass (decl : TypeDecl)
  | interfaces (decl : TypeDecl)
  | implements (decl : TypeDecl) (interface : TypeName)
  | hints (policies : Hint.PolicyTable) (decl : TypeDecl)
  | stereotype (decl : TypeDecl)
  | evaluate (rules : Reach.Rules) (unit : TypeName) (state : Reach.Evaluation)
  | evaluateAll (rules : Reach.Rules) (candidates : List TypeName)
  | scan (names : List TypeName)
  /-- Anything else that asks for declarations, and may stop at any point. -/
  | query (walk : Query Unit)

namespace Call

/-- The session after a call. -/
def perform (sources : Sources) (session : Session) : Call → Session
  | demand name => (Session.demand sources name session).2
  | demandSpelled raw => (Session.demandSpelled sources raw session).2
  | find name => (Session.run sources (Query.find name) session).2
  | canFind name => (Session.run sources (Query.canFind name) session).2
  | superclass decl => (Session.run sources (Query.find? decl.superclass) session).2
  | interfaces decl => (Session.run sources (Query.interfacesOf decl) session).2
  | implements decl interface =>
      (Session.run sources
        (Hierarchy.implements sources.depthBound decl interface) session).2
  | hints policies decl =>
      (Session.run sources (Hint.collect policies sources.depthBound decl) session).2
  | stereotype decl =>
      (Session.run sources (Stereotype.of sources.depthBound decl) session).2
  | evaluate rules unit state =>
      (Session.run sources
        (Reach.evaluate rules sources.depthBound unit state) session).2
  | evaluateAll rules candidates =>
      (Session.run sources
        (Reach.evaluateAll rules sources.depthBound candidates) session).2
  | scan names =>
      (Session.run sources (Index.Scan.components sources.depthBound names) session).2
  | query walk => (Session.run sources walk session).2

/-- The types that a call requests, directly or on the way. -/
def requests (sources : Sources) : Call → List TypeName
  | demand name => [name]
  | demandSpelled raw => (TypeName.parse? raw).toList
  | find name => [name]
  | canFind name => [name]
  | superclass decl => decl.superclass.toList
  | interfaces decl => decl.interfaces
  | implements decl interface =>
      (Hierarchy.implements sources.depthBound decl interface).asked sources.lookup
  | hints policies decl =>
      (Hint.collect policies sources.depthBound decl).asked sources.lookup
  | stereotype decl =>
      (Stereotype.of sources.depthBound decl).asked sources.lookup
  | evaluate rules unit state =>
      (Reach.evaluate rules sources.depthBound unit state).asked sources.lookup
  | evaluateAll rules candidates =>
      (Reach.evaluateAll rules sources.depthBound candidates).asked sources.lookup
  | scan names =>
      (Index.Scan.components sources.depthBound names).asked sources.lookup
  | query walk => walk.asked sources.lookup

/-- A call advances a session by the types that it requests. -/
theorem advances
    {sources : Sources} {session : Session}
    (faithful : session.IsFaithful sources) (call : Call) :
    Session.Advances sources session (call.requests sources)
      (call.perform sources session) := by
  cases call with
  | demand name => exact (faithful.resolve name).2
  | demandSpelled raw => exact faithful.demandSpelled raw
  | find name => exact (faithful.run (Query.find name)).2
  | canFind name => exact (faithful.run (Query.canFind name)).2
  | superclass decl =>
      have looked := (faithful.run (Query.find? decl.superclass)).2
      rw [Query.asked_find?] at looked
      exact looked
  | interfaces decl =>
      have looked := (faithful.run (Query.interfacesOf decl)).2
      rw [Query.asked_interfacesOf] at looked
      exact looked
  | implements decl interface => exact (faithful.run _).2
  | hints policies decl => exact (faithful.run _).2
  | stereotype decl => exact (faithful.run _).2
  | evaluate rules unit state => exact (faithful.run _).2
  | evaluateAll rules candidates => exact (faithful.run _).2
  | scan names => exact (faithful.run _).2
  | query walk => exact (faithful.run walk).2

/-- The session after some calls, one after the other. -/
def performAll (sources : Sources) (session : Session) (calls : List Call) : Session :=
  calls.foldl (fun session call => call.perform sources session) session

/-- Calls one after the other advance a session by all that they request. -/
theorem advances_performAll
    {sources : Sources} {session : Session}
    (faithful : session.IsFaithful sources) (calls : List Call) :
    Session.Advances sources session (calls.flatMap (requests sources))
      (performAll sources session calls) := by
  induction calls generalizing session with
  | nil => exact .refl faithful
  | cons call rest inductive_hypothesis =>
      have first := call.advances faithful
      exact first.append (inductive_hypothesis first.faithful)

end Call

/-! ## The account -/

/--
After any calls to a session that began empty, every outcome in the cache is the
one that looking the name up gives, and a declaration has the name it is kept
under.  A look-up gives what it would give at first.  The names in the cache are
those that were requested, and a call that requests no other name changes
neither the cache nor the number of containers tried.  That number is the sum
over the names in the cache, and the counts are those of the names of each kind.
-/
theorem account_performAll
    (sources : Sources) (calls : List Call) :
    let session := Call.performAll sources .start calls
    let names := session.cache.names
    (∀ name outcome, session.cache.get? name = some outcome →
        outcome = sources.load name ∧
          ∀ decl, outcome = .resolved decl → decl.name = name) ∧
      (∀ name,
        (Session.resolve sources name session).1 = sources.load name ∧
          (Session.demand sources name session).1 =
            Session.demanded name (sources.load name)) ∧
      (∀ name, name ∈ names ↔ ∃ call ∈ calls, name ∈ call.requests sources) ∧
      (∀ call : Call, (∀ name ∈ call.requests sources, name ∈ names) →
        (call.perform sources session).cache = session.cache ∧
          (call.perform sources session).reads = session.reads) ∧
      names.Nodup ∧
      session.reads = (names.map fun name => (sources.probeFor name).tried).sum ∧
      session.cache.counts =
        ⟨names.countP fun name => (sources.load name).isResolved,
          names.countP fun name => (sources.load name).isMissing,
          names.countP fun name => (sources.load name).isCorrupt⟩ := by
  intro session names
  have advanced : Session.Advances sources .start (calls.flatMap (Call.requests sources))
      session :=
    Call.advances_performAll (Session.isFaithful_start sources) calls
  have faithful := advanced.faithful
  refine ⟨?_, ?_, ?_, ?_, faithful.distinct, faithful.reads, faithful.counts⟩
  · intro name outcome kept
    have loaded := faithful.eq_load kept
    refine ⟨loaded, ?_⟩
    intro decl resolved
    exact Sources.name_of_load_eq_resolved (loaded.symm.trans resolved)
  · intro name
    have looked := (faithful.resolve name).1
    exact ⟨looked, congrArg (Session.demanded name) looked⟩
  · intro name
    rw [advanced.known, List.mem_flatMap]
    simp [Session.start, Cache.empty, Cache.names, Keyed.keys]
  · intro call requested
    exact (call.advances faithful).settled requested

end Resolution

end TypeReach
