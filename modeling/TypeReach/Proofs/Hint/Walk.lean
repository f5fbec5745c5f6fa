import Mathlib.Data.List.Nodup
import Mathlib.Tactic.Choose
import TypeReach.Hint.Basic
import TypeReach.Proofs.Reach.Traversal

/-!
# Walks over annotations

An annotation is told from another one by its place, the type that carries it
and its position there.  Annotations lead from a declaration to others: the
first stands on it, and each further one on the declaration of the type of the
one before.

`Walk` says what a walk does, whichever way it goes: the annotations that it
comes to for the first time, each with the trail that it came by, and what is
known of their places when it returns.  It holds of the visit of one annotation
and is kept under sequencing, so it holds of every walk within a sufficient
depth.  The hints that a walk gives are those of its arrivals.
-/

namespace TypeReach

/-- An annotation in its place. -/
@[ext]
structure Occurrence where
  host : TypeName
  position : Nat
  use : AnnotationUse

namespace Occurrence

def place (occurrence : Occurrence) : Hint.Place :=
  (occurrence.host, occurrence.position)

def type (occurrence : Occurrence) : TypeName :=
  occurrence.use.type

/-- Annotations of a type, the first of which has the given position. -/
def listed (host : TypeName) (position : Nat) (uses : List AnnotationUse) : List Occurrence :=
  (uses.zipIdx position).map fun entry => ⟨host, entry.2, entry.1⟩

@[simp]
theorem listed_nil (host : TypeName) (position : Nat) :
    listed host position [] = [] :=
  rfl

@[simp]
theorem listed_cons
    (host : TypeName) (position : Nat) (use : AnnotationUse) (rest : List AnnotationUse) :
    listed host position (use :: rest) =
      ⟨host, position, use⟩ :: listed host (position + 1) rest :=
  rfl

end Occurrence

/-- The annotations of a declaration, in their places. -/
def TypeDecl.occurrences (decl : TypeDecl) : List Occurrence :=
  Occurrence.listed decl.name 0 decl.annotations

theorem TypeDecl.mem_occurrences_iff
    {decl : TypeDecl} {occurrence : Occurrence} :
    occurrence ∈ decl.occurrences ↔
      occurrence.host = decl.name ∧
        decl.annotations[occurrence.position]? = some occurrence.use := by
  rw [occurrences, Occurrence.listed, List.mem_map]
  constructor
  · rintro ⟨⟨use, position⟩, member, rfl⟩
    exact ⟨rfl, List.mem_zipIdx_iff_getElem?.mp member⟩
  · rintro ⟨host, found⟩
    refine ⟨(occurrence.use, occurrence.position), List.mem_zipIdx_iff_getElem?.mpr found, ?_⟩
    rw [← host]

namespace Hint

variable {lookup : TypeName → Option TypeDecl} {start : TypeDecl}

/-! ## Trails -/

/-- Annotations that lead from a declaration to another one. -/
inductive Leads (lookup : TypeName → Option TypeDecl) (start : TypeDecl) :
    List Occurrence → TypeDecl → Prop where
  | nil : Leads lookup start [] start
  | snoc
      {trail : List Occurrence} {host next : TypeDecl} {occurrence : Occurrence}
      (leads : Leads lookup start trail host)
      (attached : occurrence ∈ host.occurrences)
      (found : lookup occurrence.type = some next) :
      Leads lookup start (trail ++ [occurrence]) next

/-- The types along a trail, from the type where it starts. -/
def chainOf (start : TypeName) (trail : List Occurrence) : List TypeName :=
  start :: trail.map Occurrence.type

@[simp]
theorem chainOf_nil (start : TypeName) : chainOf start [] = [start] :=
  rfl

@[simp]
theorem chainOf_append_singleton
    (start : TypeName) (trail : List Occurrence) (occurrence : Occurrence) :
    chainOf start (trail ++ [occurrence]) = chainOf start trail ++ [occurrence.type] := by
  simp [chainOf]

/-- An annotation and the trail by which a walk came to it. -/
structure Arrival where
  trail : List Occurrence
  last : Occurrence

namespace Arrival

/-- The annotation is attached where the trail leads to, and no type repeats on the way. -/
def IsSimple
    (lookup : TypeName → Option TypeDecl) (start : TypeDecl) (arrival : Arrival) :
    Prop :=
  (∃ host, Leads lookup start arrival.trail host ∧ arrival.last ∈ host.occurrences) ∧
    (chainOf start.name arrival.trail).Nodup

/-- Whether a walk goes on below the annotation, as its type closes no cycle. -/
def Enters (start : TypeDecl) (arrival : Arrival) : Prop :=
  arrival.last.type ∉ chainOf start.name arrival.trail

instance (start : TypeDecl) (arrival : Arrival) : Decidable (arrival.Enters start) :=
  inferInstanceAs (Decidable (_ ∉ _))

/-- The hint that a walk gives for the annotation itself. -/
def hint?
    (policies : PolicyTable) (start : TypeDecl) (arrival : Arrival) :
    Option Hint :=
  if arrival.Enters start then
    hintOf? policies (chainOf start.name arrival.trail) arrival.last.type
      arrival.last.use.valueTypes
  else none

end Arrival

/-! ## Walks -/

/--
A walk visits annotations at the end of a trail, the roots, with what is below
them.  It leads from the places visited before to those visited after it, and
comes to the fresh annotations, in this order.
-/
structure Walk
    (lookup : TypeName → Option TypeDecl) (start : TypeDecl)
    (trail : List Occurrence) (roots : List Occurrence)
    (before : List Place) (fresh : List Arrival) (after : List Place) : Prop where
  visited : after = (fresh.map (·.last.place)).reverse ++ before
  distinct : (fresh.map (·.last.place)).Nodup
  unvisited : ∀ arrival ∈ fresh, arrival.last.place ∉ before
  rooted : ∀ root ∈ roots, root.place ∈ after
  simple : ∀ arrival ∈ fresh, arrival.IsSimple lookup start
  below : ∀ arrival ∈ fresh, ∃ root ∈ roots,
    trail ++ [root] <+: arrival.trail ++ [arrival.last]
  /-- A type on the way to an arrival was there from the beginning or was entered. -/
  entered : ∀ arrival ∈ fresh, ∀ type ∈ chainOf start.name arrival.trail,
    type ∈ chainOf start.name trail ∨
      ∃ earlier ∈ fresh, earlier.last.type = type ∧ earlier.Enters start
  /-- Below an annotation that was entered, everything was visited. -/
  closed : ∀ arrival ∈ fresh, arrival.Enters start →
    ∀ decl, lookup arrival.last.type = some decl →
      ∀ occurrence ∈ decl.occurrences, occurrence.place ∈ after

namespace Walk

variable {trail : List Occurrence} {before after : List Place}

/-- Roots that were all visited before change nothing. -/
theorem ofVisited
    {roots : List Occurrence}
    (visited : ∀ root ∈ roots, root.place ∈ before) :
    Walk lookup start trail roots before [] before where
  visited := rfl
  distinct := List.nodup_nil
  unvisited := by simp
  rooted := visited
  simple := by simp
  below := by simp
  entered := by simp
  closed := by simp

/-- One walk after another has the roots of both. -/
theorem append
    {first second : List Occurrence} {between : List Place}
    {firstFresh secondFresh : List Arrival}
    (left : Walk lookup start trail first before firstFresh between)
    (right : Walk lookup start trail second between secondFresh after) :
    Walk lookup start trail (first ++ second) before (firstFresh ++ secondFresh) after := by
  have visitedFirst : ∀ place ∈ between, place ∈ after := by
    intro place member
    rw [right.visited]
    exact List.mem_append_right _ member
  have apart : ∀ arrival ∈ secondFresh,
      arrival.last.place ∉ firstFresh.map (·.last.place) ∧ arrival.last.place ∉ before := by
    intro arrival member
    have outside := right.unvisited arrival member
    rw [left.visited, List.mem_append, List.mem_reverse, not_or] at outside
    exact outside
  constructor
  case visited =>
    rw [right.visited, left.visited]
    simp
  case distinct =>
    rw [List.map_append]
    refine left.distinct.append right.distinct ?_
    intro place inFirst inSecond
    rcases List.mem_map.mp inSecond with ⟨arrival, member, rfl⟩
    exact (apart arrival member).1 inFirst
  case unvisited =>
    intro arrival member
    rcases List.mem_append.mp member with inFirst | inSecond
    · exact left.unvisited arrival inFirst
    · exact (apart arrival inSecond).2
  case rooted =>
    intro root member
    rcases List.mem_append.mp member with inFirst | inSecond
    · exact visitedFirst _ (left.rooted root inFirst)
    · exact right.rooted root inSecond
  case simple =>
    intro arrival member
    rcases List.mem_append.mp member with inFirst | inSecond
    · exact left.simple arrival inFirst
    · exact right.simple arrival inSecond
  case below =>
    intro arrival member
    rcases List.mem_append.mp member with inFirst | inSecond
    · rcases left.below arrival inFirst with ⟨root, isRoot, isBelow⟩
      exact ⟨root, List.mem_append_left _ isRoot, isBelow⟩
    · rcases right.below arrival inSecond with ⟨root, isRoot, isBelow⟩
      exact ⟨root, List.mem_append_right _ isRoot, isBelow⟩
  case entered =>
    intro arrival member type onChain
    rcases List.mem_append.mp member with inFirst | inSecond
    · apply (left.entered arrival inFirst type onChain).imp_right
      rintro ⟨earlier, inFirst, enters⟩
      exact ⟨earlier, List.mem_append_left _ inFirst, enters⟩
    · apply (right.entered arrival inSecond type onChain).imp_right
      rintro ⟨earlier, inSecond, enters⟩
      exact ⟨earlier, List.mem_append_right _ inSecond, enters⟩
  case closed =>
    intro arrival member enters decl found occurrence attached
    rcases List.mem_append.mp member with inFirst | inSecond
    · exact visitedFirst _
        (left.closed arrival inFirst enters decl found occurrence attached)
    · exact right.closed arrival inSecond enters decl found occurrence attached

/-- An annotation whose type is on the way to it is visited, and nothing below it is. -/
theorem ofCyclic
    {root : Occurrence}
    (unvisited : root.place ∉ before)
    (simple : Arrival.IsSimple lookup start ⟨trail, root⟩)
    (cyclic : root.type ∈ chainOf start.name trail) :
    Walk lookup start trail [root] before [⟨trail, root⟩] (root.place :: before) where
  visited := rfl
  distinct := List.nodup_singleton _
  unvisited := by simpa using unvisited
  rooted := by simp
  simple := by simpa using simple
  below := by simp
  entered := by
    intro arrival member type onChain
    rw [List.mem_singleton.mp member] at onChain
    exact Or.inl onChain
  closed := by
    intro arrival member enters
    rw [List.mem_singleton.mp member] at enters
    exact absurd cyclic enters

/-- Any other annotation is visited, and then the annotations of its type, as far as it resolves. -/
theorem ofEntered
    {root : Occurrence} {roots : List Occurrence} {fresh : List Arrival}
    (unvisited : root.place ∉ before)
    (simple : Arrival.IsSimple lookup start ⟨trail, root⟩)
    (enters : root.type ∉ chainOf start.name trail)
    (resolved : ∀ decl, lookup root.type = some decl → roots = decl.occurrences)
    (walk : Walk lookup start (trail ++ [root]) roots (root.place :: before) fresh after) :
    Walk lookup start trail [root] before (⟨trail, root⟩ :: fresh) after := by
  have apart : ∀ arrival ∈ fresh,
      arrival.last.place ≠ root.place ∧ arrival.last.place ∉ before := by
    intro arrival member
    have outside := walk.unvisited arrival member
    rw [List.mem_cons, not_or] at outside
    exact outside
  constructor
  case visited =>
    rw [walk.visited]
    simp
  case distinct =>
    rw [List.map_cons, List.nodup_cons]
    refine ⟨?_, walk.distinct⟩
    intro member
    rcases List.mem_map.mp member with ⟨arrival, isFresh, same⟩
    exact (apart arrival isFresh).1 same
  case unvisited =>
    intro arrival member
    rcases List.mem_cons.mp member with rfl | later
    · exact unvisited
    · exact (apart arrival later).2
  case rooted =>
    intro other member
    rw [List.mem_singleton.mp member, walk.visited]
    simp
  case simple =>
    intro arrival member
    rcases List.mem_cons.mp member with rfl | later
    · exact simple
    · exact walk.simple arrival later
  case below =>
    intro arrival member
    refine ⟨root, List.mem_singleton_self root, ?_⟩
    rcases List.mem_cons.mp member with rfl | later
    · exact List.prefix_rfl
    · rcases walk.below arrival later with ⟨_, _, isBelow⟩
      exact (List.prefix_append _ _).trans isBelow
  case entered =>
    intro arrival member type onChain
    rcases List.mem_cons.mp member with rfl | later
    · exact Or.inl onChain
    · rcases walk.entered arrival later type onChain with above | ⟨earlier, isFresh, entered⟩
      · rw [chainOf_append_singleton, List.mem_append, List.mem_singleton] at above
        apply above.imp_right
        intro same
        exact ⟨⟨trail, root⟩, List.mem_cons_self, same.symm, enters⟩
      · exact Or.inr ⟨earlier, List.mem_cons_of_mem _ isFresh, entered⟩
  case closed =>
    intro arrival member entered decl found
    rcases List.mem_cons.mp member with rfl | later
    · rw [← resolved decl found]
      exact walk.rooted
    · exact walk.closed arrival later entered decl found

/-- An annotation whose place was visited is one of the arrivals. -/
theorem exists_arrival
    {roots : List Occurrence} {fresh : List Arrival} {place : Place}
    (walk : Walk lookup start trail roots [] fresh after)
    (visited : place ∈ after) :
    ∃ arrival ∈ fresh, arrival.last.place = place := by
  rw [walk.visited, List.append_nil, List.mem_reverse] at visited
  exact List.mem_map.mp visited

end Walk

/-! ## Every walk is one -/

open Reach.World (remaining remaining_append_lt)

variable {policies : PolicyTable} {trail : List Occurrence}

/-- What a query of a walk gives when it does not give up. -/
def Walks
    (lookup : TypeName → Option TypeDecl) (policies : PolicyTable) (start : TypeDecl)
    (trail roots : List Occurrence) (before : List Place) (query : BoundedQuery Walked) :
    Prop :=
  ∃ fresh after,
    query.run.answer lookup = some (fresh.filterMap (Arrival.hint? policies start), after) ∧
      Walk lookup start trail roots before fresh after

/-- Visits one after the other make one walk. -/
theorem walks_walkEach
    {visit : Place → AnnotationUse → List Place → BoundedQuery Walked}
    {host : TypeName} {position : Nat} {uses : List AnnotationUse}
    (visits : ∀ root ∈ Occurrence.listed host position uses, ∀ visited,
      Walks lookup policies start trail [root] visited (visit root.place root.use visited))
    (visited : List Place) :
    Walks lookup policies start trail (Occurrence.listed host position uses) visited
      (walkEach visit host position uses visited) := by
  induction uses generalizing position visited with
  | nil => exact ⟨[], visited, rfl, .ofVisited (by simp)⟩
  | cons use rest inductive_hypothesis =>
      rw [Occurrence.listed_cons] at visits ⊢
      rcases visits _ List.mem_cons_self visited with ⟨firstFresh, between, visitedFirst, first⟩
      have later : ∀ root ∈ Occurrence.listed host (position + 1) rest, ∀ visited,
          Walks lookup policies start trail [root] visited
            (visit root.place root.use visited) := by
        intro root member
        exact visits root (List.mem_cons_of_mem _ member)
      rcases inductive_hypothesis later between with ⟨secondFresh, after, visitedRest, second⟩
      refine ⟨firstFresh ++ secondFresh, after, ?_, first.append second⟩
      change (visit (host, position) use visited).run.answer lookup = _ at visitedFirst
      simp [walkEach, visitedFirst, visitedRest]

theorem answer_walkFrom_visited
    (policies : PolicyTable) (depth : Nat) (chain : List TypeName)
    {place : Place} {use : AnnotationUse} {visited : List Place}
    (before : place ∈ visited) :
    (walkFrom policies (depth + 1) chain place use visited).run.answer lookup =
      some ([], visited) := by
  simp [walkFrom, before]

theorem answer_walkFrom_cyclic
    (policies : PolicyTable) (depth : Nat) {chain : List TypeName}
    {place : Place} {use : AnnotationUse} {visited : List Place}
    (unvisited : place ∉ visited)
    (cyclic : use.type ∈ chain) :
    (walkFrom policies (depth + 1) chain place use visited).run.answer lookup =
      some ([], place :: visited) := by
  simp [walkFrom, unvisited, cyclic]

theorem answer_walkFrom_unresolved
    (policies : PolicyTable) (depth : Nat) {chain : List TypeName}
    {place : Place} {use : AnnotationUse} {visited : List Place}
    (unvisited : place ∉ visited)
    (enters : use.type ∉ chain)
    (unresolved : lookup use.type = none) :
    (walkFrom policies (depth + 1) chain place use visited).run.answer lookup =
      some ((hintOf? policies chain use.type use.valueTypes).toList, place :: visited) := by
  simp only [walkFrom, unvisited, enters, if_false, BoundedQuery.answer_run_bind,
    BoundedQuery.answer_run_lift, Query.answer_find, unresolved, Option.bind_some]
  rfl

theorem answer_walkFrom_resolved
    (policies : PolicyTable) (depth : Nat) {chain : List TypeName}
    {place : Place} {use : AnnotationUse} {visited : List Place} {decl : TypeDecl}
    (unvisited : place ∉ visited)
    (enters : use.type ∉ chain)
    (resolved : lookup use.type = some decl) :
    (walkFrom policies (depth + 1) chain place use visited).run.answer lookup =
      ((walkEach (walkFrom policies depth (chain ++ [use.type])) decl.name 0
          decl.annotations (place :: visited)).run.answer lookup).map fun result =>
        ((hintOf? policies chain use.type use.valueTypes).toList ++ result.1, result.2) := by
  simp only [walkFrom, unvisited, enters, if_false, BoundedQuery.answer_run_bind,
    BoundedQuery.answer_run_lift, Query.answer_find, resolved, Option.bind_some]
  cases (walkEach (walkFrom policies depth (chain ++ [use.type])) decl.name 0
    decl.annotations (place :: visited)).run.answer lookup <;> rfl

/-- The hints of an arrival that a walk enters come before those below it. -/
theorem Arrival.filterMap_hint?_cons
    {arrival : Arrival}
    (enters : arrival.Enters start)
    (fresh : List Arrival) :
    (arrival :: fresh).filterMap (hint? policies start) =
      (hintOf? policies (chainOf start.name arrival.trail) arrival.last.type
          arrival.last.use.valueTypes).toList ++
        fresh.filterMap (hint? policies start) := by
  have own : arrival.hint? policies start =
      hintOf? policies (chainOf start.name arrival.trail) arrival.last.type
        arrival.last.use.valueTypes :=
    if_pos enters
  rw [List.filterMap_cons, ← own]
  cases arrival.hint? policies start <;> rfl

/--
Every walk within a sufficient depth comes to an end.  The induction is on the
depth; a type that is entered takes its place on the chain from what remains,
unless it does not resolve and has nothing below it.
-/
theorem walks_walkFrom
    {known : List TypeName}
    (complete : ∀ name, (lookup name).isSome = true → name ∈ known)
    {depth : Nat} {root : Occurrence}
    (simple : Arrival.IsSimple lookup start ⟨trail, root⟩)
    (visited : List Place)
    (enough : remaining known (chainOf start.name trail) < depth) :
    Walks lookup policies start trail [root] visited
      (walkFrom policies depth (chainOf start.name trail) root.place root.use visited) := by
  induction depth generalizing trail root visited with
  | zero => exact absurd enough (Nat.not_lt_zero _)
  | succ depth inductive_hypothesis =>
      by_cases before : root.place ∈ visited
      · exact ⟨[], visited, answer_walkFrom_visited policies depth _ before,
          .ofVisited (by simpa using before)⟩
      by_cases cyclic : root.type ∈ chainOf start.name trail
      · refine ⟨[⟨trail, root⟩], _, ?_, .ofCyclic before simple cyclic⟩
        have none : Arrival.hint? policies start ⟨trail, root⟩ = none :=
          if_neg fun enters => enters cyclic
        rw [List.filterMap_cons_none none]
        exact answer_walkFrom_cyclic policies depth before cyclic
      have enters : Arrival.Enters start ⟨trail, root⟩ := cyclic
      cases found : lookup root.type with
      | none =>
          have nothing : ∀ decl, lookup root.type = some decl → [] = decl.occurrences := by
            simp [found]
          refine ⟨[⟨trail, root⟩], _, ?_,
            .ofEntered before simple cyclic nothing (.ofVisited (by simp))⟩
          rw [Arrival.filterMap_hint?_cons enters, List.filterMap_nil, List.append_nil]
          exact answer_walkFrom_unresolved policies depth before cyclic found
      | some decl =>
          have fewer : remaining known (chainOf start.name (trail ++ [root])) < depth := by
            have resolves := complete root.type (by rw [found]; rfl)
            have less := remaining_append_lt resolves cyclic
            rw [chainOf_append_singleton]
            omega
          have visits : ∀ next ∈ decl.occurrences, ∀ visited,
              Walks lookup policies start (trail ++ [root]) [next] visited
                (walkFrom policies depth (chainOf start.name trail ++ [root.type])
                  next.place next.use visited) := by
            intro next attached visited
            rw [← chainOf_append_singleton]
            rcases simple.1 with ⟨host, leads, rootAttached⟩
            refine inductive_hypothesis ⟨⟨decl, .snoc leads rootAttached found, attached⟩, ?_⟩
              visited fewer
            rw [chainOf_append_singleton]
            exact simple.2.append (List.nodup_singleton _) (by simpa using cyclic)
          rcases walks_walkEach visits (root.place :: visited) with
            ⟨fresh, after, answered, walk⟩
          refine ⟨⟨trail, root⟩ :: fresh, after, ?_,
            .ofEntered before simple cyclic ?_ walk⟩
          · rw [answer_walkFrom_resolved policies depth before cyclic found,
              Arrival.filterMap_hint?_cons enters]
            exact congrArg (Option.map _) answered
          · intro other foundOther
            rw [found] at foundOther
            rw [← Option.some.inj foundOther]
            rfl

/-! ## The walks of a declaration -/

/-- The hints found below one annotation of a declaration. -/
def collectBelow
    (policies : PolicyTable) (bound : Nat) (start : TypeDecl) (root : Occurrence) :
    Query (List Hint) :=
  return (← (walkFrom policies bound [start.name] root.place root.use []).getD ([], [])).1

/-- Whether a type is a selector is found out as well, but is no part of its hints. -/
theorem answer_collect
    (policies : PolicyTable) (bound : Nat) (decl : TypeDecl) :
    (collect policies bound decl).answer lookup =
      (hintOf? policies [] decl.name []).toList ++
        ((walkTop policies bound decl.name 0 decl.annotations).getD []).answer lookup := by
  simp only [collect, findings, Query.answer_bind, Query.answer_pure]
  split_ifs <;> simp

theorem answer_walkTop
    {bound position : Nat} {uses : List AnnotationUse}
    (ended : ∀ root ∈ Occurrence.listed start.name position uses,
      Walks lookup policies start [] [root] []
        (walkFrom policies bound [start.name] root.place root.use [])) :
    (walkTop policies bound start.name position uses).run.answer lookup =
      some ((Occurrence.listed start.name position uses).flatMap fun root =>
        (collectBelow policies bound start root).answer lookup) := by
  induction uses generalizing position with
  | nil => rfl
  | cons use rest inductive_hypothesis =>
      rw [Occurrence.listed_cons] at ended ⊢
      rw [List.forall_mem_cons] at ended
      rcases ended.1 with ⟨fresh, after, answered, _⟩
      change (walkFrom policies bound [start.name] (start.name, position) use []).run.answer
        lookup = _ at answered
      have below := inductive_hypothesis ended.2
      simp [walkTop, answered, below, collectBelow, BoundedQuery.getD, Occurrence.place]

/-- Within a sufficient depth, the hints of a declaration come from a walk for each annotation. -/
theorem exists_walks
    {bound : Nat}
    (sufficient : Resolution.Suffices bound lookup)
    (policies : PolicyTable) (start : TypeDecl) :
    ∃ (fresh : Occurrence → List Arrival) (after : Occurrence → List Place),
      (∀ root ∈ start.occurrences,
        Walk lookup start [] [root] [] (fresh root) (after root) ∧
          (collectBelow policies bound start root).answer lookup =
            (fresh root).filterMap (Arrival.hint? policies start)) ∧
      (collect policies bound start).answer lookup =
        (hintOf? policies [] start.name []).toList ++
          start.occurrences.flatMap fun root =>
            (collectBelow policies bound start root).answer lookup := by
  rcases sufficient with ⟨known, below, complete⟩
  have ended : ∀ root ∈ start.occurrences,
      Walks lookup policies start [] [root] []
        (walkFrom policies bound [start.name] root.place root.use []) := by
    intro root attached
    have enough : remaining known (chainOf start.name []) < bound :=
      Nat.lt_of_le_of_lt List.countP_le_length below
    exact walks_walkFrom complete ⟨⟨start, .nil, attached⟩, List.nodup_singleton _⟩ [] enough
  choose! fresh after answered walk using ended
  refine ⟨fresh, after, ?_, ?_⟩
  · intro root attached
    refine ⟨walk root attached, ?_⟩
    simp [collectBelow, BoundedQuery.getD, answered root attached]
  · rw [answer_collect, BoundedQuery.getD, Query.answer_bind, Query.answer_pure,
      answer_walkTop fun root attached => ⟨_, _, answered root attached, walk root attached⟩]
    rfl

end Hint

end TypeReach
