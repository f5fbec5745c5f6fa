import TypeReach.Proofs.Reach.Visit
import TypeReach.Proofs.Resolution.Finiteness

/-!
# What a whole traversal does

`Reached` is the least set of units that has a root and, with each accepted
unit, the units below it.  `Traversal` says what an evaluation adds to a state:
the units it visits, in order, and what each of them leaves behind.  It holds
of every visit and is kept under sequencing, so it holds of every evaluation,
from any state.  On return every accepted unit that was visited has all units
below it among the visited ones, whichever path led to them first; this is
what makes the visited units of a finished traversal exactly the reached ones.
-/

namespace TypeReach.Reach

namespace World

/-! ## Reached units -/

/-- The units that a root leads to through accepted units. -/
inductive Reached (world : World) (root : TypeName) : TypeName → Prop where
  | root : Reached world root root
  | imported
      {unit type : TypeName} {hint : Hint}
      (reached : Reached world root unit)
      (accepted : world.Accepts unit)
      (collected : hint ∈ world.hints unit)
      (follow : hint.follow = true)
      (listed : type ∈ hint.allTypes) :
      Reached world root type
  | nested
      {unit type : TypeName} {decl : TypeDecl}
      (reached : Reached world root unit)
      (accepted : world.Accepts unit)
      (found : world.lookup unit = some decl)
      (listed : type ∈ decl.nested) :
      Reached world root type

theorem mem_imports_iff
    {world : World} {unit type : TypeName} :
    type ∈ world.imports unit ↔
      ∃ hint ∈ world.hints unit, hint.follow = true ∧ type ∈ hint.allTypes := by
  simp [imports, and_assoc]

theorem mem_nested_iff
    {world : World} {unit type : TypeName} :
    type ∈ world.nested unit ↔
      ∃ decl, world.lookup unit = some decl ∧ type ∈ decl.nested := by
  unfold nested
  cases world.lookup unit with
  | none => simp
  | some decl => simp

/-- Below an accepted unit that is reached, every unit is reached. -/
theorem Reached.step
    {world : World} {root unit type : TypeName}
    (reached : world.Reached root unit)
    (accepted : world.Accepts unit)
    (member : type ∈ world.below unit) :
    world.Reached root type := by
  rcases List.mem_append.mp member with imported | nested
  · rcases mem_imports_iff.mp imported with ⟨hint, collected, follow, listed⟩
    exact .imported reached accepted collected follow listed
  · rcases mem_nested_iff.mp nested with ⟨decl, found, listed⟩
    exact .nested reached accepted found listed

/-- The reached units are the least set with the root that is closed downwards. -/
theorem Reached.least
    {world : World} {root unit : TypeName} {holds : TypeName → Prop}
    (reached : world.Reached root unit)
    (atRoot : holds root)
    (closed : ∀ unit, holds unit → world.Accepts unit →
      ∀ type ∈ world.below unit, holds type) :
    holds unit := by
  induction reached with
  | root => exact atRoot
  | imported _ accepted collected follow listed inductive_hypothesis =>
      apply closed _ inductive_hypothesis accepted
      exact List.mem_append_left _
        (mem_imports_iff.mpr ⟨_, collected, follow, listed⟩)
  | nested _ accepted found listed inductive_hypothesis =>
      apply closed _ inductive_hypothesis accepted
      exact List.mem_append_right _
        (mem_nested_iff.mpr ⟨_, found, listed⟩)

theorem Reached.trans
    {world : World} {first second third : TypeName}
    (left : world.Reached first second)
    (right : world.Reached second third) :
    world.Reached first third :=
  right.least left fun _ reached accepted _ member => reached.step accepted member

/-! ## What visited units leave behind -/

/-- The rejection that a visit of a unit notes, if any. -/
def rejection? (world : World) (unit : TypeName) : Option Rejection :=
  (world.verdict unit).map (Rejection.mk unit)

/-- What a visit of a unit requests; nothing unless it is accepted. -/
def requests (world : World) (unit : TypeName) : List Request :=
  match world.verdict unit with
  | none => world.entryRequests unit ++ world.exitRequests unit
  | some _ => []

theorem mem_checked_iff
    {world : World} {unit type : TypeName} :
    type ∈ world.checked unit ↔
      ∃ hint ∈ world.hints unit,
        hint.skipIfMissing = true ∧ type ∈ hint.referenced := by
  simp [checked, and_assoc]

theorem mem_plain_iff
    {world : World} {unit type : TypeName} :
    type ∈ world.plain unit ↔
      ∃ hint ∈ world.hints unit,
        hint.skipIfMissing = false ∧ hint.follow = false ∧
          type ∈ hint.allTypes := by
  simp [plain, isPlain, and_assoc]

/-- What a visit requests is what the unit's own role and its lists ask for. -/
theorem mem_requests_iff
    {world : World} {unit name : TypeName} {capabilities : CapabilitySet} :
    (name, capabilities) ∈ world.requests unit ↔
      world.Accepts unit ∧
        ((name = unit ∨ name ∈ world.plain unit ∧ world.Resolves name) ∧
            capabilities = world.rules.capabilities ∨
          name ∈ world.checked unit ∧ capabilities = .configuration) := by
  unfold requests
  cases judged : world.verdict unit with
  | some reason =>
      have rejected : ¬ world.Accepts unit :=
        not_accepts_iff.mpr ⟨reason, judged⟩
      simp [rejected]
  | none =>
      have accepted := verdict_eq_none_iff.mp judged
      simp only [accepted, true_and, entryRequests, exitRequests,
        List.mem_append, List.mem_cons, List.mem_map, List.mem_filter,
        decide_eq_true_eq, Prod.mk.injEq]
      constructor
      · rintro ((⟨rfl, rfl⟩ | ⟨_, listed, rfl, rfl⟩) | ⟨_, listed, rfl, rfl⟩)
        · exact Or.inl ⟨Or.inl rfl, rfl⟩
        · exact Or.inr ⟨listed, rfl⟩
        · exact Or.inl ⟨Or.inr listed, rfl⟩
      · rintro (⟨rfl | listed, rfl⟩ | ⟨listed, rfl⟩)
        · exact Or.inl (Or.inl ⟨rfl, rfl⟩)
        · exact Or.inr ⟨name, listed, rfl, rfl⟩
        · exact Or.inl (Or.inr ⟨name, listed, rfl, rfl⟩)

/-- What a visit of a unit finds unresolvable; nothing unless it is accepted. -/
def leftOver (world : World) (unit : TypeName) : List TypeName :=
  match world.verdict unit with
  | none => world.unresolvable unit
  | some _ => []

/--
The evaluation of some roots leads from one state to another and visits the
fresh units, in this order.
-/
structure Traversal
    (world : World) (roots : List TypeName)
    (before : Evaluation) (fresh : List TypeName) (after : Evaluation) : Prop where
  visited : after.visited = before.visited ++ fresh
  distinct : fresh.Nodup
  unvisited : ∀ unit ∈ fresh, unit ∉ before.visited
  rejections : after.rejections =
    before.rejections ++ fresh.filterMap world.rejection?
  registry : after.registry =
    before.registry.registerAll (fresh.flatMap world.requests)
  unresolved : after.unresolved.Perm
    (before.unresolved ++ fresh.flatMap world.leftOver)
  rooted : ∀ root ∈ roots, root ∈ after.visited
  closed : ∀ unit ∈ fresh, world.Accepts unit →
    ∀ type ∈ world.below unit, type ∈ after.visited
  reached : ∀ unit ∈ fresh, ∃ root ∈ roots, world.Reached root unit

namespace Traversal

/-- Roots that were all visited before change nothing. -/
theorem ofVisited
    {world : World} {roots : List TypeName} {state : Evaluation}
    (visited : ∀ root ∈ roots, root ∈ state.visited) :
    world.Traversal roots state [] state where
  visited := (List.append_nil _).symm
  distinct := List.nodup_nil
  unvisited := by simp
  rejections := (List.append_nil _).symm
  registry := rfl
  unresolved := by simp
  rooted := visited
  closed := by simp
  reached := by simp

theorem nil
    (world : World) (state : Evaluation) :
    world.Traversal [] state [] state :=
  ofVisited fun _ member => (List.not_mem_nil member).elim

/-- A rejected unit notes its rejection, and nothing below it is visited. -/
theorem ofRejected
    {world : World} {unit : TypeName} {state : Evaluation}
    {reason : RejectReason}
    (unvisited : unit ∉ state.visited)
    (rejected : world.verdict unit = some reason) :
    world.Traversal [unit] state [unit]
      ((state.visit unit).reject unit reason) where
  visited := rfl
  distinct := by simp
  unvisited := by simpa using unvisited
  rejections := by
    simp [Evaluation.reject, Evaluation.visit, rejection?, rejected]
  registry := by
    simp [Evaluation.reject, Evaluation.visit, requests, rejected]
  unresolved := by
    simp [Evaluation.reject, Evaluation.visit, leftOver, rejected]
  rooted := by simp [Evaluation.reject, Evaluation.visit]
  closed := by
    intro other member accepted
    rw [List.mem_singleton.mp member, ← verdict_eq_none_iff, rejected] at accepted
    cases accepted
  reached := by
    intro other member
    rw [List.mem_singleton.mp member]
    exact ⟨unit, List.mem_singleton_self unit, .root⟩

/-- An accepted unit is visited, and then the units below it. -/
theorem ofAccepted
    {world : World} {unit : TypeName} {state after : Evaluation}
    {fresh : List TypeName}
    (unvisited : unit ∉ state.visited)
    (accepted : world.verdict unit = none)
    (below : world.Traversal (world.below unit) (world.enter unit state) fresh after) :
    world.Traversal [unit] state (unit :: fresh) (world.settle unit after) := by
  have accepts := verdict_eq_none_iff.mp accepted
  have entered : (world.enter unit state).visited = state.visited ++ [unit] := rfl
  have apart : ∀ other ∈ fresh, other ∉ state.visited ∧ other ≠ unit := by
    intro other member
    have outside := below.unvisited other member
    rw [entered] at outside
    simpa using outside
  have requested : world.requests unit =
      world.entryRequests unit ++ world.exitRequests unit := by
    simp [requests, accepted]
  have unresolvable : world.leftOver unit = world.unresolvable unit := by
    simp [leftOver, accepted]
  constructor
  case visited =>
    have visited := below.visited
    rw [entered, List.append_assoc] at visited
    exact visited
  case distinct =>
    refine List.nodup_cons.mpr ⟨?_, below.distinct⟩
    intro member
    exact (apart unit member).2 rfl
  case unvisited =>
    intro other member
    rcases List.mem_cons.mp member with same | later
    · rw [same]
      exact unvisited
    · exact (apart other later).1
  case rejections =>
    have rejections := below.rejections
    have none : world.rejection? unit = none := by
      simp [rejection?, accepted]
    rw [List.filterMap_cons_none none]
    exact rejections
  case registry =>
    -- The unit's last requests come after those of the units below it.
    have registry : (world.settle unit after).registry =
        state.registry.registerAll (world.entryRequests unit ++
          (fresh.flatMap world.requests ++ world.exitRequests unit)) := by
      rw [Registry.registerAll_append, Registry.registerAll_append]
      change after.registry.registerAll (world.exitRequests unit) = _
      rw [below.registry]
      rfl
    rw [registry, List.flatMap_cons, requested, List.append_assoc]
    apply Registry.registerAll_perm
    exact List.perm_append_comm.append_left _
  case unresolved =>
    have permutation := below.unresolved.append_right (world.unresolvable unit)
    rw [List.flatMap_cons, unresolvable]
    refine permutation.trans ?_
    rw [List.append_assoc]
    exact List.perm_append_comm.append_left _
  case rooted =>
    intro root member
    rw [List.mem_singleton.mp member]
    change unit ∈ after.visited
    rw [below.visited, entered]
    simp
  case closed =>
    intro other member
    rcases List.mem_cons.mp member with same | later
    · rw [same]
      intro _
      exact below.rooted
    · exact below.closed other later
  case reached =>
    intro other member
    refine ⟨unit, List.mem_singleton_self unit, ?_⟩
    rcases List.mem_cons.mp member with same | later
    · rw [same]
      exact .root
    · rcases below.reached other later with ⟨root, rootMember, reached⟩
      exact (Reached.root.step accepts rootMember).trans reached

/-- One evaluation after another. -/
theorem append
    {world : World} {firstRoots secondRoots : List TypeName}
    {before between after : Evaluation} {firstFresh secondFresh : List TypeName}
    (first : world.Traversal firstRoots before firstFresh between)
    (second : world.Traversal secondRoots between secondFresh after) :
    world.Traversal (firstRoots ++ secondRoots) before
      (firstFresh ++ secondFresh) after := by
  have grows : ∀ unit ∈ between.visited, unit ∈ after.visited := by
    intro unit member
    rw [second.visited]
    exact List.mem_append_left _ member
  have apart : ∀ unit ∈ secondFresh, unit ∉ before.visited ∧ unit ∉ firstFresh := by
    intro unit member
    have outside := second.unvisited unit member
    rw [first.visited] at outside
    simpa using outside
  constructor
  case visited =>
    rw [second.visited, first.visited, List.append_assoc]
  case distinct =>
    refine List.nodup_append.mpr ⟨first.distinct, second.distinct, ?_⟩
    rintro unit firstMember _ secondMember rfl
    exact (apart unit secondMember).2 firstMember
  case unvisited =>
    intro unit member
    rcases List.mem_append.mp member with firstMember | secondMember
    · exact first.unvisited unit firstMember
    · exact (apart unit secondMember).1
  case rejections =>
    rw [second.rejections, first.rejections, List.filterMap_append,
      List.append_assoc]
  case registry =>
    rw [second.registry, first.registry, List.flatMap_append,
      Registry.registerAll_append]
  case unresolved =>
    rw [List.flatMap_append, ← List.append_assoc]
    exact second.unresolved.trans (first.unresolved.append_right _)
  case rooted =>
    intro root member
    rcases List.mem_append.mp member with firstMember | secondMember
    · exact grows root (first.rooted root firstMember)
    · exact second.rooted root secondMember
  case closed =>
    intro unit member accepted type below
    rcases List.mem_append.mp member with firstMember | secondMember
    · exact grows type (first.closed unit firstMember accepted type below)
    · exact second.closed unit secondMember accepted type below
  case reached =>
    intro unit member
    rcases List.mem_append.mp member with firstMember | secondMember
    · rcases first.reached unit firstMember with ⟨root, rootMember, reached⟩
      exact ⟨root, List.mem_append_left _ rootMember, reached⟩
    · rcases second.reached unit secondMember with ⟨root, rootMember, reached⟩
      exact ⟨root, List.mem_append_right _ rootMember, reached⟩

end Traversal

/-! ## Depth -/

/-- How many of some names were not visited yet. -/
def remaining (known visited : List TypeName) : Nat :=
  known.countP fun name => decide (name ∉ visited)

theorem remaining_le_of_subset
    {known visited more : List TypeName}
    (subset : visited ⊆ more) :
    remaining known more ≤ remaining known visited := by
  apply List.countP_mono_left
  intro name _ outside
  rw [decide_eq_true_eq] at outside ⊢
  exact fun member => outside (subset member)

theorem remaining_append_le
    (known visited more : List TypeName) :
    remaining known (visited ++ more) ≤ remaining known visited :=
  remaining_le_of_subset (List.subset_append_left visited more)

/-- Visiting a known unit for the first time leaves fewer of them. -/
theorem remaining_append_lt
    {known visited : List TypeName} {unit : TypeName}
    (member : unit ∈ known) (unvisited : unit ∉ visited) :
    remaining known (visited ++ [unit]) < remaining known visited := by
  rcases List.append_of_mem member with ⟨front, back, split⟩
  have frontLe := remaining_append_le front visited [unit]
  have backLe := remaining_append_le back visited [unit]
  unfold remaining at frontLe backLe ⊢
  rw [split, List.countP_append, List.countP_append,
    List.countP_cons_of_neg (by simp), List.countP_cons_of_pos (by simpa using unvisited)]
  omega

theorem remaining_cons_lt
    {known visited : List TypeName} {unit : TypeName}
    (member : unit ∈ known) (unvisited : unit ∉ visited) :
    remaining known (unit :: visited) < remaining known visited := by
  have swapped : remaining known (unit :: visited) = remaining known (visited ++ [unit]) := by
    apply List.countP_congr
    intro other _
    simp [and_comm]
  rw [swapped]
  exact remaining_append_lt member unvisited

/-- What is shown of one visit holds of visits one after the other. -/
theorem exists_traversal_evaluateEach
    {world : World} {known : List TypeName} {depth : Nat}
    {visit : TypeName → Evaluation → BoundedQuery (Bool × Evaluation)}
    (visits : ∀ unit state, remaining known state.visited < depth →
      ∃ accepted fresh after,
        (visit unit state).run.answer world.lookup = some (accepted, after) ∧
          world.Traversal [unit] state fresh after)
    (units : List TypeName) (state : Evaluation)
    (enough : remaining known state.visited < depth) :
    ∃ fresh after,
      (evaluateEach visit units state).run.answer world.lookup = some after ∧
        world.Traversal units state fresh after := by
  induction units generalizing state with
  | nil => exact ⟨[], state, rfl, .nil world state⟩
  | cons unit rest inductive_hypothesis =>
      rcases visits unit state enough with
        ⟨accepted, firstFresh, between, visited, first⟩
      have stillEnough : remaining known between.visited < depth := by
        rw [first.visited]
        exact Nat.lt_of_le_of_lt (remaining_append_le _ _ _) enough
      rcases inductive_hypothesis between stillEnough with
        ⟨secondFresh, after, evaluated, second⟩
      refine ⟨firstFresh ++ secondFresh, after, ?_, first.append second⟩
      simp [evaluateEach, visited, evaluated]

/--
Every evaluation within a sufficient depth comes to an end and is a traversal.
The induction is on the depth; entering an accepted unit, which resolves, takes
one from what remains.
-/
theorem exists_traversal_evaluateFrom
    {world : World} {known : List TypeName}
    (complete : ∀ name, world.Resolves name → name ∈ known)
    (depth : Nat) (unit : TypeName) (state : Evaluation)
    (enough : remaining known state.visited < depth) :
    ∃ accepted fresh after,
      (evaluateFrom world.rules depth unit state).run.answer world.lookup =
          some (accepted, after) ∧
        world.Traversal [unit] state fresh after := by
  induction depth generalizing unit state with
  | zero => exact absurd enough (Nat.not_lt_zero _)
  | succ depth inductive_hypothesis =>
      by_cases visited : unit ∈ state.visited
      · refine ⟨true, [], state, world.answer_evaluateFrom_visited depth visited,
          .ofVisited ?_⟩
        intro root member
        rw [List.mem_singleton.mp member]
        exact visited
      · cases judged : world.verdict unit with
        | some reason =>
            exact ⟨false, [unit], _,
              world.answer_evaluateFrom_rejected depth visited judged,
              .ofRejected visited judged⟩
        | none =>
            have known := complete unit (verdict_eq_none_iff.mp judged).resolves
            have fewer := remaining_append_lt known visited
            have enoughBelow :
                remaining _ (world.enter unit state).visited < depth :=
              Nat.lt_of_lt_of_le fewer (Nat.le_of_lt_succ enough)
            rcases exists_traversal_evaluateEach inductive_hypothesis
                (world.below unit) (world.enter unit state) enoughBelow with
              ⟨fresh, after, evaluated, below⟩
            refine ⟨true, unit :: fresh, world.settle unit after, ?_,
              .ofAccepted visited judged below⟩
            rw [world.answer_evaluateFrom_accepted depth visited judged, evaluated]
            rfl

/-- Whether a unit is accepted depends on nothing that was found before or below it. -/
theorem accepted_iff
    {world : World} {depth : Nat} {unit : TypeName} {state after : Evaluation}
    {accepted : Bool}
    (evaluated :
      (evaluateFrom world.rules depth unit state).run.answer world.lookup =
        some (accepted, after)) :
    accepted = true ↔ unit ∈ state.visited ∨ world.Accepts unit := by
  cases depth with
  | zero => cases evaluated
  | succ depth =>
      by_cases visited : unit ∈ state.visited
      · rw [world.answer_evaluateFrom_visited depth visited] at evaluated
        cases evaluated
        exact ⟨fun _ => Or.inl visited, fun _ => rfl⟩
      · cases judged : world.verdict unit with
        | some reason =>
            rw [world.answer_evaluateFrom_rejected depth visited judged] at evaluated
            cases evaluated
            have rejected : ¬ world.Accepts unit :=
              not_accepts_iff.mpr ⟨reason, judged⟩
            simp [visited, rejected]
        | none =>
            rw [world.answer_evaluateFrom_accepted depth visited judged,
              Option.map_eq_some_iff] at evaluated
            rcases evaluated with ⟨_, _, same⟩
            cases same
            exact ⟨fun _ => Or.inr (verdict_eq_none_iff.mp judged), fun _ => rfl⟩

/-! ## Evaluations of single units -/

/-- Within a depth that suffices for the world, every evaluation is a traversal. -/
theorem exists_traversal
    {world : World} {bound : Nat}
    (sufficient : Resolution.Suffices bound world.lookup)
    (unit : TypeName) (state : Evaluation) :
    ∃ accepted fresh after,
      (evaluate world.rules bound unit state).answer world.lookup =
          (accepted, after) ∧
        (accepted = true ↔ unit ∈ state.visited ∨ world.Accepts unit) ∧
        world.Traversal [unit] state fresh after := by
  rcases sufficient with ⟨known, below, complete⟩
  have enough : remaining known state.visited < bound :=
    Nat.lt_of_le_of_lt List.countP_le_length below
  rcases exists_traversal_evaluateFrom complete bound unit state enough with
    ⟨accepted, fresh, after, evaluated, traversal⟩
  refine ⟨accepted, fresh, after, ?_, accepted_iff evaluated, traversal⟩
  simp [evaluate, BoundedQuery.getD, evaluated]

/-- A rejection changes a state by the visit and the one rejection only. -/
theorem answer_evaluate_rejected
    {world : World} {bound : Nat}
    (sufficient : Resolution.Suffices bound world.lookup)
    {unit : TypeName} {state : Evaluation} {reason : RejectReason}
    (unvisited : unit ∉ state.visited)
    (rejected : world.verdict unit = some reason) :
    (evaluate world.rules bound unit state).answer world.lookup =
      (false, (state.visit unit).reject unit reason) := by
  rcases sufficient with ⟨known, below, _⟩
  cases bound with
  | zero => exact absurd below (Nat.not_lt_zero _)
  | succ depth =>
      simp [evaluate, BoundedQuery.getD,
        world.answer_evaluateFrom_rejected depth unvisited rejected]

/-! ## Finished traversals -/

/-- From the start, exactly the units are visited that some root leads to. -/
theorem Traversal.mem_fresh_iff
    {world : World} {roots fresh : List TypeName} {after : Evaluation}
    (traversal : world.Traversal roots .start fresh after) {unit : TypeName} :
    unit ∈ fresh ↔ ∃ root ∈ roots, world.Reached root unit := by
  have visited : after.visited = fresh := traversal.visited
  constructor
  · exact traversal.reached unit
  · rintro ⟨root, member, reached⟩
    apply reached.least
    · rw [← visited]
      exact traversal.rooted root member
    · intro other otherMember accepted type below
      rw [← visited]
      exact traversal.closed other otherMember accepted type below

/-- From the start, a name has what the visited units request for it. -/
theorem Traversal.get?_registry
    {world : World} {roots fresh : List TypeName} {after : Evaluation}
    (traversal : world.Traversal roots .start fresh after) (name : TypeName) :
    after.registry.get? name = requested name (fresh.flatMap world.requests) := by
  rw [traversal.registry, Registry.get?_registerAll]
  exact Option.merge_none_left

end World

end TypeReach.Reach
