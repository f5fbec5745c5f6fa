import TypeReach.Reach.Evaluation

/-!
# What is decided about a single unit

Whether a unit is accepted is a matter of the unit alone: of the exclusions, of
its own declaration and of the types that its conditions list.  `Accepts` says
when it is accepted and `Rejects` says for which reason it is not; neither
mentions a traversal.  The verdict that the evaluation computes agrees with
both.
-/

namespace TypeReach.Reach

/-- What units are judged by: the declarations that look-ups give, and the rules. -/
structure World where
  lookup : TypeName → Option TypeDecl
  rules : Rules

namespace World

/-- Whether a type has a declaration. -/
def Resolves (world : World) (name : TypeName) : Prop :=
  (world.lookup name).isSome = true

instance (world : World) : DecidablePred world.Resolves :=
  fun name => inferInstanceAs (Decidable ((world.lookup name).isSome = true))

/-- The hints of a unit, in the order in which they are collected. -/
def hints (world : World) (unit : TypeName) : List Hint :=
  match world.lookup unit with
  | none => []
  | some decl => (world.rules.hintsOf decl).answer world.lookup

/-- The types nested in a unit. -/
def nested (world : World) (unit : TypeName) : List TypeName :=
  match world.lookup unit with
  | none => []
  | some decl => decl.nested

/-! ## Acceptance and rejection -/

/-- A hint is met when it is no condition or all types that it lists resolve. -/
def Meets (world : World) (hint : Hint) : Prop :=
  hint.skipIfMissing = true → ∀ type ∈ hint.referenced, world.Resolves type

/-- The units that are accepted. -/
structure Accepts (world : World) (unit : TypeName) : Prop where
  allowed : world.rules.isExcluded unit = false
  resolves : world.Resolves unit
  met : ∀ hint ∈ world.hints unit, world.Meets hint

/--
The reason for which a unit is rejected.  A missing type is the first one that
does not resolve in the first condition that is not met.
-/
inductive Rejects (world : World) (unit : TypeName) : RejectReason → Prop where
  | excluded
      (excluded : world.rules.isExcluded unit = true) :
      Rejects world unit .excluded
  | unresolvable
      (allowed : world.rules.isExcluded unit = false)
      (absent : ¬ world.Resolves unit) :
      Rejects world unit .unresolvable
  | missingReference
      {earlier later : List Hint} {hint : Hint}
      {found rest : List TypeName} {missing : TypeName}
      (allowed : world.rules.isExcluded unit = false)
      (resolves : world.Resolves unit)
      (collected : world.hints unit = earlier ++ hint :: later)
      (met : ∀ other ∈ earlier, world.Meets other)
      (condition : hint.skipIfMissing = true)
      (listed : hint.referenced = found ++ missing :: rest)
      (present : ∀ type ∈ found, world.Resolves type)
      (absent : ¬ world.Resolves missing) :
      Rejects world unit (.missingReference missing hint.chain)

/-! ## The verdict -/

/-- The reason for which a hint rejects its host, if it does. -/
def failure? (world : World) (hint : Hint) : Option RejectReason :=
  if hint.skipIfMissing then
    (hint.referenced.find? fun type => ! decide (world.Resolves type)).map
      (RejectReason.missingReference · hint.chain)
  else none

/-- The reason for which a unit is rejected, or none when it is accepted. -/
def verdict (world : World) (unit : TypeName) : Option RejectReason :=
  if world.rules.isExcluded unit then some .excluded
  else if world.Resolves unit then (world.hints unit).findSome? world.failure?
  else some .unresolvable

theorem failure?_eq_none_iff
    {world : World} {hint : Hint} :
    world.failure? hint = none ↔ world.Meets hint := by
  unfold failure? Meets
  by_cases condition : hint.skipIfMissing = true
  · simp [condition]
  · simp [condition]

theorem failure?_eq_some_iff
    {world : World} {hint : Hint} {reason : RejectReason} :
    world.failure? hint = some reason ↔
      hint.skipIfMissing = true ∧
        ∃ found missing rest,
          hint.referenced = found ++ missing :: rest ∧
            (∀ type ∈ found, world.Resolves type) ∧
            ¬ world.Resolves missing ∧
            reason = .missingReference missing hint.chain := by
  unfold failure?
  by_cases condition : hint.skipIfMissing = true
  · rw [if_pos condition, Option.map_eq_some_iff]
    constructor
    · rintro ⟨missing, first, same⟩
      rcases List.find?_eq_some_iff_append.mp first with
        ⟨absent, found, rest, listed, present⟩
      refine ⟨condition, found, missing, rest, listed, ?_, ?_, same.symm⟩
      · intro type member
        simpa using present type member
      · simpa using absent
    · rintro ⟨_, found, missing, rest, listed, present, absent, same⟩
      refine ⟨missing, List.find?_eq_some_iff_append.mpr ?_, same.symm⟩
      refine ⟨by simpa using absent, found, rest, listed, ?_⟩
      intro type member
      simpa using present type member
  · simp [condition]

/-- No reason is found exactly for the units that are accepted. -/
theorem verdict_eq_none_iff
    {world : World} {unit : TypeName} :
    world.verdict unit = none ↔ world.Accepts unit := by
  unfold verdict
  by_cases excluded : world.rules.isExcluded unit = true
  · rw [if_pos excluded]
    constructor
    · intro impossible
      cases impossible
    · intro accepted
      rw [accepted.allowed] at excluded
      cases excluded
  · rw [if_neg excluded]
    have allowed : world.rules.isExcluded unit = false :=
      Bool.eq_false_iff.mpr excluded
    by_cases resolves : world.Resolves unit
    · rw [if_pos resolves, List.findSome?_eq_none_iff]
      constructor
      · intro none
        exact ⟨allowed, resolves, fun hint member =>
          failure?_eq_none_iff.mp (none hint member)⟩
      · intro accepted hint member
        exact failure?_eq_none_iff.mpr (accepted.met hint member)
    · rw [if_neg resolves]
      constructor
      · intro impossible
        cases impossible
      · intro accepted
        exact (resolves accepted.resolves).elim

/-- The reason that is found is the reason of the rejection. -/
theorem verdict_eq_some_iff
    {world : World} {unit : TypeName} {reason : RejectReason} :
    world.verdict unit = some reason ↔ world.Rejects unit reason := by
  constructor
  · intro found
    unfold verdict at found
    split at found
    · rename_i excluded
      cases found
      exact .excluded excluded
    · rename_i allowed
      rw [Bool.not_eq_true] at allowed
      split at found
      · rename_i resolves
        rcases List.findSome?_eq_some_iff.mp found with
          ⟨earlier, hint, later, collected, failed, met⟩
        rcases failure?_eq_some_iff.mp failed with
          ⟨condition, present, missing, rest, listed, resolved, absent, rfl⟩
        exact .missingReference allowed resolves collected
          (fun other member => failure?_eq_none_iff.mp (met other member))
          condition listed resolved absent
      · rename_i absent
        cases found
        exact .unresolvable allowed absent
  · intro rejected
    unfold verdict
    cases rejected with
    | excluded excluded => rw [if_pos excluded]
    | unresolvable allowed absent =>
        rw [allowed, if_neg Bool.false_ne_true, if_neg absent]
    | missingReference allowed resolves collected met condition listed present absent =>
        rw [allowed, if_neg Bool.false_ne_true, if_pos resolves]
        refine List.findSome?_eq_some_iff.mpr ⟨_, _, _, collected, ?_, ?_⟩
        · exact failure?_eq_some_iff.mpr
            ⟨condition, _, _, _, listed, present, absent, rfl⟩
        · intro other member
          exact failure?_eq_none_iff.mpr (met other member)

/-- A unit that is not accepted is rejected for some reason. -/
theorem not_accepts_iff
    {world : World} {unit : TypeName} :
    ¬ world.Accepts unit ↔ ∃ reason, world.verdict unit = some reason := by
  rw [← verdict_eq_none_iff]
  exact Option.ne_none_iff_exists'

end World

end TypeReach.Reach
