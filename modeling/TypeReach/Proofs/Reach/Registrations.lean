import Mathlib.Tactic.ByContra
import TypeReach.Reach.Registry

/-!
# Registering many types

A registry that takes a list of requests gives each name the union of all that
was asked for it.  Unions know no order and no repetition, so neither does the
registry: requests may come in any order, and what a registry holds can be read
off the set of requests alone.
-/

namespace TypeReach.Reach

/-- A type with the capabilities that are asked for it. -/
abbrev Request := TypeName × CapabilitySet

/-- The union of what some requests ask for a name; none when they do not ask for it. -/
def requested (name : TypeName) : List Request → Option CapabilitySet
  | [] => none
  | request :: rest =>
      (if name = request.1 then some request.2 else none).merge
        CapabilitySet.union (requested name rest)

theorem requested_append
    (name : TypeName) (first second : List Request) :
    requested name (first ++ second) =
      (requested name first).merge CapabilitySet.union
        (requested name second) := by
  induction first with
  | nil => rw [List.nil_append, requested, Option.merge_none_left]
  | cons request rest inductive_hypothesis =>
      rw [List.cons_append, requested, requested, inductive_hypothesis]
      exact (Std.Associative.assoc _ _ _).symm

/-- Exactly the names with a request have capabilities. -/
theorem requested_isSome_iff
    {name : TypeName} {requests : List Request} :
    (requested name requests).isSome = true ↔
      ∃ capabilities, (name, capabilities) ∈ requests := by
  induction requests with
  | nil => simp [requested]
  | cons request rest inductive_hypothesis =>
      rw [requested, Option.isSome_merge, Bool.or_eq_true, inductive_hypothesis]
      constructor
      · rintro (here | ⟨capabilities, later⟩)
        · have same : name = request.1 := by
            by_contra different
            rw [if_neg different] at here
            exact Bool.noConfusion here
          exact ⟨request.2, by rw [same]; exact List.mem_cons_self⟩
        · exact ⟨capabilities, List.mem_cons_of_mem _ later⟩
      · rintro ⟨capabilities, member⟩
        rcases List.mem_cons.mp member with here | later
        · left
          rw [← here, if_pos rfl]
          rfl
        · exact Or.inr ⟨capabilities, later⟩

/-- A capability is granted exactly if some request for the name has it. -/
theorem requested_any_iff
    {name : TypeName} {requests : List Request} {capability : Capability} :
    (requested name requests).any (·.contains capability) = true ↔
      ∃ capabilities, (name, capabilities) ∈ requests ∧
        capabilities.contains capability = true := by
  induction requests with
  | nil => simp [requested]
  | cons request rest inductive_hypothesis =>
      rw [requested,
        Option.any_merge (fun left right =>
          CapabilitySet.contains_union left right capability),
        Bool.or_eq_true, inductive_hypothesis]
      constructor
      · rintro (here | ⟨capabilities, later, granted⟩)
        · by_cases same : name = request.1
          · rw [if_pos same] at here
            exact ⟨request.2, by rw [same]; exact List.mem_cons_self, here⟩
          · rw [if_neg same] at here
            exact Bool.noConfusion here
        · exact ⟨capabilities, List.mem_cons_of_mem _ later, granted⟩
      · rintro ⟨capabilities, member, granted⟩
        rcases List.mem_cons.mp member with here | later
        · left
          rw [← here, if_pos rfl]
          exact granted
        · exact Or.inr ⟨capabilities, later, granted⟩

/-- What is requested is determined by the requests for the name and nothing else. -/
theorem requested_eq_some_iff
    {name : TypeName} {requests : List Request} {capabilities : CapabilitySet} :
    requested name requests = some capabilities ↔
      (∃ asked, (name, asked) ∈ requests) ∧
        ∀ capability, capabilities.contains capability = true ↔
          ∃ asked, (name, asked) ∈ requests ∧ asked.contains capability = true := by
  constructor
  · intro found
    refine ⟨requested_isSome_iff.mp (by rw [found]; rfl), ?_⟩
    intro capability
    have granted := @requested_any_iff name requests capability
    rw [found] at granted
    exact granted
  · rintro ⟨asked, granted⟩
    rcases Option.isSome_iff_exists.mp (requested_isSome_iff.mpr asked) with
      ⟨union, found⟩
    rw [found]
    apply congrArg some
    apply CapabilitySet.ext_contains
    intro capability
    have exactly := @requested_any_iff name requests capability
    rw [found] at exactly
    exact Bool.eq_iff_iff.mpr (exactly.trans (granted capability).symm)

/-- Neither the order nor the repetition of requests makes a difference. -/
theorem requested_congr
    {name : TypeName} {first second : List Request}
    (same : ∀ capabilities,
      (name, capabilities) ∈ first ↔ (name, capabilities) ∈ second) :
    requested name first = requested name second := by
  apply Option.ext
  intro capabilities
  rw [requested_eq_some_iff, requested_eq_some_iff]
  simp only [same]

namespace Registry

theorem nodup_keys (registry : Registry) :
    (Keyed.keys registry.entries).Nodup := by
  refine List.pairwise_map.mpr (registry.ordered.imp ?_)
  intro left right before same
  rw [same, isOrder_isBefore.irrefl] at before
  cases before

theorem pairwise_slashed (registry : Registry) :
    (Keyed.keys registry.entries).Pairwise fun left right => left.slashed < right.slashed := by
  refine List.pairwise_map.mpr (registry.ordered.imp ?_)
  intro left right before
  exact of_decide_eq_true before

theorem mem_entries_iff
    {registry : Registry} {name : TypeName} {capabilities : CapabilitySet} :
    (name, capabilities) ∈ registry.entries ↔ registry.get? name = some capabilities :=
  ⟨Keyed.get?_of_mem registry.nodup_keys, Keyed.mem_of_get?⟩

/-- Add all requests of a list. -/
def registerAll (registry : Registry) (requests : List Request) : Registry :=
  requests.foldl (fun registry request => registry.register request.1 request.2) registry

@[simp]
theorem registerAll_nil (registry : Registry) :
    registry.registerAll [] = registry :=
  rfl

theorem registerAll_cons
    (registry : Registry) (request : Request) (rest : List Request) :
    registry.registerAll (request :: rest) =
      (registry.register request.1 request.2).registerAll rest :=
  rfl

theorem registerAll_append
    (registry : Registry) (first second : List Request) :
    registry.registerAll (first ++ second) =
      (registry.registerAll first).registerAll second :=
  List.foldl_append

/-- A name has what it had before together with what is requested for it. -/
theorem get?_registerAll
    (registry : Registry) (requests : List Request) (name : TypeName) :
    (registry.registerAll requests).get? name =
      (registry.get? name).merge CapabilitySet.union (requested name requests) := by
  induction requests generalizing registry with
  | nil => rw [registerAll_nil, requested, Option.merge_none_right]
  | cons request rest inductive_hypothesis =>
      rw [registerAll_cons, inductive_hypothesis, get?_register, requested]
      exact Std.Associative.assoc _ _ _

theorem get?_registerAll_empty
    (requests : List Request) (name : TypeName) :
    (empty.registerAll requests).get? name = requested name requests := by
  rw [get?_registerAll, get?_empty, Option.merge_none_left]

theorem mem_keys_registerAll_empty_iff
    {requests : List Request} {name : TypeName} :
    name ∈ Keyed.keys (empty.registerAll requests).entries ↔
      ∃ capabilities, (name, capabilities) ∈ requests := by
  rw [← Keyed.get?_isSome_iff, ← requested_isSome_iff, ← get?_registerAll_empty]
  rfl

/-- A name has at least some capabilities. -/
def Grants (registry : Registry) (name : TypeName) (capabilities : CapabilitySet) : Prop :=
  ∃ granted, registry.get? name = some granted ∧
    ∀ capability, capabilities.contains capability = true →
      granted.contains capability = true

/-- Registering takes nothing away. -/
theorem grants_registerAll_of_get?
    {registry : Registry} {name : TypeName} {old : CapabilitySet}
    (found : registry.get? name = some old) (requests : List Request) :
    (registry.registerAll requests).Grants name old := by
  rw [Grants, get?_registerAll, found]
  cases requested name requests with
  | none => exact ⟨old, rfl, fun _ granted => granted⟩
  | some more =>
      refine ⟨old.union more, rfl, ?_⟩
      intro capability granted
      rw [CapabilitySet.contains_union, granted, Bool.true_or]

/-- Whatever is requested is granted. -/
theorem grants_registerAll_of_mem
    (registry : Registry) {requests : List Request}
    {name : TypeName} {asked : CapabilitySet}
    (member : (name, asked) ∈ requests) :
    (registry.registerAll requests).Grants name asked := by
  rcases Option.isSome_iff_exists.mp (requested_isSome_iff.mpr ⟨asked, member⟩) with
    ⟨union, found⟩
  have covered : ∀ capability, asked.contains capability = true →
      union.contains capability = true := by
    intro capability granted
    exact ((requested_eq_some_iff.mp found).2 capability).mpr ⟨asked, member, granted⟩
  rw [Grants, get?_registerAll, found]
  cases registry.get? name with
  | none => exact ⟨union, rfl, covered⟩
  | some old =>
      refine ⟨old.union union, rfl, ?_⟩
      intro capability granted
      rw [CapabilitySet.contains_union, covered capability granted, Bool.or_true]

/-- The order of requests makes no difference. -/
theorem registerAll_perm
    (registry : Registry) {first second : List Request}
    (permutation : first.Perm second) :
    registry.registerAll first = registry.registerAll second := by
  apply permutation.foldl_eq'
  intro left _ right _ before
  apply ext_get?
  intro name
  simp only [get?_register]
  have assoc := (Option.associative_merge CapabilitySet.union).assoc
  rw [assoc, assoc]
  apply congrArg (Option.merge CapabilitySet.union (before.get? name))
  exact Std.Commutative.comm _ _

end Registry

end TypeReach.Reach
