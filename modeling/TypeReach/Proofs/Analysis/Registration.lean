import TypeReach.Proofs.Analysis.Emission

/-!
# What a run registers and what it reports

A run registers what its decisions ask for and then the mandatory types that
resolve.  Artifacts keep one entry for each type and one for each resource, in
ascending order, and a report counts names and patterns without repetitions.  Into
artifacts that were empty before, both come to the same: what is left can be read
off the report, and the numbers in the report are the sizes of what is left.

A mandatory type that is corrupt ends a run.  So where a run succeeds, each
mandatory type is either resolved or missing, and the report lists both kinds in
the order of the configuration.
-/

namespace TypeReach

/-! ## Sizes of registries -/

namespace Reach.Registry

/-- A registry has one entry for each name that something is requested for. -/
theorem size_registerAll_empty (requests : List Request) :
    (empty.registerAll requests).size = (requests.map Prod.fst).eraseDups.length := by
  have names : ∀ name,
      name ∈ Keyed.keys (empty.registerAll requests).entries ↔
        name ∈ (requests.map Prod.fst).eraseDups := by
    intro name
    rw [mem_keys_registerAll_empty_iff, List.mem_eraseDups]
    simp
  have same := (List.perm_ext_iff_of_nodup (nodup_keys _) (nodup_eraseDups _)).mpr names
  simpa [size, Keyed.keys] using same.length_eq

end Reach.Registry

namespace Artifacts

/-! ## Texts that are added one after the other -/

/-- Add texts in their places in order. -/
def addTexts (added texts : List String) : List String :=
  added.foldl (fun texts text => addText text texts) texts

theorem mem_addTexts_iff
    {text : String} {added texts : List String} :
    text ∈ addTexts added texts ↔ text ∈ added ∨ text ∈ texts := by
  induction added generalizing texts with
  | nil => simp [addTexts]
  | cons first rest inductive_hypothesis =>
      change text ∈ addTexts rest (addText first texts) ↔ _
      rw [inductive_hypothesis, mem_addText_iff, List.mem_cons]
      exact or_left_comm.trans or_assoc.symm

theorem pairwise_addTexts
    {texts : List String}
    (ordered : texts.Pairwise (· < ·))
    (added : List String) :
    (addTexts added texts).Pairwise (· < ·) := by
  induction added generalizing texts with
  | nil => exact ordered
  | cons first rest inductive_hypothesis =>
      exact inductive_hypothesis (pairwise_addText ordered first)

theorem nodup_addTexts (added : List String) :
    (addTexts added []).Nodup := by
  apply (pairwise_addTexts List.Pairwise.nil added).imp
  intro left right before same
  exact String.lt_irrefl _ (same ▸ before)

/-- Texts that are in order already are added as they are. -/
theorem length_addTexts_addTexts (added : List String) :
    (addTexts (addTexts added []) []).length = (addTexts added []).length := by
  apply List.Perm.length_eq
  apply (List.perm_ext_iff_of_nodup (nodup_addTexts _) (nodup_addTexts _)).mpr
  intro text
  rw [mem_addTexts_iff]
  simp

end Artifacts

namespace Analysis

open Artifacts (addTexts)
open Files (Disk)
open Reach (Decision Registry Request)
open Resolution (Outcome Session Sources)

/-! ## What is collected -/

theorem types_collect
    (analysis : Analysis) (indexes : Index.IndexSet) (decisions : Decisions)
    (artifacts : Artifacts) :
    (analysis.collect indexes decisions artifacts).types =
      artifacts.types.registerAll decisions.registrations := by
  simp only [collect]
  refine (part_foldl ?_ _ _).trans ((part_foldl ?_ _ _).trans ?_)
  · intro collected file
    rfl
  · intro collected pattern
    rfl
  · exact (List.foldl_hom Artifacts.types fun _ _ => rfl).symm

theorem resources_collect
    (analysis : Analysis) (indexes : Index.IndexSet) (decisions : Decisions)
    (artifacts : Artifacts) :
    (analysis.collect indexes decisions artifacts).resources =
      addTexts (analysis.resources decisions) artifacts.resources := by
  simp only [collect]
  refine (part_foldl ?_ _ _).trans ((List.foldl_hom Artifacts.resources ?_).symm.trans
    (congrArg (addTexts (analysis.resources decisions)) (part_foldl ?_ _ _)))
  · intro collected file
    rfl
  · intro collected pattern
    rfl
  · intro collected entry
    rfl

/-! ## Mandatory types -/

/-- Which mandatory types are found and missing, and what that adds to artifacts. -/
structure Registers
    (load : TypeName → Outcome) (targets : List Request)
    (types after : MandatoryTypes) (artifacts left : Artifacts) :
    Prop where
  absent : ∀ target ∈ targets, (load target.1).decl? = none → load target.1 = .missing
  found : after.found =
    types.found ++ (targets.map Prod.fst).filter fun name => (load name).decl?.isSome
  missing : after.missing =
    types.missing ++ (targets.map Prod.fst).filter fun name => ! (load name).decl?.isSome
  registered : left.types = artifacts.types.registerAll
    (targets.filter fun target => (load target.1).decl?.isSome)
  resources : left.resources = artifacts.resources

theorem registers_of_registerLoaded
    {load : TypeName → Outcome} {targets : List Request}
    {types after : MandatoryTypes} {artifacts left : Artifacts}
    (registered : registerLoaded load targets types artifacts = (.ok after, left)) :
    Registers load targets types after artifacts left := by
  induction targets generalizing types artifacts with
  | nil =>
      cases registered
      constructor <;> simp
  | cons target rest inductive_hypothesis =>
      rw [registerLoaded] at registered
      cases loaded : load target.1 with
      | resolved decl =>
          simp only [loaded] at registered
          have following := inductive_hypothesis registered
          constructor
          · exact List.forall_mem_cons.mpr ⟨by simp [loaded, Outcome.decl?], following.absent⟩
          · simp [following.found, loaded, Outcome.decl?]
          · simp [following.missing, loaded, Outcome.decl?]
          · rw [following.registered, List.filter_cons_of_pos (by rw [loaded]; rfl)]
            rfl
          · exact following.resources
      | missing =>
          simp only [loaded] at registered
          have following := inductive_hypothesis registered
          constructor
          · exact List.forall_mem_cons.mpr ⟨by simp [loaded], following.absent⟩
          · simp [following.found, loaded, Outcome.decl?]
          · simp [following.missing, loaded, Outcome.decl?]
          · rw [following.registered, List.filter_cons_of_neg (by simp [loaded, Outcome.decl?])]
          · exact following.resources
      | corrupt reason =>
          simp only [loaded] at registered
          cases registered

/-! ## Runs -/

/-- What is asked for a type: by a decision, or because it is mandatory and resolves. -/
inductive Asks
    (sources : Sources) (report : Report) (targets : List Request)
    (name : TypeName) (asked : CapabilitySet) :
    Prop where
  | decided {decision : Decision}
      (member : decision ∈ report.decisions)
      (registered : decision.registrations.get? name = some asked)
  | mandatory
      (listed : (name, asked) ∈ targets)
      (resolves : (sources.lookup name).isSome = true)

/-- What is asked for is what is registered, one request after the other. -/
theorem mem_requests_iff_asks
    {sources : Sources} {report : Report} {targets : List Request} {decisions : Decisions}
    (same : report.decisions = decisions.all)
    {name : TypeName} {asked : CapabilitySet} :
    (name, asked) ∈ decisions.registrations ++
        targets.filter (fun target => (sources.lookup target.1).isSome) ↔
      Asks sources report targets name asked := by
  rw [List.mem_append, Decisions.registrations, List.mem_flatMap, List.mem_filter, ← same]
  constructor
  · rintro (⟨decision, member, listed⟩ | ⟨listed, resolves⟩)
    · exact .decided member (Registry.mem_entries_iff.mp listed)
    · exact .mandatory listed resolves
  · rintro (⟨member, registered⟩ | ⟨listed, resolves⟩)
    · exact Or.inl ⟨_, member, Registry.mem_entries_iff.mpr registered⟩
    · exact Or.inr ⟨listed, resolves⟩

theorem mem_componentResources_iff
    {decisions : Decisions} {pattern : String} :
    pattern ∈ decisions.componentResources ↔
      ∃ decision ∈ decisions.componentDecisions,
        decision.accepted = true ∧ pattern = decision.candidate.artifact := by
  simp only [Decisions.componentResources, List.mem_map, List.mem_filter, and_assoc]
  refine exists_congr fun decision => and_congr_right fun _ => and_congr_right fun _ => ?_
  exact eq_comm

/--
The report of a run that succeeds and what the run leaves in empty artifacts agree.
Each type has the union of what is asked for it and no other type is there; the
resources are the artifacts of the accepted components and those that the
configuration lists; the report counts both.  The mandatory types are divided, in
order, into those that resolve and those that are missing.
-/
theorem run_registered
    {analysis : Analysis} {disk : Disk} {progress after : Progress} {report : Report}
    (faithful : progress.session.IsFaithful (analysis.sources disk))
    (fresh : progress.artifacts = .empty)
    (ran : analysis.run disk progress = (.ok report, after)) :
    ∃ targets,
      analysis.config.mandatoryTargets = .ok targets ∧
      (∀ name capabilities,
        after.artifacts.types.get? name = some capabilities ↔
          (∃ asked, Asks (analysis.sources disk) report targets name asked) ∧
            ∀ capability, capabilities.contains capability = true ↔
              ∃ asked, Asks (analysis.sources disk) report targets name asked ∧
                asked.contains capability = true) ∧
      (∀ pattern,
        pattern ∈ after.artifacts.resources ↔
          (∃ decision ∈ report.components,
            decision.accepted = true ∧ pattern = decision.candidate.artifact) ∨
            pattern ∈ analysis.config.resources) ∧
      after.artifacts.resources.Nodup ∧
      report.registeredTypes = after.artifacts.types.size ∧
      report.resources = after.artifacts.resources.length ∧
      (targets.map Prod.fst).partition
          (fun name => ((analysis.sources disk).lookup name).isSome) =
        (report.mandatory, report.missingMandatory) ∧
      ∀ name ∈ report.missingMandatory, (analysis.sources disk).load name = .missing := by
  let sources := analysis.sources disk
  rcases exists_findings_of_run faithful ran with ⟨session, findings, succeeded, rfl, left⟩
  rcases exists_targets_of_conclusion succeeded with ⟨_, _, targets, read, registered⟩
  rw [← left, fresh] at registered
  have registers := registers_of_registerLoaded registered
  let requests := findings.decisions.registrations ++
    targets.filter fun target => (sources.lookup target.1).isSome
  have types : after.artifacts.types = Registry.empty.registerAll requests := by
    rw [registers.registered, types_collect, ← Registry.registerAll_append]
    rfl
  have resources : after.artifacts.resources =
      addTexts (analysis.resources findings.decisions) [] := by
    rw [registers.resources, resources_collect]
    rfl
  have asks : ∀ {name asked}, (name, asked) ∈ requests ↔
      Asks sources (Findings.report analysis session findings) targets name asked :=
    mem_requests_iff_asks rfl
  have names : requests.map Prod.fst =
      findings.decisions.registrations.map Prod.fst ++ findings.mandatory.found := by
    rw [List.map_append, registers.found, List.filter_map]
    rfl
  refine ⟨targets, read, ?_, ?_, ?_, ?_, ?_, ?_, ?_⟩
  · intro name capabilities
    rw [types, Registry.get?_registerAll, Registry.get?_empty, Option.merge_none_left,
      Reach.requested_eq_some_iff]
    simp only [asks]
    rfl
  · intro pattern
    have wanted : pattern ∈ analysis.resources findings.decisions ↔
        pattern ∈ findings.decisions.componentResources ++ analysis.config.resources ∨
          pattern ∈ [] :=
      Artifacts.mem_addTexts_iff
    rw [resources, Artifacts.mem_addTexts_iff, wanted, List.mem_append,
      mem_componentResources_iff]
    simp only [List.not_mem_nil, or_false]
    rfl
  · rw [resources]
    exact Artifacts.nodup_addTexts _
  · rw [types, Registry.size_registerAll_empty, names]
    rfl
  · rw [resources]
    exact (Artifacts.length_addTexts_addTexts _).symm
  · rw [List.partition_eq_filter_filter]
    exact Prod.ext registers.found.symm registers.missing.symm
  · intro name member
    have listed : name ∈ (targets.map Prod.fst).filter
        fun name => ! (sources.lookup name).isSome := by
      change name ∈ findings.mandatory.missing at member
      rw [registers.missing] at member
      exact member
    rcases List.mem_filter.mp listed with ⟨isTarget, unresolved⟩
    rcases List.mem_map.mp isTarget with ⟨target, targetMember, rfl⟩
    have undeclared : sources.lookup target.1 = none := by
      simpa using unresolved
    exact registers.absent target targetMember undeclared

/-- Two of the mandatory types are one type, which both index files list, and one is missing. -/
theorem run_registered_halfMissing :
    ∃ analysis report after targets,
      Analysis.prepare halfMissing
          { classpath := ["a.jar"], resources := ["b.txt", "A.class"],
            mandatory := [⟨"A", ["allPublicFields"]⟩, ⟨"B", []⟩, ⟨"A", []⟩] } = .ok analysis ∧
        Session.start.IsFaithful (analysis.sources halfMissing) ∧
        analysis.run halfMissing ⟨Session.start, .empty⟩ = (.ok report, after) ∧
        analysis.config.mandatoryTargets = .ok targets ∧
        after.artifacts.types.entries =
          [(⟨"A"⟩, CapabilitySet.component.insert .publicFields)] ∧
        after.artifacts.resources = ["A.class", "b.txt"] ∧
        (report.mandatory, report.missingMandatory) = ([⟨"A"⟩, ⟨"A"⟩], [⟨"B"⟩]) ∧
        report.registeredTypes = after.artifacts.types.size ∧
        report.resources = after.artifacts.resources.length ∧
        ∃ asked, Asks (analysis.sources halfMissing) report targets ⟨"A"⟩ asked := by
  rcases exists_prepared halfMissing
      { classpath := ["a.jar"], resources := ["b.txt", "A.class"],
        mandatory := [⟨"A", ["allPublicFields"]⟩, ⟨"B", []⟩, ⟨"A", []⟩] }
      (fun analysis =>
        let ran := analysis.run halfMissing ⟨Session.start, .empty⟩
        (ran.2.artifacts.types.entries, ran.2.artifacts.resources,
            ran.1.toOption.map fun report => (report.mandatory, report.missingMandatory)) =
          ([(⟨"A"⟩, CapabilitySet.component.insert .publicFields)], ["A.class", "b.txt"],
            some ([⟨"A"⟩, ⟨"A"⟩], [⟨"B"⟩])))
      (by decide +kernel) with
    ⟨analysis, prepared, computed⟩
  rcases ran : analysis.run halfMissing ⟨Session.start, .empty⟩ with ⟨result, after⟩
  simp only [ran, Prod.mk.injEq] at computed
  rcases computed with ⟨entries, resources, mandatory⟩
  cases result with
  | error failure => cases mandatory
  | ok report =>
      have faithful := Session.isFaithful_start (analysis.sources halfMissing)
      rcases run_registered faithful rfl ran with
        ⟨targets, read, types, _, _, registeredCount, resourceCount, _, _⟩
      have registered : after.artifacts.types.get? ⟨"A"⟩ =
          some (CapabilitySet.component.insert .publicFields) := by
        rw [Registry.get?, entries]
        rfl
      exact ⟨analysis, report, after, targets, prepared, faithful, ran, read, entries, resources,
        Option.some.inj mandatory, registeredCount, resourceCount,
        ((types _ _).mp registered).1⟩

end Analysis

end TypeReach
