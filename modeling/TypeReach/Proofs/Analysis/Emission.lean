import TypeReach.Proofs.Analysis.Conclusion
import TypeReach.Proofs.Index.Filtering
import TypeReach.Proofs.Reach.Decision
import TypeReach.Proofs.Reach.Locality

/-!
# Index files that are emitted again

An index file is emitted without what was rejected, and the rejected types of
both kinds of candidates are taken out of both files.  That drops nothing that
was accepted: whether a type is accepted depends on the exclusions, on its own
declaration and on its conditions, and the capabilities that its kind asks for
are not among these.  So a type that is a candidate in both files gets the same
verdict twice, and what is left of each file are its accepted candidates, in
their order.
-/

namespace TypeReach

/-! ## Verdicts -/

namespace Analysis

open Files (Disk)
open Reach (Decision World)
open Resolution (Session Sources)

/-- What candidates of a kind are judged by. -/
def world
    (analysis : Analysis) (sources : Sources) (capabilities : CapabilitySet) :
    World :=
  ⟨sources.lookup, analysis.rules sources.depthBound capabilities⟩

/-- The capabilities that a kind of candidates asks for have no part in a verdict. -/
theorem accepts_of_accepts
    {analysis : Analysis} {sources : Sources}
    {first : CapabilitySet} (second : CapabilitySet)
    {name : TypeName}
    (accepts : (analysis.world sources first).Accepts name) :
    (analysis.world sources second).Accepts name where
  allowed := accepts.allowed
  resolves := accepts.resolves
  met := accepts.met

/-- The decision about one candidate. -/
def decisionOn
    (analysis : Analysis) (sources : Sources) (capabilities : CapabilitySet)
    (candidate : TypeName) :
    Decision :=
  (Reach.evaluateRoot (analysis.rules sources.depthBound capabilities)
    sources.depthBound candidate).answer sources.lookup

theorem candidate_decisionOn
    (analysis : Analysis) (sources : Sources) (capabilities : CapabilitySet)
    (candidate : TypeName) :
    (analysis.decisionOn sources capabilities candidate).candidate = candidate := by
  simp [decisionOn, Reach.evaluateRoot, Decision.ofEvaluation]

theorem accepted_decisionOn_iff
    (analysis : Analysis) (sources : Sources) (capabilities : CapabilitySet)
    (candidate : TypeName) :
    (analysis.decisionOn sources capabilities candidate).accepted = true ↔
      (analysis.world sources capabilities).Accepts candidate := by
  have sufficient : Resolution.Suffices sources.depthBound
      (analysis.world sources capabilities).lookup :=
    sources.suffices_depthBound
  rcases World.exists_traversal_evaluateRoot sufficient candidate with
    ⟨accepted, _, after, _, decided, acceptance, _⟩
  rw [← acceptance]
  have decision : analysis.decisionOn sources capabilities candidate =
      .ofEvaluation candidate accepted after := decided
  rw [decision]
  rfl

/-- Both kinds of candidates get the same verdicts. -/
theorem accepted_decisionOn_eq
    (analysis : Analysis) (sources : Sources) (first second : CapabilitySet)
    (candidate : TypeName) :
    (analysis.decisionOn sources first candidate).accepted =
      (analysis.decisionOn sources second candidate).accepted := by
  rw [Bool.eq_iff_iff, accepted_decisionOn_iff, accepted_decisionOn_iff]
  exact ⟨accepts_of_accepts second, accepts_of_accepts first⟩

theorem answer_evaluateAll
    (rules : Reach.Rules) (bound : Nat) (lookup : TypeName → Option TypeDecl)
    (candidates : List TypeName) :
    (Reach.evaluateAll rules bound candidates).answer lookup =
      candidates.map fun candidate =>
        (Reach.evaluateRoot rules bound candidate).answer lookup := by
  induction candidates with
  | nil => rfl
  | cons candidate rest inductive_hypothesis =>
      simp [Reach.evaluateAll, inductive_hypothesis]

/-- The components of a run: those in the index files, or else those found by a scan. -/
def componentsFound
    (analysis : Analysis) (sources : Sources) (work : Groundwork) :
    Option Index.Components :=
  (analysis.components sources.depthBound work.indexes work.scanned).answer sources.lookup

/-- The component candidates of a run. -/
def componentCandidates
    (analysis : Analysis) (sources : Sources) (work : Groundwork) :
    List TypeName :=
  ((analysis.componentsFound sources work).map Index.Components.types).getD []

theorem answer_inquiry
    (analysis : Analysis) (sources : Sources) (work : Groundwork) :
    (analysis.inquiry sources work).answer sources.lookup =
      ⟨analysis.componentsFound sources work,
        (analysis.candidates work.indexes).map
          (analysis.decisionOn sources .configuration),
        (analysis.componentCandidates sources work).map
          (analysis.decisionOn sources .component)⟩ := by
  simp only [inquiry, decisions, Query.answer_bind, Query.answer_pure, answer_evaluateAll]
  rfl

/-- The rejected types are the candidates of either kind that are not accepted. -/
theorem mem_rejected_iff
    (analysis : Analysis) (sources : Sources) (work : Groundwork) {name : TypeName} :
    name ∈ ((analysis.inquiry sources work).answer sources.lookup).rejected ↔
      (name ∈ analysis.candidates work.indexes ∨
          name ∈ analysis.componentCandidates sources work) ∧
        (analysis.decisionOn sources .configuration name).accepted = false := by
  rw [answer_inquiry, Decisions.rejected, Decisions.all]
  simp only [List.filter_append, List.map_append, List.mem_append, List.mem_map,
    List.mem_filter, Bool.not_eq_true']
  constructor
  · rintro (⟨decision, ⟨⟨candidate, member, rfl⟩, refused⟩, rfl⟩ |
      ⟨decision, ⟨⟨candidate, member, rfl⟩, refused⟩, rfl⟩)
    · rw [candidate_decisionOn]
      exact ⟨Or.inl member, refused⟩
    · rw [candidate_decisionOn,
        analysis.accepted_decisionOn_eq sources .configuration .component]
      exact ⟨Or.inr member, refused⟩
  · rintro ⟨member | member, refused⟩
    · exact Or.inl ⟨_, ⟨⟨name, member, rfl⟩, refused⟩, candidate_decisionOn ..⟩
    · rw [analysis.accepted_decisionOn_eq sources .configuration .component] at refused
      exact Or.inr ⟨_, ⟨⟨name, member, rfl⟩, refused⟩, candidate_decisionOn ..⟩

/-- Of what was decided about, exactly what was not rejected was accepted. -/
theorem not_contains_rejected
    (analysis : Analysis) (sources : Sources) (work : Groundwork) {name : TypeName}
    (candidate :
      name ∈ analysis.candidates work.indexes ∨
        name ∈ analysis.componentCandidates sources work) :
    (! (((analysis.inquiry sources work).answer sources.lookup).rejected.contains name)) =
      (analysis.decisionOn sources .configuration name).accepted := by
  have rejected := @mem_rejected_iff analysis sources work name
  cases verdict : (analysis.decisionOn sources .configuration name).accepted with
  | false =>
      have gone := rejected.mpr ⟨candidate, verdict⟩
      simpa using gone
  | true =>
      have kept : name ∉ ((analysis.inquiry sources work).answer sources.lookup).rejected := by
        intro gone
        rw [verdict] at rejected
        exact Bool.noConfusion (rejected.mp gone).2
      simpa using kept

/-- Whether candidates were decided about and a name among them was accepted. -/
def isAcceptedIn
    (decisions : List Decision) (name : TypeName) :
    Bool :=
  decisions.any fun decision => decide (decision.candidate = name) && decision.accepted

theorem isAcceptedIn_map
    (analysis : Analysis) (sources : Sources) (capabilities : CapabilitySet)
    {names : List TypeName} {name : TypeName}
    (member : name ∈ names) :
    isAcceptedIn (names.map (analysis.decisionOn sources capabilities)) name =
      (analysis.decisionOn sources capabilities name).accepted := by
  rw [Bool.eq_iff_iff, isAcceptedIn, List.any_map, List.any_eq_true]
  simp only [Function.comp_apply, candidate_decisionOn, Bool.and_eq_true, decide_eq_true_eq]
  constructor
  · rintro ⟨other, _, rfl, accepted⟩
    exact accepted
  · intro accepted
    exact ⟨name, member, rfl, accepted⟩

theorem map_candidate_decisionOn
    (analysis : Analysis) (sources : Sources) (capabilities : CapabilitySet)
    (names : List TypeName) :
    (names.map (analysis.decisionOn sources capabilities)).map Decision.candidate = names := by
  simp [Function.comp_def, candidate_decisionOn]

theorem map_candidate_filter_accepted
    (analysis : Analysis) (sources : Sources) (capabilities : CapabilitySet)
    (names : List TypeName) :
    ((names.map (analysis.decisionOn sources capabilities)).filter
        Decision.accepted).map Decision.candidate =
      names.filter fun name => (analysis.decisionOn sources capabilities name).accepted := by
  rw [List.filter_map, map_candidate_decisionOn]
  rfl

/-! ## Emitted files -/

theorem get?_emitIndex_self
    (artifacts : Artifacts) (path content : String) :
    Keyed.get? path (artifacts.emitIndex path content).indexes = some content := by
  simp only [Artifacts.emitIndex]
  induction artifacts.indexes with
  | nil => simp [Keyed.alterInOrder, Keyed.get?]
  | cons entry rest inductive_hypothesis =>
      simp only [Keyed.alterInOrder]
      split_ifs with same before
      · simp [Keyed.get?, same]
      · simp [Keyed.get?]
      · simpa [Keyed.get?, same] using inductive_hypothesis

theorem get?_emitIndex_of_ne
    (artifacts : Artifacts) {path other : String} (content : String)
    (different : other ≠ path) :
    Keyed.get? other (artifacts.emitIndex path content).indexes =
      Keyed.get? other artifacts.indexes :=
  Keyed.get?_alterInOrder_of_ne different _ _ _

/-- Steps that leave a part of the artifacts alone leave it alone together. -/
theorem part_foldl
    {α β : Type} {part : Artifacts → β} {step : Artifacts → α → Artifacts}
    (keeps : ∀ artifacts value, part (step artifacts value) = part artifacts)
    (values : List α) (artifacts : Artifacts) :
    part (values.foldl step artifacts) = part artifacts := by
  induction values generalizing artifacts with
  | nil => rfl
  | cons value rest inductive_hypothesis =>
      rw [List.foldl_cons, inductive_hypothesis, keeps]

theorem indexes_registerLoaded
    (load : TypeName → Resolution.Outcome)
    (targets : List (TypeName × CapabilitySet)) (types : MandatoryTypes)
    (artifacts : Artifacts) :
    (registerLoaded load targets types artifacts).2.indexes = artifacts.indexes := by
  induction targets generalizing types artifacts with
  | nil => rfl
  | cons target rest inductive_hypothesis =>
      rw [registerLoaded]
      cases load target.1 with
      | resolved decl => exact inductive_hypothesis _ _
      | missing => exact inductive_hypothesis _ _
      | corrupt reason => rfl

/-- What is under a path of an index file after the files of a run were emitted. -/
theorem get?_indexes_collect
    (analysis : Analysis) (indexes : Index.IndexSet) (decisions : Decisions)
    (artifacts : Artifacts) :
    Keyed.get? Index.factoriesPath
        (analysis.collect indexes decisions artifacts).indexes =
      (if indexes.factories.isEmpty then Keyed.get? Index.factoriesPath artifacts.indexes
        else some (indexes.factories.filtered analysis.config.factoryKeys
          decisions.rejected).render) ∧
    Keyed.get? Index.componentsPath
        (analysis.collect indexes decisions artifacts).indexes =
      match decisions.components with
      | none => Keyed.get? Index.componentsPath artifacts.indexes
      | some index => some (index.filtered decisions.rejected).render := by
  have different : Index.factoriesPath ≠ Index.componentsPath := by
    decide
  simp only [collect]
  let before := (analysis.resources decisions).foldl Artifacts.registerResource
    (decisions.registrations.foldl
      (fun artifacts entry => artifacts.registerType entry.1 entry.2) artifacts)
  have kept : before.indexes = artifacts.indexes := by
    refine (part_foldl ?_ _ _).trans (part_foldl ?_ _ _)
    · intro collected pattern
      rfl
    · intro collected entry
      rfl
  rw [← kept]
  change Keyed.get? _ (List.foldl _ before _).indexes = _ ∧
    Keyed.get? _ (List.foldl _ before _).indexes = _
  cases empty : indexes.factories.isEmpty <;> cases found : decisions.components <;>
    simp [factoriesFile, componentsFile, empty, found, get?_emitIndex_self,
      get?_emitIndex_of_ne, different, different.symm]

theorem exists_of_conclusion_eq_ok
    {analysis : Analysis} {disk : Disk} {artifacts : Artifacts} {findings : Findings}
    (succeeded : (analysis.conclusion disk artifacts).1 = .ok findings) :
    analysis.groundwork disk = .ok findings.work ∧
      findings.decisions =
        (analysis.inquiry (analysis.sources disk) findings.work).answer
          (analysis.sources disk).lookup ∧
      (analysis.conclusion disk artifacts).2.indexes =
        (analysis.collect findings.work.indexes findings.decisions artifacts).indexes := by
  rcases exists_targets_of_conclusion succeeded with
    ⟨groundwork, decided, targets, _, registered⟩
  have kept := indexes_registerLoaded (analysis.sources disk).load targets ⟨[], []⟩
    (analysis.collect findings.work.indexes findings.decisions artifacts)
  rw [registered] at kept
  exact ⟨groundwork, decided, kept⟩

/--
The index files that a run emits hold what was accepted and nothing else.  No
configuration is decided about twice; the candidates of the emitted factories
file are the accepted ones of the merged file, in order, and other keys keep
their values; the types of the emitted components file are the accepted
components, in order.  A type of both kinds is accepted twice or not at all.
-/
theorem emitted_indexes
    {analysis : Analysis} {disk : Disk} {progress after : Progress} {report : Report}
    (faithful : progress.session.IsFaithful (analysis.sources disk))
    (ran : analysis.run disk progress = (.ok report, after)) :
    ∃ work,
      analysis.groundwork disk = .ok work ∧
      report.configurations.map Decision.candidate = analysis.candidates work.indexes ∧
      (report.configurations.map Decision.candidate).Nodup ∧
      report.components.map Decision.candidate =
        analysis.componentCandidates (analysis.sources disk) work ∧
      (if work.indexes.factories.isEmpty then
        Keyed.get? Index.factoriesPath after.artifacts.indexes =
          Keyed.get? Index.factoriesPath progress.artifacts.indexes
      else
        ∃ emitted : Index.Factories,
          Keyed.get? Index.factoriesPath after.artifacts.indexes = some emitted.render ∧
          emitted.candidates analysis.config.factoryKeys =
            (work.indexes.factories.candidates analysis.config.factoryKeys).filter
              (isAcceptedIn report.configurations) ∧
          Keyed.keys emitted.entries = Keyed.keys work.indexes.factories.entries ∧
          ∀ key ∉ analysis.config.factoryKeys,
            emitted.values key = work.indexes.factories.values key) ∧
      (match analysis.componentsFound (analysis.sources disk) work with
      | none =>
          Keyed.get? Index.componentsPath after.artifacts.indexes =
            Keyed.get? Index.componentsPath progress.artifacts.indexes
      | some _ =>
          ∃ emitted : Index.Components,
            Keyed.get? Index.componentsPath after.artifacts.indexes =
              some emitted.render ∧
            emitted.types = (report.components.filter Decision.accepted).map
              Decision.candidate) ∧
      ∀ configuration ∈ report.configurations, ∀ component ∈ report.components,
        configuration.candidate = component.candidate →
          configuration.accepted = component.accepted := by
  let sources := analysis.sources disk
  rcases run_eq_conclusion faithful with ⟨session, _, concluded⟩
  rw [concluded] at ran
  rcases Prod.mk.inj ran with ⟨reported, left⟩
  cases succeeded : (analysis.conclusion disk progress.artifacts).1 with
  | error failure =>
      rw [succeeded] at reported
      cases reported
  | ok findings =>
      rcases exists_of_conclusion_eq_ok succeeded with ⟨groundwork, decided, emitted⟩
      rw [succeeded] at reported
      have result : Findings.report analysis session findings = report :=
        Except.ok.inj reported
      have configurations : report.configurations =
          (analysis.candidates findings.work.indexes).map
            (analysis.decisionOn sources .configuration) := by
        rw [← result]
        change findings.decisions.configurations = _
        rw [decided, answer_inquiry]
      have components : report.components =
          (analysis.componentCandidates sources findings.work).map
            (analysis.decisionOn sources .component) := by
        rw [← result]
        change findings.decisions.componentDecisions = _
        rw [decided, answer_inquiry]
      have indexes : after.artifacts.indexes =
          (analysis.collect findings.work.indexes findings.decisions
            progress.artifacts).indexes := by
        rw [← left]
        exact emitted
      have files := get?_indexes_collect analysis findings.work.indexes findings.decisions
        progress.artifacts
      refine ⟨findings.work, groundwork, ?_, ?_, ?_, ?_, ?_, ?_⟩
      · rw [configurations, map_candidate_decisionOn]
      · rw [configurations, map_candidate_decisionOn]
        exact nodup_eraseDups _
      · rw [components, map_candidate_decisionOn]
      · rw [indexes, files.1]
        split_ifs
        · rfl
        · refine ⟨_, rfl, ?_, Index.Factories.keys_filtered .., ?_⟩
          · rw [Index.Factories.candidates_filtered]
            apply List.filter_congr
            intro name listed
            have evaluated : name ∈ analysis.candidates findings.work.indexes :=
              List.mem_eraseDups.mpr (List.mem_append_left _ listed)
            rw [decided, not_contains_rejected analysis sources _ (Or.inl evaluated),
              configurations, isAcceptedIn_map _ _ _ evaluated]
          · intro key spared
            exact Index.Factories.values_filtered_of_not_mem _ _ spared
      · rw [indexes, files.2]
        have found : findings.decisions.components =
            analysis.componentsFound sources findings.work := by
          rw [decided, answer_inquiry]
        rw [found]
        change match analysis.componentsFound sources findings.work with
          | none => _
          | some _ => _
        cases components? : analysis.componentsFound sources findings.work with
        | none => rfl
        | some index =>
            have types : analysis.componentCandidates sources findings.work = index.types := by
              rw [componentCandidates, components?]
              rfl
            refine ⟨_, rfl, ?_⟩
            rw [Index.Components.types_filtered, components, types,
              map_candidate_filter_accepted]
            apply List.filter_congr
            intro name listed
            rw [decided, not_contains_rejected analysis sources _ (Or.inr (types ▸ listed))]
            exact accepted_decisionOn_eq ..
      · intro configuration configurationMember component componentMember same
        rw [configurations] at configurationMember
        rw [components] at componentMember
        rcases List.mem_map.mp configurationMember with ⟨name, _, rfl⟩
        rcases List.mem_map.mp componentMember with ⟨other, _, rfl⟩
        rw [candidate_decisionOn, candidate_decisionOn] at same
        rw [same]
        exact accepted_decisionOn_eq ..

/-- Both index files list a type that is there and one that is not. -/
def halfMissing : Disk :=
  ⟨[], [(["a.jar"], .archive ⟨[
    ⟨"A.class", ClassFile.Outline.encode { name := "A" }, .stored⟩,
    ⟨"META-INF/spring.factories",
      Text.Utf8.encode (Index.autoConfigurationKey ++ "=A,B\nother=B\n").toList, .stored⟩,
    ⟨"META-INF/spring.components", Text.Utf8.encode "B=x\nA=x\n".toList, .stored⟩], by decide⟩)]⟩

theorem emitted_indexes_halfMissing :
    ∃ analysis report after,
      Analysis.prepare halfMissing { classpath := ["a.jar"] } = .ok analysis ∧
        Session.start.IsFaithful (analysis.sources halfMissing) ∧
        analysis.run halfMissing ⟨Session.start, .empty⟩ = (.ok report, after) ∧
        report.configurations.map (fun decision => (decision.candidate, decision.accepted)) =
          [(⟨"A"⟩, true), (⟨"B"⟩, false)] ∧
        (report.configurations.map Decision.candidate).Nodup := by
  rcases exists_prepared halfMissing { classpath := ["a.jar"] }
      (fun analysis =>
        (analysis.run halfMissing ⟨Session.start, .empty⟩).1.toOption.map
            (fun report => report.configurations.map
              fun decision => (decision.candidate, decision.accepted)) =
          some [(⟨"A"⟩, true), (⟨"B"⟩, false)])
      (by decide +kernel) with
    ⟨analysis, prepared, computed⟩
  rcases ran : analysis.run halfMissing ⟨Session.start, .empty⟩ with ⟨result, after⟩
  rw [ran] at computed
  cases result with
  | error failure => cases computed
  | ok report =>
      have faithful := Session.isFaithful_start (analysis.sources halfMissing)
      rcases emitted_indexes faithful ran with ⟨_, _, _, distinct, _⟩
      exact ⟨analysis, report, after, prepared, faithful, ran, Option.some.inj computed,
        distinct⟩

end Analysis

end TypeReach
