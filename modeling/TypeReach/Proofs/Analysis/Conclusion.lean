import TypeReach.Analysis.Run
import TypeReach.Proofs.Resolution.Transparency

/-!
# What a run comes to

A run threads a session and artifacts through its parts, and any part may fail.
Its conclusion says the same without either: the groundwork is read from the
disk, the decisions are answered by fresh look-ups, and the mandatory types are
registered by what fresh look-ups give.  A run in a session that is faithful
has this conclusion, and leaves a session that is faithful again.  What the run
counts, reads and outcomes in the cache, is the only part of its report that
depends on the session.
-/

namespace TypeReach.Analysis

open Files (Disk)
open Resolution (Outcome Session Sources)

/-- What is known before a type is looked up: the index files and the types to scan. -/
structure Groundwork where
  indexes : Index.IndexSet
  scanned : List TypeName

def groundwork
    (analysis : Analysis) (disk : Disk) :
    Except Failure Groundwork := do
  let indexes ← analysis.indexes disk
  let scanned ← analysis.scanned disk indexes
  return ⟨indexes, scanned⟩

/-- The query for all decisions. -/
def inquiry
    (analysis : Analysis) (sources : Sources) (work : Groundwork) :
    Query Decisions :=
  analysis.decisions sources.depthBound work.indexes work.scanned

/-! ## Mandatory types -/

/-- Register mandatory types by what looking them up gives. -/
def registerLoaded
    (load : TypeName → Outcome) :
    List (TypeName × CapabilitySet) → MandatoryTypes → Artifacts →
      Except Failure MandatoryTypes × Artifacts
  | [], types, artifacts => (.ok types, artifacts)
  | target :: rest, types, artifacts =>
      match load target.1 with
      | .resolved _ =>
          registerLoaded load rest { types with found := types.found ++ [target.1] }
            (artifacts.registerType target.1 target.2)
      | .missing =>
          registerLoaded load rest { types with missing := types.missing ++ [target.1] }
            artifacts
      | .corrupt reason =>
          (.error ⟨["mandatory type " ++ target.1.dotted ++ " is unusable"],
            .corrupt target.1.dotted reason⟩, artifacts)

/-- The mandatory types that are looked up: all of them, or those up to a corrupt one. -/
def loadedTargets
    (load : TypeName → Outcome) :
    List (TypeName × CapabilitySet) → List TypeName
  | [] => []
  | target :: rest =>
      match load target.1 with
      | .corrupt _ => [target.1]
      | _ => target.1 :: loadedTargets load rest

theorem run_bind
    {α β : Type} (part : RunM α) (following : α → RunM β) (progress : Progress) :
    (part >>= following) progress =
      match part progress with
      | (.ok value, after) => following value after
      | (.error failure, after) => (.error failure, after) := by
  simp only [bind, ExceptT.bind, ExceptT.mk, ExceptT.bindCont, StateT.bind]
  rcases part progress with ⟨result, after⟩
  cases result <;> rfl

theorem run_lookingUp
    {α : Type} (action : StateM Session α) (progress : Progress) :
    lookingUp action progress =
      (.ok (action progress.session).1,
        ⟨(action progress.session).2, progress.artifacts⟩) :=
  rfl

theorem run_settled
    {α : Type} (result : Except Failure α) (progress : Progress) :
    settled result progress = (result, progress) := by
  cases result <;> rfl

theorem run_registerTarget
    {sources : Sources} {progress : Progress}
    (faithful : progress.session.IsFaithful sources)
    (types : MandatoryTypes) (target : TypeName × CapabilitySet) :
    registerTarget sources types target progress =
      match sources.load target.1 with
      | .resolved _ =>
          (.ok { types with found := types.found ++ [target.1] },
            ⟨(Session.resolve sources target.1 progress.session).2,
              progress.artifacts.registerType target.1 target.2⟩)
      | .missing =>
          (.ok { types with missing := types.missing ++ [target.1] },
            ⟨(Session.resolve sources target.1 progress.session).2, progress.artifacts⟩)
      | .corrupt reason =>
          (.error ⟨["mandatory type " ++ target.1.dotted ++ " is unusable"],
            .corrupt target.1.dotted reason⟩,
            ⟨(Session.resolve sources target.1 progress.session).2,
              progress.artifacts⟩) := by
  rw [registerTarget, run_bind, run_lookingUp, (faithful.resolve target.1).1]
  cases sources.load target.1 <;> rfl

/-- Mandatory types are registered by what fresh look-ups give. -/
theorem run_registerTargets
    {sources : Sources} {progress : Progress}
    (faithful : progress.session.IsFaithful sources)
    (targets : List (TypeName × CapabilitySet)) (types : MandatoryTypes) :
    ∃ session,
      Session.Advances sources progress.session
          (loadedTargets sources.load targets) session ∧
        targets.foldlM (registerTarget sources) types progress =
          ((registerLoaded sources.load targets types progress.artifacts).1,
            ⟨session, (registerLoaded sources.load targets types progress.artifacts).2⟩) := by
  induction targets generalizing types progress with
  | nil => exact ⟨progress.session, .refl faithful, rfl⟩
  | cons target rest inductive_hypothesis =>
      have advances := (faithful.resolve target.1).2
      rw [List.foldlM_cons, run_bind, run_registerTarget faithful]
      rw [registerLoaded, loadedTargets]
      cases sources.load target.1 with
      | resolved decl =>
          rcases @inductive_hypothesis
              ⟨_, progress.artifacts.registerType target.1 target.2⟩ advances.faithful
              { types with found := types.found ++ [target.1] } with
            ⟨session, following, ran⟩
          exact ⟨session, advances.append following, ran⟩
      | missing =>
          rcases @inductive_hypothesis ⟨_, progress.artifacts⟩ advances.faithful
              { types with missing := types.missing ++ [target.1] } with
            ⟨session, following, ran⟩
          exact ⟨session, advances.append following, ran⟩
      | corrupt reason => exact ⟨_, advances, rfl⟩

/-! ## The conclusion -/

/-- What a run found out. -/
structure Findings where
  work : Groundwork
  decisions : Decisions
  mandatory : MandatoryTypes

/-- The report on what was found out, with what a session has counted. -/
def Findings.report
    (analysis : Analysis) (session : Session) (findings : Findings) :
    Report where
  indexSources := findings.work.indexes.sources
  configurations := findings.decisions.configurations
  components := findings.decisions.componentDecisions
  componentsScanned :=
    findings.work.indexes.components.isNone && analysis.config.scanComponents
  mandatory := findings.mandatory.found
  missingMandatory := findings.mandatory.missing
  registeredTypes :=
    (findings.decisions.registrations.map Prod.fst ++
      findings.mandatory.found).eraseDups.length
  resources := (analysis.resources findings.decisions).length
  containerReads := session.reads
  cache := session.cache.counts

/-- What a report says apart from its counts of outcomes and of containers tried. -/
def Report.uncounted
    (report : Report) :
    Report :=
  { report with containerReads := 0, cache := ⟨0, 0, 0⟩ }

/-- Apart from the counts, a report is the one that a session without any would give. -/
theorem Findings.map_uncounted_report
    (analysis : Analysis) (session : Session) (result : Except Failure Findings) :
    (result.map (Findings.report analysis session)).map Report.uncounted =
      result.map (Findings.report analysis Session.start) := by
  cases result <;> rfl

/-- What a run comes to after its groundwork, and the artifacts that it leaves. -/
def conclude
    (analysis : Analysis) (sources : Sources) (work : Groundwork) (artifacts : Artifacts) :
    Except Failure Findings × Artifacts :=
  let decisions := (analysis.inquiry sources work).answer sources.lookup
  let collected := analysis.collect work.indexes decisions artifacts
  match asFailure analysis.config.mandatoryTargets with
  | .error failure => (.error failure, collected)
  | .ok targets =>
      let registered := registerLoaded sources.load targets ⟨[], []⟩ collected
      (registered.1.map fun mandatory => ⟨work, decisions, mandatory⟩, registered.2)

/-- What a run comes to, and the artifacts that it leaves. -/
def conclusion
    (analysis : Analysis) (disk : Disk) (artifacts : Artifacts) :
    Except Failure Findings × Artifacts :=
  match analysis.groundwork disk with
  | .error failure => (.error failure, artifacts)
  | .ok work => analysis.conclude (analysis.sources disk) work artifacts

/-- A run that succeeds went through all its parts. -/
theorem exists_targets_of_conclusion
    {analysis : Analysis} {disk : Disk} {artifacts : Artifacts} {findings : Findings}
    (succeeded : (analysis.conclusion disk artifacts).1 = .ok findings) :
    analysis.groundwork disk = .ok findings.work ∧
      findings.decisions =
        (analysis.inquiry (analysis.sources disk) findings.work).answer
          (analysis.sources disk).lookup ∧
      ∃ targets,
        analysis.config.mandatoryTargets = .ok targets ∧
        registerLoaded (analysis.sources disk).load targets ⟨[], []⟩
            (analysis.collect findings.work.indexes findings.decisions artifacts) =
          (.ok findings.mandatory, (analysis.conclusion disk artifacts).2) := by
  unfold conclusion at succeeded ⊢
  cases groundwork : analysis.groundwork disk with
  | error failure =>
      rw [groundwork] at succeeded
      cases succeeded
  | ok work =>
      simp only [groundwork, conclude] at succeeded ⊢
      cases read : analysis.config.mandatoryTargets with
      | error cause =>
          simp only [read, asFailure] at succeeded
          cases succeeded
      | ok targets =>
          simp only [read, asFailure] at succeeded ⊢
          cases registered : registerLoaded (analysis.sources disk).load targets ⟨[], []⟩
              (analysis.collect work.indexes
                ((analysis.inquiry (analysis.sources disk) work).answer
                  (analysis.sources disk).lookup) artifacts) with
          | mk result left =>
              rw [registered] at succeeded
              cases result with
              | error failure => cases succeeded
              | ok mandatory =>
                  cases succeeded
                  exact ⟨rfl, rfl, targets, rfl, registered⟩

/-- The mandatory types that a run looks up. -/
def targetsAsked
    (analysis : Analysis) (sources : Sources) :
    List TypeName :=
  match asFailure analysis.config.mandatoryTargets with
  | .error _ => []
  | .ok targets => loadedTargets sources.load targets

/-- The types that a run looks up. -/
def asked
    (analysis : Analysis) (disk : Disk) :
    List TypeName :=
  match analysis.groundwork disk with
  | .error _ => []
  | .ok work =>
      (analysis.inquiry (analysis.sources disk) work).asked (analysis.sources disk).lookup ++
        analysis.targetsAsked (analysis.sources disk)

theorem run_registerMandatory
    {analysis : Analysis} {sources : Sources} {progress : Progress}
    (faithful : progress.session.IsFaithful sources) :
    ∃ session,
      Session.Advances sources progress.session (analysis.targetsAsked sources) session ∧
        analysis.registerMandatory sources progress =
          match asFailure analysis.config.mandatoryTargets with
          | .error failure => (.error failure, ⟨session, progress.artifacts⟩)
          | .ok targets =>
              ((registerLoaded sources.load targets ⟨[], []⟩ progress.artifacts).1,
                ⟨session,
                  (registerLoaded sources.load targets ⟨[], []⟩ progress.artifacts).2⟩) := by
  rw [registerMandatory, run_bind, run_settled, targetsAsked]
  cases asFailure analysis.config.mandatoryTargets with
  | error failure => exact ⟨progress.session, .refl faithful, rfl⟩
  | ok targets => exact run_registerTargets faithful targets ⟨[], []⟩

/-- A run after its groundwork. -/
def runFrom
    (analysis : Analysis) (sources : Sources) (work : Groundwork) :
    RunM Report := do
  let decisions ← lookingUp (Session.run sources (analysis.inquiry sources work))
  modify fun progress =>
    { progress with
      artifacts := analysis.collect work.indexes decisions progress.artifacts }
  let mandatory ← analysis.registerMandatory sources
  let progress ← get
  return Findings.report analysis progress.session ⟨work, decisions, mandatory⟩

theorem run_eq_runFrom
    (analysis : Analysis) (disk : Disk) (progress : Progress) :
    analysis.run disk progress =
      match analysis.groundwork disk with
      | .error failure => (.error failure, progress)
      | .ok work => analysis.runFrom (analysis.sources disk) work progress := by
  rw [Analysis.run, run_bind, run_settled, groundwork]
  cases analysis.indexes disk with
  | error failure => rfl
  | ok indexes =>
      simp only [bind, Except.bind]
      cases analysis.scanned disk indexes <;> rfl

theorem runFrom_eq_conclude
    {analysis : Analysis} {sources : Sources} {progress : Progress}
    (faithful : progress.session.IsFaithful sources)
    (work : Groundwork) :
    ∃ session,
      Session.Advances sources progress.session
          ((analysis.inquiry sources work).asked sources.lookup ++
            analysis.targetsAsked sources) session ∧
        analysis.runFrom sources work progress =
          ((analysis.conclude sources work progress.artifacts).1.map
              (Findings.report analysis session),
            ⟨session, (analysis.conclude sources work progress.artifacts).2⟩) := by
  have answered := faithful.run (analysis.inquiry sources work)
  let decisions := (analysis.inquiry sources work).answer sources.lookup
  let collected : Progress :=
    ⟨(Session.run sources (analysis.inquiry sources work) progress.session).2,
      analysis.collect work.indexes decisions progress.artifacts⟩
  have registers := @run_registerMandatory analysis sources collected answered.2.faithful
  rcases registers with ⟨session, following, ran⟩
  refine ⟨session, answered.2.append following, ?_⟩
  rw [runFrom, run_bind, run_lookingUp, answered.1]
  change (analysis.registerMandatory sources >>= fun mandatory => do
    let progress ← get
    return Findings.report analysis progress.session ⟨work, decisions, mandatory⟩)
      collected = _
  rw [run_bind, ran, conclude]
  cases asFailure analysis.config.mandatoryTargets with
  | error failure => rfl
  | ok targets =>
      dsimp only
      change _ =
        (((registerLoaded sources.load targets ⟨[], []⟩ collected.artifacts).1.map _).map _,
          Progress.mk session
            (registerLoaded sources.load targets ⟨[], []⟩ collected.artifacts).2)
      rcases registerLoaded sources.load targets ⟨[], []⟩ collected.artifacts with
        ⟨result, artifacts⟩
      cases result <;> rfl

/-- A run in a faithful session comes to its conclusion. -/
theorem run_eq_conclusion
    {analysis : Analysis} {disk : Disk} {progress : Progress}
    (faithful : progress.session.IsFaithful (analysis.sources disk)) :
    ∃ session,
      Session.Advances (analysis.sources disk) progress.session
          (analysis.asked disk) session ∧
        analysis.run disk progress =
          ((analysis.conclusion disk progress.artifacts).1.map
              (Findings.report analysis session),
            ⟨session, (analysis.conclusion disk progress.artifacts).2⟩) := by
  rw [run_eq_runFrom, asked, conclusion]
  cases analysis.groundwork disk with
  | error failure => exact ⟨progress.session, .refl faithful, rfl⟩
  | ok work => exact runFrom_eq_conclude faithful work

/-- What a run that succeeds found out is in its report and in what it leaves. -/
theorem exists_findings_of_run
    {analysis : Analysis} {disk : Disk} {progress after : Progress} {report : Report}
    (faithful : progress.session.IsFaithful (analysis.sources disk))
    (ran : analysis.run disk progress = (.ok report, after)) :
    ∃ session findings,
      (analysis.conclusion disk progress.artifacts).1 = .ok findings ∧
        Findings.report analysis session findings = report ∧
        after.artifacts = (analysis.conclusion disk progress.artifacts).2 := by
  rcases run_eq_conclusion faithful with ⟨session, _, concluded⟩
  rw [concluded] at ran
  rcases Prod.mk.inj ran with ⟨reported, left⟩
  cases succeeded : (analysis.conclusion disk progress.artifacts).1 with
  | error failure =>
      rw [succeeded] at reported
      cases reported
  | ok findings =>
      rw [succeeded] at reported
      exact ⟨session, findings, rfl, Except.ok.inj reported, by rw [← left]⟩

theorem exists_prepared
    (disk : Disk) (config : Config) (property : Analysis → Prop)
    [DecidablePred property]
    (computed : (Analysis.prepare disk config).toOption.any property = true) :
    ∃ analysis, Analysis.prepare disk config = .ok analysis ∧ property analysis := by
  cases prepared : Analysis.prepare disk config with
  | error failure =>
      rw [prepared] at computed
      cases computed
  | ok analysis =>
      rw [prepared] at computed
      exact ⟨analysis, rfl, of_decide_eq_true computed⟩

end TypeReach.Analysis
