import TypeReach.Analysis.Report
import TypeReach.Artifacts
import TypeReach.Config.Basic
import TypeReach.Index.Scan
import TypeReach.Resolution.Session

/-!
# Runs of an analysis

An analysis is prepared from a configuration: its containers are listed and its
patterns and policies are read.  A run then finds the candidates, evaluates them
and leaves artifacts.  What a session has looked up stays for later runs.
-/

namespace TypeReach

open Files (Disk)
open Resolution (Session Sources)
open Reach (Decision)

/-- An analysis that is ready to run. -/
structure Analysis where
  config : Config
  classpath : Classpath
  platform : Classpath
  policies : Hint.PolicyTable
  patterns : List Glob.Pattern

namespace Analysis

/-- The failure that a cause is in a context. -/
def inContext (context : String) : Except Cause α → Except Failure α
  | .ok value => .ok value
  | .error cause => .error ⟨[context], cause⟩

/-- The failure that a cause is by itself. -/
def asFailure : Except Cause α → Except Failure α
  | .ok value => .ok value
  | .error cause => .error (.of cause)

/-- Prepare an analysis. -/
def prepare (disk : Disk) (config : Config) : Except Failure Analysis := do
  let classpath ← inContext "failed to index classpath"
    (Classpath.build disk config.classpath config.precedence)
  let platform ← inContext "failed to index platform containers"
    (Classpath.build disk config.platform config.precedence)
  let policies ← asFailure config.policyTable
  let patterns ← asFailure config.patterns
  return ⟨config, classpath, platform, policies, patterns⟩

/-- Where a run on a disk finds types. -/
def sources (analysis : Analysis) (disk : Disk) : Sources :=
  ⟨disk, analysis.classpath, analysis.platform⟩

/-- What units are evaluated by, with the capabilities that they ask for. -/
def rules (analysis : Analysis) (bound : Nat) (capabilities : CapabilitySet) : Reach.Rules where
  hintsOf := Hint.collect analysis.policies bound
  isExcluded := Config.matchesAny analysis.patterns
  capabilities := capabilities

/-! ## Candidates -/

/-- The index files on the classpath and those that the configuration lists. -/
def indexes (analysis : Analysis) (disk : Disk) : Except Failure Index.IndexSet := do
  let found ← inContext "failed to read index files from classpath"
    (Index.IndexSet.discover analysis.classpath disk)
  analysis.config.indexFiles.foldlM
    (fun set path => inContext ("failed to read index file " ++ path) (set.loadFile disk path))
    found

/-- The candidates in the index files, and then those that the configuration lists. -/
def candidates (analysis : Analysis) (indexes : Index.IndexSet) : List TypeName :=
  (indexes.factories.candidates analysis.config.factoryKeys ++
    analysis.config.candidateNames).eraseDups

/-- The types to scan where no components file exists. -/
def scanned (analysis : Analysis) (disk : Disk) (indexes : Index.IndexSet) :
    Except Failure (List TypeName) :=
  if indexes.components.isNone && analysis.config.scanComponents then
    inContext "component scan failed" (analysis.classpath.directoryTypes disk)
  else .ok []

/-- The components: those in the index files, or else those found by a scan. -/
def components (analysis : Analysis) (bound : Nat) (indexes : Index.IndexSet)
    (scanned : List TypeName) : Query (Option Index.Components) :=
  match indexes.components with
  | some index => return some index
  | none =>
    if analysis.config.scanComponents then return some (← Index.Scan.components bound scanned)
    else return none

/-! ## Decisions -/

/-- What was decided about the candidates of a run. -/
structure Decisions where
  components : Option Index.Components
  configurations : List Decision
  componentDecisions : List Decision

namespace Decisions

def all (decisions : Decisions) : List Decision :=
  decisions.configurations ++ decisions.componentDecisions

/-- The candidates that were rejected. -/
def rejected (decisions : Decisions) : List TypeName :=
  (decisions.all.filter (! ·.accepted)).map Decision.candidate

/-- The types that were registered, with repetitions. -/
def registrations (decisions : Decisions) : List (TypeName × CapabilitySet) :=
  decisions.all.flatMap (·.registrations.entries)

/-- The artifacts of the accepted components. -/
def componentResources (decisions : Decisions) : List String :=
  (decisions.componentDecisions.filter Decision.accepted).map fun decision =>
    Index.Components.resourcePattern decision.candidate

end Decisions

/-- Decide about all candidates. -/
def decisions (analysis : Analysis) (bound : Nat) (indexes : Index.IndexSet)
    (scanned : List TypeName) : Query Decisions := do
  let components ← analysis.components bound indexes scanned
  let configurations ← Reach.evaluateAll (analysis.rules bound .configuration) bound
    (analysis.candidates indexes)
  let componentDecisions ← Reach.evaluateAll (analysis.rules bound .component) bound
    (components.map Index.Components.types |>.getD [])
  return ⟨components, configurations, componentDecisions⟩

/-! ## Artifacts -/

/-- The resources to keep, in order. -/
def resources (analysis : Analysis) (decisions : Decisions) : List String :=
  (decisions.componentResources ++ analysis.config.resources).foldl
    (fun texts text => Artifacts.addText text texts) []

/-- The factories file without the rejected candidates, unless there is none. -/
def factoriesFile (analysis : Analysis) (indexes : Index.IndexSet) (decisions : Decisions) :
    List (String × String) :=
  if indexes.factories.isEmpty then []
  else
    [(Index.factoriesPath,
      (indexes.factories.filtered analysis.config.factoryKeys decisions.rejected).render)]

/-- The components file without the rejected components, unless there is none. -/
def componentsFile (decisions : Decisions) : List (String × String) :=
  decisions.components.toList.map fun index =>
    (Index.componentsPath, (index.filtered decisions.rejected).render)

/-- Add what was decided to artifacts. -/
def collect (analysis : Analysis) (indexes : Index.IndexSet) (decisions : Decisions)
    (artifacts : Artifacts) : Artifacts :=
  let withTypes := decisions.registrations.foldl
    (fun artifacts entry => artifacts.registerType entry.1 entry.2) artifacts
  let withResources := (analysis.resources decisions).foldl
    Artifacts.registerResource withTypes
  (analysis.factoriesFile indexes decisions ++ componentsFile decisions).foldl
    (fun artifacts file => artifacts.emitIndex file.1 file.2) withResources

/-! ## Runs -/

/-- What a run changes: what was looked up, and what it leaves. -/
structure Progress where
  session : Session
  artifacts : Artifacts

/-- A part of a run, which may fail and leaves what it did until then. -/
abbrev RunM := ExceptT Failure (StateM Progress)

/-- Look something up in the session. -/
def lookingUp (action : StateM Session α) : RunM α := ExceptT.mk fun progress =>
  let (value, session) := action progress.session
  (.ok value, { progress with session := session })

/-- A result that needs no progress. -/
def settled : Except Failure α → RunM α
  | .ok value => pure value
  | .error failure => throw failure

/-- The mandatory types that were found and those that were not. -/
structure MandatoryTypes where
  found : List TypeName
  missing : List TypeName

/-- Register a mandatory type.  One that is missing is noted; one that is corrupt is fatal. -/
def registerTarget (sources : Sources) (types : MandatoryTypes)
    (target : TypeName × CapabilitySet) : RunM MandatoryTypes := do
  match ← lookingUp (Session.resolve sources target.1) with
  | .resolved _ =>
    modify fun progress =>
      { progress with artifacts := progress.artifacts.registerType target.1 target.2 }
    return { types with found := types.found ++ [target.1] }
  | .missing => return { types with missing := types.missing ++ [target.1] }
  | .corrupt reason =>
    throw ⟨["mandatory type " ++ target.1.dotted ++ " is unusable"],
      .corrupt target.1.dotted reason⟩

/-- Register the mandatory types. -/
def registerMandatory (analysis : Analysis) (sources : Sources) : RunM MandatoryTypes := do
  let targets ← settled (asFailure analysis.config.mandatoryTargets)
  targets.foldlM (registerTarget sources) ⟨[], []⟩

/-- Run an analysis on a disk. -/
def run (analysis : Analysis) (disk : Disk) : RunM Report := do
  let sources := analysis.sources disk
  let bound := sources.depthBound
  let indexes ← settled (analysis.indexes disk)
  let scanned ← settled (analysis.scanned disk indexes)
  let decisions ← lookingUp
    (Session.run sources (analysis.decisions bound indexes scanned))
  modify fun progress =>
    { progress with artifacts := analysis.collect indexes decisions progress.artifacts }
  let mandatory ← analysis.registerMandatory sources
  let progress ← get
  let registered := (decisions.registrations.map Prod.fst ++ mandatory.found).eraseDups
  return {
    indexSources := indexes.sources
    configurations := decisions.configurations
    components := decisions.componentDecisions
    componentsScanned := indexes.components.isNone && analysis.config.scanComponents
    mandatory := mandatory.found
    missingMandatory := mandatory.missing
    registeredTypes := registered.length
    resources := (analysis.resources decisions).length
    containerReads := progress.session.reads
    cache := progress.session.cache.counts }

end Analysis

end TypeReach
