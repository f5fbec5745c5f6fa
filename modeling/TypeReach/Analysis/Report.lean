import TypeReach.Json
import TypeReach.Reach.Evaluation
import TypeReach.Resolution.Cache

/-!
# Reports of runs

Everything that a run decided, and its form as JSON.
-/

namespace TypeReach.Analysis

open Reach (Decision Registry RejectReason Rejection)

/-- What a run decided. -/
structure Report where
  indexSources : List String
  configurations : List Decision
  components : List Decision
  /-- Whether the components were found by scanning. -/
  componentsScanned : Bool
  mandatory : List TypeName
  missingMandatory : List TypeName
  registeredTypes : Nat
  resources : Nat
  containerReads : Nat
  cache : Resolution.Counts

namespace Report

def decisions (report : Report) : List Decision :=
  report.configurations ++ report.components

def accepted (report : Report) : List Decision :=
  report.decisions.filter Decision.accepted

def rejected (report : Report) : List Decision :=
  report.decisions.filter (! ·.accepted)

/-- A run passes when no mandatory type is missing. -/
def passed (report : Report) : Bool :=
  report.missingMandatory.isEmpty

/-! ## The form as JSON -/

def ofNat (number : Nat) : Json := .integer number

def ofNames (names : List TypeName) : Json := .ofTexts (names.map TypeName.dotted)

def ofReason : RejectReason → Json
  | .unresolvable => .object [("kind", .text "unresolvable")]
  | .missingReference missing chain =>
    .object [("kind", .text "missing_reference"), ("missing", .text missing.dotted),
      ("chain", ofNames chain)]
  | .excluded => .object [("kind", .text "excluded")]

def ofRejection (rejection : Rejection) : Json :=
  .object [("unit", .text rejection.unit.dotted), ("reason", ofReason rejection.reason)]

def ofRegistry (registry : Registry) : Json :=
  .object (registry.entries.map fun entry => (entry.1.dotted, .ofTexts entry.2.flags))

/-- A field that is left out when there is nothing to show. -/
def unlessEmpty (name : String) (items : List α) (json : Json) : List (String × Json) :=
  if items.isEmpty then [] else [(name, json)]

def ofDecision (decision : Decision) : Json :=
  .object
    ([("candidate", .text decision.candidate.dotted), ("accepted", .bool decision.accepted)] ++
      (decision.reason.toList.map fun reason => ("reason", ofReason reason)) ++
      [("registrations", ofRegistry decision.registrations)] ++
      unlessEmpty "pruned" decision.pruned (.array (decision.pruned.map ofRejection)) ++
      unlessEmpty "unresolved" decision.unresolved (ofNames decision.unresolved))

def ofCounts (counts : Resolution.Counts) : Json :=
  .object [("resolved", ofNat counts.resolved), ("missing", ofNat counts.missing),
    ("corrupt", ofNat counts.corrupt)]

/-- The version that reports carry. -/
def version : String := "0.1.0"

/-- A field that is left out when it has no value. -/
def whenGiven (name : String) (value : Option String) : List (String × Json) :=
  value.toList.map fun text => (name, .text text)

/-- The report as JSON, with the configuration and the output directory of the run. -/
def toJson (report : Report) (config output : Option String) : Json :=
  .object
    ([("version", .text version)] ++ whenGiven "config" config ++ whenGiven "output" output ++
      [("passed", .bool report.passed), ("index_sources", .ofTexts report.indexSources),
        ("configurations", .array (report.configurations.map ofDecision)),
        ("components", .array (report.components.map ofDecision)),
        ("components_scanned", .bool report.componentsScanned),
        ("mandatory", ofNames report.mandatory),
        ("missing_mandatory", ofNames report.missingMandatory),
        ("registered_types", ofNat report.registeredTypes),
        ("resources", ofNat report.resources),
        ("container_reads", ofNat report.containerReads), ("cache", ofCounts report.cache)])

end Report

end TypeReach.Analysis
