import TypeReach.Analysis.Report
import TypeReach.Command.Style
import TypeReach.Hint.Basic

/-!
# Texts for the terminal

How a run and the description of a type are shown to a reader.
-/

namespace TypeReach.Command

open Reach (Decision)

/-! ## Runs -/

/-- The lines of an accepted candidate. -/
def acceptedLines (palette : Palette) (decision : Decision) : List String :=
  let extra := decision.registrations.size - 1
  let more := if 0 < extra then [palette.paint .dimmed s!" (+{extra} types)"] else []
  line (["    ", palette.paint .green "ACCEPT", " ",
      palette.paint .blue decision.candidate.dotted] ++ more) ::
    decision.pruned.map fun rejection =>
      line ["            ", palette.paint .dimmed
        ("pruned " ++ rejection.unit.dotted ++ ": " ++ rejection.reason.message)]

/-- The lines of a rejected candidate. -/
def rejectedLines (palette : Palette) (decision : Decision) : List String :=
  line ["    ", palette.paint .red "REJECT", " ",
      palette.paint .blue decision.candidate.dotted] ::
    decision.reason.toList.map fun reason => line ["            ", reason.message]

/-- Decisions under a title; nothing when there are none. -/
def decisionLines (palette : Palette) (title : String) (decisions : List Decision) :
    List String :=
  if decisions.isEmpty then []
  else
    let accepted := (decisions.filter Decision.accepted).length
    let rejected := decisions.length - accepted
    [line ["  ", palette.paint .bold title, s!" ({accepted} accepted, {rejected} rejected):"],
      line []] ++
      (decisions.flatMap fun decision =>
        if decision.accepted then acceptedLines palette decision
        else rejectedLines palette decision) ++
      [line []]

/-- The mandatory types that are missing; nothing when there are none. -/
def missingLines (palette : Palette) (missing : List TypeName) : List String :=
  if missing.isEmpty then []
  else
    [line ["  ", palette.paint .bold "Missing mandatory", s!" ({missing.length}):"]] ++
      (missing.map fun name => line ["    ", palette.paint .red "MISSING", " ", name.dotted]) ++
      [line []]

/-- The last line of a report. -/
def summaryLine (palette : Palette) (report : Analysis.Report) : String :=
  let verdict :=
    if report.passed then palette.paint .green "✓ DONE" else palette.paint .red "✗ INCOMPLETE"
  let reads := toString report.containerReads
  let resolved := toString report.cache.resolved
  let missing := toString report.cache.missing
  let corrupt := toString report.cache.corrupt
  line ["  ", verdict, "  Types: ", palette.paint .bold (toString report.registeredTypes),
    "  Resources: ", toString report.resources, "  ",
    palette.paint .dimmed ("(reads: " ++ reads ++ ", cached: " ++ resolved ++ " resolved / " ++
      missing ++ " missing / " ++ corrupt ++ " corrupt)")]

/-- A report as it is shown. -/
def reportText (palette : Palette) (report : Analysis.Report) (config output : Option String) :
    String :=
  String.join
    ([line [], line ["  ", palette.paint .cyanBold "classreach", " v", Analysis.Report.version],
        line []] ++
      (config.toList.map fun path => line ["  ", palette.paint .dimmed "Config:  ", path]) ++
      [line ["  ", palette.paint .dimmed "Indexes: ", toString report.indexSources.length]] ++
      (report.indexSources.map fun source => line ["    ", palette.paint .dimmed source]) ++
      (if report.componentsScanned then
        [line ["    ", palette.paint .dimmed "(components index synthesized by scan)"]]
      else []) ++
      [line []] ++
      decisionLines palette "Configurations" report.configurations ++
      decisionLines palette "Components" report.components ++
      missingLines palette report.missingMandatory ++
      [summaryLine palette report] ++
      (output.toList.map fun path => line ["  ", palette.paint .dimmed "Artifacts: ", path]) ++
      [line []])

/-! ## Descriptions of types -/

/-- A text with blanks after it up to a width. -/
def padded (width : Nat) (text : String) : String :=
  text ++ String.ofList (List.replicate (width - text.length) ' ')

/-- A labelled line of a description. -/
def labelled (label content : String) : String :=
  line ["    ", padded 12 label, content]

/-- The word for the kind of a type. -/
def kindWord (access : Access) : String :=
  if access.isAnnotationType then "annotation"
  else if access.isInterface then "interface"
  else "class"

/-- The lines about a declaration itself. -/
def declarationLines (palette : Palette) (decl : TypeDecl) : List String :=
  [line [], line ["  ", palette.paint .dimmed (kindWord decl.access), " ",
      palette.paint .cyanBold decl.name.dotted]] ++
    (decl.superclass.toList.map fun name => labelled "extends" name.dotted) ++
    (decl.interfaces.map fun name => labelled "implements" name.dotted) ++
    (decl.nested.map fun name => labelled "nested" name.dotted) ++
    (decl.annotations.map fun use => labelled "attribute" ("@" ++ use.type.dotted)) ++
    [labelled "members" (toString decl.members.length), line []]

/-- A hint together with its types and whether they resolve. -/
structure CheckedHint where
  hint : Hint
  types : List (TypeName × Bool)

/-- The lines of a hint. -/
def hintLines (palette : Palette) (checked : CheckedHint) : List String :=
  let flags := (if checked.hint.skipIfMissing then ["skip-if-missing"] else []) ++
    (if checked.hint.follow then ["follow"] else [])
  line ["    ", checked.hint.label, "  ",
      palette.paint .dimmed ("[" ++ ", ".intercalate flags ++ "]")] ::
    checked.types.map fun type =>
      line ["      ", if type.2 then palette.paint .green "✓" else palette.paint .red "✗", " ",
        type.1.dotted]

/-- The description of a type as it is shown. -/
def descriptionText (palette : Palette) (decl : TypeDecl) (hints : List CheckedHint)
    (stereotype : Option TypeName) : String :=
  let shown := match stereotype with
    | some name => name.dotted
    | none => palette.paint .dimmed "none"
  String.join
    (declarationLines palette decl ++
      [line ["  ", palette.paint .bold "Hints", s!" ({hints.length}):"]] ++
      hints.flatMap (hintLines palette) ++
      [line [], line ["  ", palette.paint .bold "Stereotype:", " ", shown], line []])

end TypeReach.Command
