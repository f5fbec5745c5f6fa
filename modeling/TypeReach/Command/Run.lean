import TypeReach.Analysis.Run
import TypeReach.Command.Arguments
import TypeReach.Command.Screen
import TypeReach.Config.Reading

/-!
# Running commands

A command is run on a disk and gives what it prints, its exit code and the disk
after it.
-/

namespace TypeReach.Command

open Files (Disk)
open Resolution (Session)

/-- What a command printed, and its exit code. -/
structure Effect where
  exitCode : Nat
  output : String
  errors : String

def successCode : Nat := 0

def failedCode : Nat := 1

def errorCode : Nat := 2

/-- The effect of a command, or a failure that is still to be shown, and the disk after it. -/
abbrev Outcome := Except Failure Effect × Disk

/-- A failure that is told by its text alone. -/
def told (reason : String) : Failure := .of (.other reason)

/-! ## Configurations -/

/-- The configuration of a command and the file it came from. -/
structure Loaded where
  config : Config
  path : Option String

/-- The paths of a list of paths. -/
def splitPaths (text : String) : List String :=
  (text.toList.splitOn ':').map String.ofList

/--
Why a configuration is refused, as far as it is told: the reason of the system
for a file that cannot be read, and none for a content that is no configuration.
-/
def refusedDetail : Config.FileFault → String
  | .unreadable .invalidText => ""
  | .unreadable error => ": " ++ error.message
  | .notAConfig => ""

/-- Read a configuration file or take the defaults. -/
def readConfig (disk : Disk) : Option String → Except Failure Config
  | none => .ok {}
  | some path =>
    match Config.ofFile disk path with
    | .ok config => .ok config
    | .error fault => .error (told ("error parsing config " ++ path ++ refusedDetail fault))

/-- Load, extend and check the configuration of a command. -/
def load (disk : Disk) (arguments : ClasspathArguments) : Except Failure Loaded := do
  let path := arguments.config <|> Config.discover? disk "."
  let found ← readConfig disk path
  let config := { found with
    classpath := found.classpath ++ (arguments.classpath.map splitPaths).getD [] }
  if config.classpath.isEmpty then
    throw (told ("no classpath given (use --classpath or a config file: " ++
      ", ".intercalate Config.fileNames ++ ")"))
  match config.validate with
  | .ok _ => return ⟨config, path⟩
  | .error cause => throw (told ("invalid config: " ++ cause.message))

/-! ## Analysing -/

/-- The report in the format asked for. -/
def rendered (palette : Palette) (format : String) (report : Analysis.Report)
    (config output : Option String) : String :=
  if format = "json" then (report.toJson config output).pretty ++ "\n"
  else reportText palette report config output

/-- Write the artifacts if a directory was given. -/
def writeArtifacts (artifacts : Artifacts) (disk : Disk) :
    Option String → Artifacts.Written Unit
  | none => (.ok (), disk)
  | some directory =>
    match artifacts.writeTo disk directory with
    | (.ok _, written) => (.ok (), written)
    | (.error failure, written) => (.error failure, written)

/-- Analyse a classpath. -/
def analyze (palette : Palette) (disk : Disk) (arguments : ClasspathArguments)
    (output : Option String) (format : String) (strict : Bool) : Outcome :=
  if format ≠ "pretty" ∧ format ≠ "json" then
    (.ok ⟨errorCode, "", "Error: invalid format " ++ Text.quoted format ++
      ", must be 'pretty' or 'json'\n"⟩, disk)
  else
    let prepared : Except Failure (Loaded × Analysis) := do
      let loaded ← load disk arguments
      return (loaded, ← Analysis.prepare disk loaded.config)
    match prepared with
    | .error failure => (.error failure, disk)
    | .ok (loaded, analysis) =>
      match (analysis.run disk).run ⟨.start, .empty⟩ with
      | (.error failure, _) => (.error failure, disk)
      | (.ok report, progress) =>
        match writeArtifacts progress.artifacts disk output with
        | (.error failure, written) => (.error failure, written)
        | (.ok (), written) =>
          let exitCode := if strict && ! report.passed then failedCode else successCode
          (.ok ⟨exitCode, rendered palette format report loaded.path output, ""⟩, written)

/-! ## Describing -/

/-- Whether each of some types resolves. -/
def resolvable : List TypeName → Query (List (TypeName × Bool))
  | [] => return []
  | name :: rest => do
    let found ← Query.canFind name
    let more ← resolvable rest
    return (name, found) :: more

/-- Hints with their types checked. -/
def checkHints : List Hint → Query (List CheckedHint)
  | [] => return []
  | hint :: rest => do
    let types ← resolvable hint.allTypes
    let more ← checkHints rest
    return ⟨hint, types⟩ :: more

/-- The description of a declaration. -/
def description (palette : Palette) (policies : Hint.PolicyTable) (bound : Nat)
    (decl : TypeDecl) : Query String := do
  let hints ← checkHints (← Hint.collect policies bound decl)
  let stereotype ← Stereotype.of bound decl
  return descriptionText palette decl hints stereotype

/-- Describe a type. -/
def describe (palette : Palette) (disk : Disk) (type : String)
    (arguments : ClasspathArguments) : Except Failure Effect := do
  let loaded ← load disk arguments
  let analysis ← Analysis.prepare disk loaded.config
  let sources := analysis.sources disk
  let (demanded, session) := (Session.demandSpelled sources type).run .start
  match demanded with
  | .ok decl =>
    let (text, _) := (Session.run sources
      (description palette analysis.policies sources.depthBound decl)).run session
    return ⟨successCode, text, ""⟩
  | .error (.notFound name) =>
    return ⟨failedCode, "", line ["Error: ", (Cause.notFound name).message]⟩
  | .error cause => throw (.of cause)

/-- Do what is requested. -/
def perform (palette : Palette) (disk : Disk) : Request → Outcome
  | .analyze arguments output format strict =>
    analyze palette disk arguments output format strict
  | .describe type arguments => (describe palette disk type arguments, disk)

end TypeReach.Command
