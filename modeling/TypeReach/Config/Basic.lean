import TypeReach.Capability
import TypeReach.Classpath.Basic
import TypeReach.Glob.Reading
import TypeReach.Glob.Shape
import TypeReach.Hint.Policy
import TypeReach.Index.Discovery

/-!
# Configuration

What an analysis is run on: the containers, the index files and candidates,
and what is required, excluded or known about annotations beyond the built-in
policies.
-/

namespace TypeReach

/-- A type that is registered whether it is reached or not. -/
structure MandatoryTarget where
  name : String
  /-- Names of capabilities; none stands for those of configurations. -/
  capabilities : List String
  deriving DecidableEq, Repr

/-- A policy for annotations of a type. -/
structure HintEntry where
  type : String
  policy : Hint.Policy
  deriving DecidableEq, Repr

/-- The settings of an analysis. -/
structure Config where
  classpath : List String := []
  platform : List String := []
  precedence : Precedence := .directoriesFirst
  /-- The keys of factories files whose values are candidates. -/
  factoryKeys : List String := [Index.autoConfigurationKey]
  indexFiles : List String := []
  candidates : List String := []
  /-- Whether components are scanned for where no components file exists. -/
  scanComponents : Bool := true
  resources : List String := []
  mandatory : List MandatoryTarget := []
  hints : List HintEntry := []
  /-- Patterns over dotted names. -/
  exclude : List String := []
  deriving DecidableEq, Repr

namespace Config

/-- A cause that lies in the settings. -/
def invalid (reason : String) : Except Cause α :=
  .error (.configuration reason)

/-- Read one exclusion pattern. -/
def readPattern (text : String) : Except Cause Glob.Pattern :=
  match Glob.Pattern.parse text with
  | .ok pattern => .ok pattern
  | .error fault =>
    invalid ("invalid exclude pattern " ++ Text.quoted text ++ ": " ++ fault.message text)

/-- The exclusion patterns, each of them and all together. -/
def patterns (config : Config) : Except Cause (List Glob.Pattern) := do
  let found ← config.exclude.mapM readPattern
  match Glob.setFault? found with
  | none => return found
  | some fault => invalid ("invalid exclude patterns: " ++ fault.message)

/-- Whether a pattern matches the dotted form of a name. -/
def matchesAny (patterns : List Glob.Pattern) (name : TypeName) : Bool :=
  patterns.any (·.isMatch name.dotted)

/-- The type and the policy of an entry. -/
def readHint (entry : HintEntry) : Except Cause (TypeName × Hint.Policy) :=
  match TypeName.parse? entry.type with
  | some name => .ok (name, entry.policy)
  | none => invalid ("invalid hint type " ++ Text.quoted entry.type)

/-- The built-in policies overlaid with the configured ones. -/
def policyTable (config : Config) : Except Cause Hint.PolicyTable := do
  let entries ← config.hints.mapM readHint
  return entries.foldl (fun table entry => table.insert entry.1 entry.2) .builtin

/-- The type and the capabilities of a mandatory target. -/
def readTarget (target : MandatoryTarget) : Except Cause (TypeName × CapabilitySet) :=
  match TypeName.parse? target.name with
  | none => invalid ("invalid mandatory type " ++ Text.quoted target.name)
  | some name =>
    if target.capabilities.isEmpty then .ok (name, .configuration)
    else
      match CapabilitySet.ofFlags target.capabilities with
      | .ok capabilities => .ok (name, capabilities)
      | .error unknown =>
        invalid ("mandatory target " ++ target.name ++ ": " ++ Capability.unknownMessage unknown)

/-- The mandatory types with their capabilities. -/
def mandatoryTargets (config : Config) : Except Cause (List (TypeName × CapabilitySet)) :=
  config.mandatory.mapM readTarget

/-- The candidates that are type names. -/
def candidateNames (config : Config) : List TypeName :=
  config.candidates.filterMap TypeName.parse?

/-- Check everything that can be checked without the containers. -/
def validate (config : Config) : Except Cause Unit := do
  if config.factoryKeys.any fun key => (Text.trim key.toList).isEmpty then
    throw (.other "factory_keys must not contain empty keys")
  match config.candidates.find? fun candidate => (TypeName.parse? candidate).isNone with
  | some candidate => throw (.other ("invalid candidate type name " ++ Text.quoted candidate))
  | none => pure ()
  discard config.patterns
  discard config.policyTable
  discard config.mandatoryTargets

/-- Take relative paths as seen from a base. -/
def rebased (config : Config) (base : String) : Config :=
  { config with
    classpath := config.classpath.map (Files.Path.join base)
    platform := config.platform.map (Files.Path.join base)
    indexFiles := config.indexFiles.map (Files.Path.join base) }

end Config

end TypeReach
