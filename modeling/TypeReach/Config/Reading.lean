import TypeReach.Config.Basic
import TypeReach.Config.Spelling
import TypeReach.Datum
import TypeReach.Files.Disk
import TypeReach.Yaml.Document

/-!
# Reading configurations

A configuration is read from a tree of settings.  Fields that are not known are
passed over, and a known field has to occur at most once and to be of its type.
-/

namespace TypeReach

/-- The rules in which kinds of settings texts differ. -/
structure Dialect where
  /-- A record may be given as the list of its fields in their order. -/
  allowsPositional : Bool
  /-- A choice may be given as a record with one field without a value. -/
  allowsTaggedChoice : Bool
  /-- How many lists and records may be nested in what is read, if there is a bound. -/
  mostLevels : Option Nat

namespace Dialect

/-- The rules for JSON values. -/
def json : Dialect := ⟨true, true, none⟩

/-- The rules for YAML texts. -/
def yaml : Dialect := ⟨false, false, some 128⟩

/-- Whether a tree may stand inside of a number of lists and records. -/
def allowsNested (dialect : Dialect) (outer : Nat) (datum : Datum) : Bool :=
  dialect.mostLevels.all (outer + datum.levels ≤ ·)

end Dialect

namespace Datum

/-- A text; a scalar without quotes is one as well. -/
def text? : Datum → Option String
  | .text value => some value
  | .plain spelling => some spelling
  | _ => none

/-- A truth value. -/
def bool? : Datum → Option Bool
  | .bool value => some value
  | .plain spelling => Spelling.bool? spelling
  | _ => none

/-- The items of a list; what is left out is an empty one. -/
def items? : Datum → Option (List Datum)
  | .list items => some items
  | .plain "" => some []
  | _ => none

/-- A list of texts. -/
def texts? (datum : Datum) : Option (List String) := do
  (← datum.items?).mapM text?

/-- The fields of a record by their names; what is left out is an empty one. -/
def fields? : Datum → Option (List (String × Datum))
  | .record fields => fields.mapM fun field => field.1.text?.map (·, field.2)
  | .plain "" => some []
  | _ => none

/-- The fields of a record of which the known names are given in their order. -/
def namedFields? (dialect : Dialect) (known : List String) (datum : Datum) :
    Option (List (String × Datum)) :=
  match datum with
  | .list items =>
    if dialect.allowsPositional && items.length ≤ known.length then some (known.zip items)
    else none
  | _ => do
    let fields ← datum.fields?
    let names := (fields.map Prod.fst).filter known.contains
    if names.eraseDups.length = names.length then some fields else none

/-- The value of a field, read in a given way, or a default where it is missing. -/
def fieldOr (fields : List (String × Datum)) (name : String) (read : Datum → Option α)
    (default : α) : Option α :=
  match fields.lookup name with
  | some datum => read datum
  | none => some default

/-- The value of a field that has to be there. -/
def fieldOf (fields : List (String × Datum)) (name : String) (read : Datum → Option α) :
    Option α :=
  (fields.lookup name).bind read

mutual

/-- Whether a tree can be kept before it is known what its parts are for. -/
def isKeepable : Datum → Bool
  | .plain spelling => Spelling.kind spelling ≠ .wideInteger
  | .list items => areKeepable items
  | .record fields => areKeepableFields fields
  | .null => true
  | .bool _ => true
  | .number => true
  | .text _ => true

def areKeepable : List Datum → Bool
  | [] => true
  | item :: rest => item.isKeepable && areKeepable rest

def isKeepableField : Datum × Datum → Bool
  | (key, value) => key.isKeepable && value.isKeepable

def areKeepableFields : List (Datum × Datum) → Bool
  | [] => true
  | field :: rest => isKeepableField field && areKeepableFields rest

end

/-- A text where spelling decides: a scalar without quotes may be none. -/
def typedText? : Datum → Option String
  | .text value => some value
  | .plain spelling => if Spelling.kind spelling = .text then some spelling else none
  | _ => none

/-- A list of texts where spelling decides. -/
def typedTexts? : Datum → Option (List String)
  | .list items => items.mapM typedText?
  | _ => none

end Datum

namespace Config

open Datum

/-- The precedence of a name. -/
def precedenceOf? : String → Option Precedence
  | "directories-first" => some .directoriesFirst
  | "classpath-order" => some .classpathOrder
  | _ => none

/-- The name of a precedence. -/
def precedenceName : Precedence → String
  | .directoriesFirst => "directories-first"
  | .classpathOrder => "classpath-order"

def readPrecedence? (dialect : Dialect) : Datum → Option Precedence
  | .record [(key, .null)] =>
    if dialect.allowsTaggedChoice then key.text?.bind precedenceOf? else none
  | datum => datum.text?.bind precedenceOf?

/-- A mandatory target. -/
def readMandatory? (dialect : Dialect) (datum : Datum) : Option MandatoryTarget := do
  let fields ← datum.namedFields? dialect ["name", "capabilities"]
  return ⟨← fieldOf fields "name" text?, ← fieldOr fields "capabilities" texts? []⟩

/--
A hint entry.  Its fields apart from the type are kept before they are read, so
that their spelling decides on their types.  They stand inside of the settings,
the list of hints and the entry.
-/
def readHintRecord? (dialect : Dialect) (datum : Datum) : Option HintEntry := do
  let fields ← datum.fields?
  let known := ["type", "skip_if_missing", "follow", "names"]
  let names := (fields.map Prod.fst).filter known.contains
  if names.eraseDups.length ≠ names.length then none
  let kept := (fields.filter (·.1 ≠ "type")).map Prod.snd
  if ! kept.all (fun value => value.isKeepable && dialect.allowsNested 3 value) then none
  let policy : Hint.Policy :=
    { skipIfMissing := ← fieldOr fields "skip_if_missing" bool? false
      follow := ← fieldOr fields "follow" bool? false
      names := ← fieldOr fields "names" typedTexts? [] }
  return ⟨← fieldOf fields "type" text?, policy⟩

/-- The names of the settings in their order. -/
def fieldNames : List String :=
  ["classpath", "platform", "precedence", "factory_keys", "index_files", "candidates",
    "scan_components", "resources", "mandatory", "hints", "exclude"]

/-- The configuration that a tree of settings stands for. -/
def ofDatum? (dialect : Dialect) (datum : Datum) : Option Config := do
  let fields ← datum.namedFields? dialect fieldNames
  let usual : Config := {}
  return {
    classpath := ← fieldOr fields "classpath" texts? usual.classpath
    platform := ← fieldOr fields "platform" texts? usual.platform
    precedence := ← fieldOr fields "precedence" (readPrecedence? dialect) usual.precedence
    factoryKeys := ← fieldOr fields "factory_keys" texts? usual.factoryKeys
    indexFiles := ← fieldOr fields "index_files" texts? usual.indexFiles
    candidates := ← fieldOr fields "candidates" texts? usual.candidates
    scanComponents := ← fieldOr fields "scan_components" Datum.bool? usual.scanComponents
    resources := ← fieldOr fields "resources" texts? usual.resources
    mandatory := ← fieldOr fields "mandatory"
      (fun value => do (← value.items?).mapM (readMandatory? dialect)) usual.mandatory
    hints := ← fieldOr fields "hints"
      (fun value => do (← value.items?).mapM (readHintRecord? dialect)) usual.hints
    exclude := ← fieldOr fields "exclude" texts? usual.exclude }

/-- The configuration of a YAML text. -/
def ofYaml? (text : String) : Option Config := do
  ofDatum? .yaml (← Yaml.parse? text.toList)

/-- Why a configuration file cannot be used. -/
inductive FileFault where
  | unreadable (error : Files.SystemError)
  | notAConfig
  deriving DecidableEq, Repr

/-- Read a configuration file; its relative paths are seen from its directory. -/
def ofFile (disk : Files.Disk) (path : String) : Except FileFault Config :=
  match disk.readText path with
  | .error error => .error (.unreadable error)
  | .ok content =>
    match ofYaml? content with
    | none => .error .notAConfig
    | some config =>
      match Files.Path.parent? path with
      | some base => .ok (config.rebased base)
      | none => .ok config

/-- The names under which a configuration file is looked for. -/
def fileNames : List String := ["classreach.yaml", ".classreach.yaml"]

/-- The configuration file of a directory. -/
def discover? (disk : Files.Disk) (directory : String) : Option String :=
  (fileNames.map (Files.Path.join directory)).find? fun path => (disk.lookup path).isOk

end Config

end TypeReach
