import TypeReach.Failure
import TypeReach.Files.Disk
import TypeReach.Json
import TypeReach.Reach.Registry

/-!
# Artifacts

What an analysis leaves for a build: the types that need reflective access, the
resources to keep and the index files without what was rejected.  Artifacts are
collected first and written at the end.
-/

namespace TypeReach

open Files (Disk SystemError)

/-- Collected artifacts, everything in ascending order. -/
structure Artifacts where
  types : Reach.Registry
  resources : List String
  /-- Index files by their paths in the output directory. -/
  indexes : List (String × String)
  deriving DecidableEq, Repr

namespace Artifacts

def empty : Artifacts := ⟨.empty, [], []⟩

/-- Ask for capabilities of a type, in addition to those asked for before. -/
def registerType (artifacts : Artifacts) (name : TypeName) (capabilities : CapabilitySet) :
    Artifacts :=
  { artifacts with types := artifacts.types.register name capabilities }

/-- Add a text in its place in order, unless it is there. -/
def addText (text : String) : List String → List String
  | [] => [text]
  | other :: rest =>
    if other = text then other :: rest
    else if text < other then text :: other :: rest
    else other :: addText text rest

theorem mem_addText_iff {text added : String} {texts : List String} :
    text ∈ addText added texts ↔ text = added ∨ text ∈ texts := by
  induction texts with
  | nil => simp [addText]
  | cons other rest inductive_hypothesis =>
    simp only [addText]
    split
    · rename_i same
      simp [same]
    · split
      · simp
      · simp only [List.mem_cons, inductive_hypothesis]
        exact or_left_comm

/-- Adding a text keeps the order. -/
theorem pairwise_addText {texts : List String} (ordered : texts.Pairwise (· < ·))
    (added : String) : (addText added texts).Pairwise (· < ·) := by
  induction texts with
  | nil => exact List.pairwise_singleton _ _
  | cons other rest inductive_hypothesis =>
    obtain ⟨first, below⟩ := List.pairwise_cons.mp ordered
    simp only [addText]
    split
    · exact ordered
    · rename_i different
      split
      · rename_i before
        refine List.pairwise_cons.mpr ⟨?_, ordered⟩
        intro text member
        rcases List.mem_cons.mp member with same | later
        · rw [same]
          exact before
        · exact String.lt_trans before (first text later)
      · rename_i notBefore
        refine List.pairwise_cons.mpr ⟨?_, inductive_hypothesis below⟩
        intro text member
        rcases mem_addText_iff.mp member with same | later
        · rw [same]
          by_cases after : other < added
          · exact after
          · exact absurd (String.le_antisymm (String.not_lt.mp notBefore)
              (String.not_lt.mp after)) different
        · exact first text later

/-- Keep a resource. -/
def registerResource (artifacts : Artifacts) (pattern : String) : Artifacts :=
  { artifacts with resources := addText pattern artifacts.resources }

/-- Leave an index file under a path. -/
def emitIndex (artifacts : Artifacts) (path content : String) : Artifacts :=
  { artifacts with
    indexes := Keyed.alterInOrder (fun left right => decide (left < right)) path
      (fun _ => content) content artifacts.indexes }

/-! ## Contents of the files -/

/-- The object of a type: its capabilities in the order of their names, and its name. -/
def reflectEntry (entry : TypeName × CapabilitySet) : Json :=
  let flags := entry.2.flags.mergeSort fun left right => decide (left ≤ right)
  .object (flags.map (·, .bool true) ++ [("name", .text entry.1.dotted)])

/-- The reflection settings. -/
def reflectConfig (artifacts : Artifacts) : Json :=
  .array (artifacts.types.entries.map reflectEntry)

/-- The resource settings. -/
def resourceConfig (artifacts : Artifacts) : Json :=
  .object [("resources",
    .array (artifacts.resources.map fun pattern => .object [("pattern", .text pattern)]))]

/-- The files to write: a path in the output directory and a content. -/
def settingsFiles (artifacts : Artifacts) : List (String × String) :=
  [("reflect-config.json", artifacts.reflectConfig.pretty),
    ("resource-config.json", artifacts.resourceConfig.pretty)]

/-! ## Writing -/

/-- A refusal of the file system in a context. -/
def refusal (context : String) (error : SystemError) : Failure :=
  ⟨[context], .system error⟩

/-- The outcome of an operation and the disk after it, also where the operation failed. -/
abbrev Written (α : Type) := Except Failure α × Disk

/-- Write a file. -/
def writeFile (disk : Disk) (path content : String) : Written Unit :=
  match disk.writeText path content with
  | .ok written => (.ok (), written)
  | .error error => (.error (refusal ("failed to write " ++ path) error), disk)

/-- Write a file and create the directory that it is in. -/
def writeBelow (disk : Disk) (path content : String) : Written Unit :=
  match Files.Path.parent? path with
  | none => writeFile disk path content
  | some parent =>
    match disk.makeDirectories parent with
    | (.ok (), made) => writeFile made path content
    | (.error error, made) => (.error (refusal ("failed to create " ++ parent) error), made)

/-- Write files one after the other up to the first that fails, giving their paths. -/
def writeEach (write : Disk → String → String → Written Unit) :
    List (String × String) → Disk → Written (List String)
  | [], disk => (.ok [], disk)
  | (path, content) :: rest, disk =>
    match write disk path content with
    | (.error failure, written) => (.error failure, written)
    | (.ok (), written) =>
      match writeEach write rest written with
      | (.error failure, last) => (.error failure, last)
      | (.ok paths, last) => (.ok (path :: paths), last)

/-- Files as seen from a directory. -/
def within (directory : String) (files : List (String × String)) : List (String × String) :=
  files.map fun file => (Files.Path.join directory file.1, file.2)

/-- Write all artifacts below a directory, giving the paths of the files in order. -/
def writeTo (artifacts : Artifacts) (disk : Disk) (directory : String) :
    Written (List String) :=
  match disk.makeDirectories directory with
  | (.error error, made) =>
    (.error (refusal ("failed to create output directory " ++ directory) error), made)
  | (.ok (), made) =>
    match writeEach writeFile (within directory artifacts.settingsFiles) made with
    | (.error failure, written) => (.error failure, written)
    | (.ok settings, written) =>
      match writeEach writeBelow (within directory artifacts.indexes) written with
      | (.error failure, last) => (.error failure, last)
      | (.ok indexes, last) => (.ok (settings ++ indexes), last)

end Artifacts

end TypeReach
