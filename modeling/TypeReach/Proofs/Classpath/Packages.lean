import Mathlib.Data.List.Nodup
import Mathlib.Data.List.Perm.Subperm
import TypeReach.Classpath.Basic
import TypeReach.Proofs.Files.Tree

/-!
# The packages of containers

A classpath keeps, for each package, the places of the containers that list a
type of it.  A container is noted when its entries are gone through, unless it is
the one that was noted last.  That is enough for it to be noted once, since
containers are opened one after the other.

Two facts make this a substitute for the listings.  A container that lists a type
is noted for the package of that type.  And where a container is noted for a
package, reading the artifact of any type of that package finds something exactly
if the container lists it.

The second fact needs the package.  The name of a type can be any text, and read
from a directory it could climb out of it; but the directories of a listed entry
are names, and so are those of every type in its package.  What is left is a name
that starts with a slash, whose package is the unnamed one.  Its artifact is an
absolute path, which no directory lists and every directory reads from the root of
the disk.  Such a name strays if there is a file for it, and the second fact holds
for all names that do not stray.
-/

namespace TypeReach.Classpath

open Files (Archive Disk Location)

/-! ## Opening and listing -/

/-- The packages of the types that are among entry names. -/
def packagesOf
    (names : List String) :
    List String :=
  (names.filterMap stem?).map packageOf

namespace Container

/-- The entries that a container lists; none if it cannot be listed. -/
def listing
    (disk : Disk) (container : Container) :
    List String :=
  match container.entryNames disk with
  | .ok names => names
  | .error _ => []

/-- Whether a container lists an entry. -/
def lists
    (disk : Disk) (container : Container) (entry : String) :
    Bool :=
  (container.listing disk).contains entry

/-- Whether a container lists a type of a package. -/
def holds
    (disk : Disk) (container : Container) (package : String) :
    Bool :=
  (packagesOf (container.listing disk)).contains package

/-- What opening and listing a path gives. -/
inductive IsOpen
    (disk : Disk) :
    Container → Prop where
  | directory
      (path : String) (location : Location)
      (located : disk.locate path = .ok location)
      (held : disk.node? location = some .directory)
      (accepted : disk.refusalBelow? location path = none) :
      IsOpen disk ⟨path, .directory, none⟩
  | archive
      (path : String) (location : Location) (archive : Archive)
      (located : disk.locate path = .ok location)
      (held : disk.node? location = some (.archive archive)) :
      IsOpen disk ⟨path, .archive, some archive⟩

end Container

/-- A classpath with one more container and the packages that it lists. -/
def extended
    (disk : Disk) (classpath : Classpath) (container : Container) :
    Classpath :=
  { classpath with
    containers := classpath.containers ++ [container]
    packages := (packagesOf (container.listing disk)).foldl
      (note classpath.containers.length) classpath.packages }

theorem getD_get?_note
    (place : Nat) (packages : Packages) (noted package : String) :
    (Keyed.get? package (note place packages noted)).getD [] =
      let holders := (Keyed.get? package packages).getD []
      if noted = package ∧ holders.getLast? ≠ some place then holders ++ [place]
      else holders := by
  by_cases same : noted = package
  · subst same
    rw [note, Keyed.get?_alter_self]
    cases Keyed.get? noted packages with
    | none => simp
    | some holders => by_cases last : holders.getLast? = some place <;> simp [last]
  · rw [note, Keyed.get?_alter_of_ne (Ne.symm same)]
    simp [same]

/-- However often a package is noted for a place, the place is added once. -/
theorem getD_get?_foldl_note
    (place : Nat) (packages : Packages) (noted : List String) (package : String) :
    (Keyed.get? package (noted.foldl (note place) packages)).getD [] =
      let holders := (Keyed.get? package packages).getD []
      if package ∈ noted ∧ holders.getLast? ≠ some place then holders ++ [place]
      else holders := by
  induction noted generalizing packages with
  | nil => simp
  | cons first rest inductive_hypothesis =>
      rw [List.foldl_cons, inductive_hypothesis, getD_get?_note]
      generalize (Keyed.get? package packages).getD [] = holders
      by_cases same : first = package
      · by_cases last : holders.getLast? = some place <;> simp [same, last]
      · have other : package ≠ first := Ne.symm same
        simp [same, other]

/--
The packages of a classpath are those that its containers list: the places noted for
a package are in order, and lead to the containers that hold it.
-/
structure IsIndexed
    (disk : Disk) (classpath : Classpath) :
    Prop where
  opened : ∀ container ∈ classpath.containers, container.IsOpen disk
  ascending : ∀ package, (classpath.holders package).Pairwise (· < ·)
  within : ∀ package, ∀ place ∈ classpath.holders package,
    place < classpath.containers.length
  leads : ∀ package, (classpath.holders package).filterMap (classpath.containers[·]?) =
    classpath.containers.filter (·.holds disk package)

namespace IsIndexed

variable {disk : Disk} {classpath : Classpath}

/-- A container is noted behind those that were opened before it. -/
theorem holders_extended
    (indexed : IsIndexed disk classpath)
    (container : Container) (package : String) :
    (classpath.extended disk container).holders package =
      classpath.holders package ++
        if container.holds disk package then [classpath.containers.length] else [] := by
  have earlier : (classpath.holders package).getLast? ≠ some classpath.containers.length := by
    intro last
    have before := indexed.within package _ (List.mem_of_getLast? last)
    exact Nat.lt_irrefl _ before
  have noted := getD_get?_foldl_note classpath.containers.length classpath.packages
    (packagesOf (container.listing disk)) package
  refine noted.trans ?_
  by_cases held : container.holds disk package = true
  · have listed := List.contains_iff_mem.mp held
    simp only [held, if_true]
    exact if_pos ⟨listed, earlier⟩
  · have unlisted : package ∉ packagesOf (container.listing disk) :=
      fun member => held (List.contains_iff_mem.mpr member)
    rw [if_neg held, List.append_nil]
    exact if_neg fun both => unlisted both.1

protected theorem extended
    (indexed : IsIndexed disk classpath)
    {container : Container}
    (isOpen : container.IsOpen disk) :
    IsIndexed disk (classpath.extended disk container) := by
  have containers : (classpath.extended disk container).containers =
      classpath.containers ++ [container] := rfl
  constructor
  case opened =>
    intro other member
    rw [containers, List.mem_append, List.mem_singleton] at member
    rcases member with before | rfl
    · exact indexed.opened other before
    · exact isOpen
  case ascending =>
    intro package
    rw [indexed.holders_extended, List.pairwise_append]
    refine ⟨indexed.ascending package, ?_, ?_⟩
    · split_ifs
      · exact List.pairwise_singleton _ _
      · exact List.Pairwise.nil
    · intro place before last isLast
      split_ifs at isLast
      · rw [List.mem_singleton.mp isLast]
        exact indexed.within package place before
      · cases isLast
  case within =>
    intro package place member
    rw [indexed.holders_extended, List.mem_append] at member
    rw [containers, List.length_append, List.length_singleton]
    rcases member with before | isLast
    · exact Nat.lt_succ_of_lt (indexed.within package place before)
    · split_ifs at isLast
      · rw [List.mem_singleton.mp isLast]
        exact Nat.lt_succ_self _
      · cases isLast
  case leads =>
    intro package
    have before : (classpath.holders package).filterMap
          ((classpath.containers ++ [container])[·]?) =
        (classpath.holders package).filterMap (classpath.containers[·]?) := by
      apply List.filterMap_congr
      intro place member
      exact List.getElem?_append_left (indexed.within package place member)
    rw [indexed.holders_extended, containers, List.filterMap_append, List.filter_append,
      before, indexed.leads]
    by_cases held : container.holds disk package = true
    · simp [held]
    · simp [held]

end IsIndexed

/-- A name that starts with a slash, with a file for it at the root of the disk. -/
def Strays
    (disk : Disk) (name : TypeName) :
    Prop :=
  Files.Path.isAbsolute name.artifact = true ∧ (disk.read name.artifact).isOk = true

instance
    (disk : Disk) (name : TypeName) :
    Decidable (Strays disk name) :=
  inferInstanceAs (Decidable (_ ∧ _))

namespace Container.IsOpen

variable {disk : Disk} {container : Container}

end Container.IsOpen

/-! ## The order of a search -/

theorem ordered_perm
    (precedence : Precedence) (containers : List Container) :
    (ordered precedence containers).Perm containers := by
  cases precedence with
  | classpathOrder => exact List.Perm.refl containers
  | directoriesFirst =>
      refine List.Perm.trans ?_ (List.filter_append_perm Container.isDirectory containers)
      exact List.Perm.append_left _ (List.reverse_perm _)

/-- Only containers of the classpath are searched. -/
theorem candidates_subset
    (classpath : Classpath) (name : TypeName) :
    classpath.candidates name ⊆ classpath.containers := by
  intro container member
  rw [candidates, (ordered_perm _ _).mem_iff, List.mem_filterMap] at member
  rcases member with ⟨place, _, found⟩
  exact List.mem_of_getElem? found

namespace IsIndexed

variable {disk : Disk} {classpath : Classpath}

end IsIndexed

end TypeReach.Classpath
