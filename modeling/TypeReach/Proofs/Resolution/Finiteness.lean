import TypeReach.Proofs.Classpath.Packages
import TypeReach.Resolution.Sources

/-!
# Only finitely many types resolve

Whatever a look-up finds was read from the disk or from an archive that is kept
open, and the bytes that were read declare the very name that was looked up.
So there are no more resolvable names than contents, although a directory can
be reached by unboundedly many names.  The depth that sources allow is
therefore never used up by a traversal that enters each resolvable type once.
-/

namespace TypeReach

/-! ## What can be read -/

namespace Files

theorem Archive.mem_contents
    {archive : Archive} {entry : ArchiveEntry}
    (member : entry ∈ archive.entries) :
    entry.content ∈ archive.contents :=
  List.mem_map_of_mem member

theorem Archive.content?_mem
    {archive : Archive} {name : String} {bytes : List UInt8}
    (found : archive.content? name = some bytes) :
    bytes ∈ archive.contents := by
  rw [content?, Option.map_eq_some_iff] at found
  rcases found with ⟨entry, foundEntry, content⟩
  rw [← content]
  exact mem_contents (List.mem_of_find?_eq_some foundEntry)

/-- What is read in the place of an entry is its content. -/
theorem ArchiveEntry.readAt_eq
    {entry : ArchiveEntry} {start : Nat} {file bytes : List UInt8}
    (read : entry.readAt start file = .ok bytes) :
    bytes = entry.content := by
  simp only [readAt] at read
  split at read
  · cases read
  · split at read
    · rename_i same
      cases read
      exact same
    · cases read

theorem Archive.readFrom_mem
    {name : String} {file : List UInt8} {start : Nat}
    {entries : List ArchiveEntry} {bytes : List UInt8}
    (read : readFrom name file start entries = .ok (some bytes)) :
    bytes ∈ entries.map ArchiveEntry.content := by
  induction entries generalizing start with
  | nil => cases read
  | cons entry rest inductive_hypothesis =>
      simp only [readFrom] at read
      split at read
      · cases content : entry.readAt start file with
        | error refusal =>
            rw [content] at read
            cases read
        | ok found =>
            rw [content] at read
            cases read
            rw [ArchiveEntry.readAt_eq content]
            exact List.mem_cons_self
      · exact List.mem_cons_of_mem _ (inductive_hypothesis read)

namespace Disk

theorem nodeContents_subset
    {disk : Disk} {location : Location} {node : Node}
    (found : disk.node? location = some node) :
    nodeContents node ⊆ disk.contents := by
  simp only [node?] at found
  split at found
  · cases found
    exact List.nil_subset _
  · intro bytes member
    exact List.mem_flatMap.mpr ⟨_, Keyed.mem_of_get? found, member⟩

theorem nodeContents_subset_of_lookup
    {disk : Disk} {path : String} {node : Node}
    (found : disk.lookup path = .ok node) :
    nodeContents node ⊆ disk.contents := by
  rcases exists_of_bind_eq_ok found with ⟨location, _, held⟩
  split at held
  · rename_i holding
    cases held
    exact nodeContents_subset holding
  · cases held

theorem read_mem
    {disk : Disk} {path : String} {bytes : List UInt8}
    (read : disk.read path = .ok bytes) :
    bytes ∈ disk.contents := by
  rcases exists_of_bind_eq_ok read with ⟨node, found, given⟩
  have contained := nodeContents_subset_of_lookup found
  cases node with
  | directory => cases given
  | file held =>
      cases given
      exact contained List.mem_cons_self
  | archive held =>
      cases given
      exact contained List.mem_cons_self

end Disk

end Files

namespace Classpath

open Files (Archive Disk)

namespace Container

/-- The archive of a container is the one that it keeps open or one on the disk. -/
theorem archive_contents_subset
    {disk : Disk} {container : Container} {archive : Archive}
    (found : container.archive disk = .ok archive) :
    archive.contents ⊆ disk.contents ++ container.contents := by
  unfold Container.archive at found
  split at found
  · rename_i opened held
    cases found
    intro bytes member
    apply List.mem_append_right
    rw [contents, held]
    exact member
  · split at found
    · rename_i held
      cases found
      intro bytes member
      apply List.mem_append_left
      exact Disk.nodeContents_subset_of_lookup held
        (List.mem_cons_of_mem _ member)
    · cases found
    · cases found

theorem readArchive_mem
    {disk : Disk} {container : Container} {entry : String} {bytes : List UInt8}
    (read : container.readArchive disk entry = .ok (some bytes)) :
    bytes ∈ disk.contents ++ container.contents := by
  rcases exists_of_bind_eq_ok read with ⟨archive, found, given⟩
  apply archive_contents_subset found
  split at given
  · split at given
    · rename_i content readOver
      cases given
      exact Archive.readFrom_mem readOver
    · cases given
  · exact Archive.content?_mem (Except.ok.inj given)

theorem read_mem
    {disk : Disk} {container : Container} {entry : String} {bytes : List UInt8}
    (read : container.read disk entry = .ok (some bytes)) :
    bytes ∈ disk.contents ++ container.contents := by
  unfold Container.read at read
  split at read
  · split at read
    · rename_i found
      cases read
      exact List.mem_append_left _ (Disk.read_mem found)
    · cases read
    · cases read
  · exact readArchive_mem read

end Container

end Classpath

namespace Resolution

open Files (Disk)
open Classpath (Container)

/-! ## What a look-up finds -/

theorem probe_content
    {disk : Disk} {entry : String} {containers : List Container}
    {bytes : List UInt8}
    (found : (probe disk entry containers).content = .ok (some bytes)) :
    ∃ container ∈ containers, container.read disk entry = .ok (some bytes) := by
  induction containers with
  | nil => cases found
  | cons container rest inductive_hypothesis =>
      simp only [probe] at found
      split at found
      · rcases inductive_hypothesis found with ⟨later, member, read⟩
        exact ⟨later, List.mem_cons_of_mem _ member, read⟩
      · exact ⟨container, List.mem_cons_self, found⟩

theorem judge_eq_resolved
    {name : TypeName} {bytes : List UInt8} {decl : TypeDecl}
    (judged : judge name bytes = .resolved decl) :
    ClassFile.decode bytes = .ok decl ∧ decl.name = name := by
  unfold judge at judged
  split at judged
  · cases judged
  · rename_i decoded result
    split at judged
    · rename_i same
      cases judged
      exact ⟨result, same⟩
    · cases judged

namespace Sources

theorem probeFor_mem_contents
    {sources : Sources} {name : TypeName} {bytes : List UInt8}
    (found : (sources.probeFor name).content = .ok (some bytes)) :
    bytes ∈ sources.contents := by
  rcases probe_content found with ⟨container, member, read⟩
  have searched :
      container ∈ sources.classpath.containers ++ sources.platform.containers := by
    rcases List.mem_append.mp member with onClasspath | onPlatform
    · exact List.mem_append_left _
        (Classpath.candidates_subset _ name onClasspath)
    · exact List.mem_append_right _
        (Classpath.candidates_subset _ name onPlatform)
  rcases List.mem_append.mp (Container.read_mem read) with onDisk | opened
  · exact List.mem_append_left _ onDisk
  · exact List.mem_append_right _
      (List.mem_flatMap.mpr ⟨container, searched, opened⟩)

/-- A declaration that is found was decoded from some content and has the name asked for. -/
theorem lookup_eq_some
    {sources : Sources} {name : TypeName} {decl : TypeDecl}
    (found : sources.lookup name = some decl) :
    decl.name = name ∧
      ∃ bytes ∈ sources.contents, ClassFile.decode bytes = .ok decl := by
  unfold lookup load at found
  split at found
  · cases found
  · rename_i bytes content
    cases outcome : judge name bytes with
    | resolved declared =>
        rw [outcome] at found
        cases found
        have judged := judge_eq_resolved outcome
        exact ⟨judged.2, bytes, probeFor_mem_contents content, judged.1⟩
    | missing =>
        rw [outcome] at found
        cases found
    | corrupt reason =>
        rw [outcome] at found
        cases found
  · cases found

theorem sound_lookup
    (sources : Sources) :
    ∀ name decl, sources.lookup name = some decl → decl.name = name :=
  fun _ _ found => (lookup_eq_some found).1

/-- The names that contents declare. -/
def declared (sources : Sources) : List TypeName :=
  sources.contents.filterMap fun bytes =>
    ((ClassFile.decode bytes).toOption).map TypeDecl.name

theorem mem_declared
    {sources : Sources} {name : TypeName}
    (resolves : (sources.lookup name).isSome = true) :
    name ∈ sources.declared := by
  rcases Option.isSome_iff_exists.mp resolves with ⟨decl, found⟩
  rcases lookup_eq_some found with ⟨same, bytes, member, decoded⟩
  refine List.mem_filterMap.mpr ⟨bytes, member, ?_⟩
  rw [decoded, ← same]
  rfl

end Sources

/-! ## Depths that suffice -/

/-- A depth suffices for a look-up when fewer names than that have a declaration. -/
def Suffices (bound : Nat) (lookup : TypeName → Option TypeDecl) : Prop :=
  ∃ known : List TypeName, known.length < bound ∧
    ∀ name, (lookup name).isSome = true → name ∈ known

theorem Sources.suffices_depthBound (sources : Sources) :
    Suffices sources.depthBound sources.lookup := by
  refine ⟨sources.declared, ?_, fun _ resolves => mem_declared resolves⟩
  exact Nat.lt_succ_of_le (List.length_filterMap_le _ _)

end Resolution

end TypeReach
