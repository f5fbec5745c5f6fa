import TypeReach.Proofs.Analysis.Reopening
import TypeReach.Proofs.Index.Merging
import TypeReach.Proofs.Index.RoundTrip

/-!
# Emitted factories files read back

The factories file that a run emits is the text of an index that was built by
reading, merging and filtering.  Such an index is read back unchanged, with its
keys and values in their order, unless a key begins like a comment or the last
value of a key ends in an odd number of backslashes.
-/

namespace TypeReach

open Files (Disk)
open Index (Factories IndexSet)

/-! ## Indexes that are found -/

namespace Index.IndexSet

theorem reachable_addFactories
    {set added : IndexSet}
    {source text : String}
    (reached : set.factories.Reachable)
    (succeeded : set.addFactories source text = .ok added) :
    added.factories.Reachable := by
  rcases addFactories_eq_ok_iff.mp succeeded with ⟨file, read, rfl⟩
  exact .merged reached (.parsed read)

theorem reachable_discover
    {classpath : Classpath}
    {disk : Disk}
    {found : IndexSet}
    (discovered : discover classpath disk = .ok found) :
    found.factories.Reachable := by
  rcases exists_of_bind_eq_ok discovered with ⟨factoriesFiles, _, afterFactories⟩
  rcases exists_of_bind_eq_ok afterFactories with ⟨set, factoriesAdded, afterwards⟩
  rcases exists_of_bind_eq_ok afterwards with ⟨componentsFiles, _, componentsAdded⟩
  have reached : set.factories.Reachable :=
    of_foldlM_eq_ok (fun set => set.factories.Reachable)
      reachable_addFactories Factories.Reachable.empty factoriesAdded
  exact of_foldlM_eq_ok (fun set => set.factories.Reachable)
    (fun before added => (factories_addComponents added).symm ▸ before) reached componentsAdded

theorem reachable_loadFile
    {set loaded : IndexSet}
    {disk : Disk}
    {path : String}
    (reached : set.factories.Reachable)
    (succeeded : set.loadFile disk path = .ok loaded) :
    loaded.factories.Reachable := by
  unfold loadFile at succeeded
  split at succeeded
  · cases succeeded
  · split_ifs at succeeded
    · rwa [factories_addComponents succeeded]
    · exact reachable_addFactories reached succeeded

end Index.IndexSet

namespace Analysis

theorem reachable_indexes
    {analysis : Analysis}
    {disk : Disk}
    {found : IndexSet}
    (read : analysis.indexes disk = .ok found) :
    found.factories.Reachable := by
  rcases exists_of_bind_eq_ok read with ⟨discovered, onClasspath, listed⟩
  have reached := IndexSet.reachable_discover (inContext_eq_ok_iff.mp onClasspath)
  exact of_foldlM_eq_ok (fun set => set.factories.Reachable)
    (fun before loaded => IndexSet.reachable_loadFile before (inContext_eq_ok_iff.mp loaded))
    reached listed

end Analysis

/-! ## Files that are emitted -/

namespace Index.Factories

/--
An index that reading, merging and filtering can build is read back from its own
text, with the order of its keys and values, exactly when no key begins like a
comment and no key has a last value that ends in an odd number of backslashes.
The factories file that a run emits is the text of such an index.
-/
theorem parse_render :
    (∀ index : Factories, index.Reachable → ∀ source,
      (parse source index.render = .ok index ↔ ∀ entry ∈ index.entries, IsPlain entry)) ∧
    ∀ (analysis : Analysis) (disk : Disk) (found : IndexSet),
      analysis.indexes disk = .ok found →
      ∀ (decisions : Analysis.Decisions), ∀ file ∈ analysis.factoriesFile found decisions,
        let emitted := found.factories.filtered analysis.config.factoryKeys decisions.rejected
        file = (factoriesPath, emitted.render) ∧ emitted.Reachable ∧
          ((∀ entry ∈ emitted.entries, IsPlain entry) →
            ∀ source, parse source file.2 = .ok emitted) := by
  constructor
  · intro index reached source
    exact reached.isFormed.parse_render_iff source
  · intro analysis disk found read decisions file emits emitted
    have reached : emitted.Reachable := .filtered (Analysis.reachable_indexes read) _ _
    have isEmitted : file = (factoriesPath, emitted.render) := by
      unfold Analysis.factoriesFile at emits
      split_ifs at emits
      · cases emits
      · exact List.mem_singleton.mp emits
    refine ⟨isEmitted, reached, ?_⟩
    intro plain source
    rw [isEmitted]
    exact (reached.isFormed.parse_render_iff source).mpr plain

/-- A container with a factories file in which a line is continued. -/
def continuedFile : Disk :=
  ⟨[], [(["a.jar"], .archive ⟨[
    ⟨"META-INF/spring.factories",
      Text.Utf8.encode "k=a\\,b=c,\\\n#d\\\\\nm=\n".toList, .stored⟩], by decide⟩)]⟩

/--
Backslashes before a comma, an even number of them at the end, an equals sign
and a number sign in values are read back; a key with a number sign in front,
which a line after a lone backslash can have, is not.
-/
theorem parse_render_continuedFile :
    (∃ index commented,
      parse "a" "k=a\\,b=c,\\\n#d\\\\\nm=\n" = .ok index ∧
        index.entries = [("k", ["a\\", "b=c", "#d\\\\"]), ("m", [])] ∧
        parse "b" index.render = .ok index ∧
        parse "a" "\\\n#k=v\n" = .ok commented ∧
        commented.entries = [("#k", ["v"])] ∧
        parse "b" (index.merge commented).render ≠ .ok (index.merge commented)) ∧
      ∃ analysis found file,
        Analysis.prepare continuedFile { classpath := ["a.jar"] } = .ok analysis ∧
          analysis.indexes continuedFile = .ok found ∧
          file ∈ analysis.factoriesFile found ⟨none, [], []⟩ ∧
          parse "b" file.2 =
            .ok (found.factories.filtered analysis.config.factoryKeys []) := by
  constructor
  · have readIndex : parse "a" "k=a\\,b=c,\\\n#d\\\\\nm=\n" =
        .ok ⟨[("k", ["a\\", "b=c", "#d\\\\"]), ("m", [])]⟩ := by decide +kernel
    have readCommented : parse "a" "\\\n#k=v\n" = .ok ⟨[("#k", ["v"])]⟩ := by decide +kernel
    refine ⟨_, _, readIndex, rfl, ?_, readCommented, rfl, ?_⟩
    · exact (parse_render.1 _ (.parsed readIndex) "b").mpr (by decide +kernel)
    · rw [ne_eq, parse_render.1 _ (.merged (.parsed readIndex) (.parsed readCommented)) "b"]
      decide +kernel
  · rcases Analysis.exists_prepared continuedFile { classpath := ["a.jar"] }
        (fun analysis =>
          (analysis.indexes continuedFile).toOption.any (fun found =>
            ! found.factories.isEmpty && decide (∀ entry ∈
              (found.factories.filtered analysis.config.factoryKeys []).entries,
              IsPlain entry)) = true)
        (by decide +kernel) with
      ⟨analysis, prepared, computed⟩
    cases read : analysis.indexes continuedFile with
    | error failure =>
        rw [read] at computed
        cases computed
    | ok found =>
        rw [read] at computed
        rcases (Bool.and_eq_true _ _).mp computed with ⟨nonempty, plain⟩
        have emits : (factoriesPath, (found.factories.filtered analysis.config.factoryKeys
            []).render) ∈ analysis.factoriesFile found ⟨none, [], []⟩ := by
          rw [Analysis.factoriesFile, if_neg (by simpa using nonempty)]
          exact List.mem_singleton_self _
        rcases parse_render.2 analysis continuedFile found read ⟨none, [], []⟩ _ emits with
          ⟨_, _, readBack⟩
        exact ⟨analysis, found, _, prepared, read, emits, readBack (of_decide_eq_true plain) "b"⟩

end Index.Factories

end TypeReach
