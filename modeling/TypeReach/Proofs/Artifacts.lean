import Mathlib.Data.List.Forall2
import Mathlib.Data.List.Nodup
import TypeReach.Artifacts
import TypeReach.Proofs.Reach.Registrations
import TypeReach.Proofs.TypeName

/-!
# Reflection settings

The reflection settings list the registered types, one object to a type.  The
object of a type has its dotted name and the flags of its capabilities, and
these are all that was ever asked for the type, in whatever order.

Types are kept in the order of their slashed names but shown by their dotted
ones.  Where the names were read, the shown names are in ascending order too, and
none of them is shown twice.  For other names that need not be so: `a.b` and
`a/b` are shown alike.
-/

namespace TypeReach

/-! ## Flags -/

namespace Capability

theorem mem_all (capability : Capability) : capability ∈ all := by
  cases capability <;> decide

theorem ofFlag?_flag (capability : Capability) : ofFlag? capability.flag = some capability := by
  cases capability <;> decide

theorem flag_injective : Function.Injective flag := by
  intro left right same
  have read := ofFlag?_flag left
  rw [same, ofFlag?_flag] at read
  exact (Option.some.inj read).symm

theorem flag_ne_name (capability : Capability) : capability.flag ≠ "name" := by
  cases capability <;> decide

end Capability

namespace CapabilitySet

theorem mem_toList_iff
    {set : CapabilitySet} {capability : Capability} :
    capability ∈ set.toList ↔ set.contains capability = true := by
  rw [toList, List.mem_filter]
  exact and_iff_right capability.mem_all

theorem mem_flags_iff
    {set : CapabilitySet} {flag : String} :
    flag ∈ set.flags ↔ ∃ capability, set.contains capability = true ∧ capability.flag = flag := by
  rw [flags, List.mem_map]
  simp only [mem_toList_iff]

theorem nodup_flags (set : CapabilitySet) : set.flags.Nodup := by
  have distinct : Capability.all.Nodup := by decide
  exact List.Nodup.map Capability.flag_injective (List.Nodup.filter _ distinct)

end CapabilitySet

namespace Artifacts

open Reach (Registry Request requested requested_eq_some_iff)

/-! ## Objects of types -/

/--
An object describes a type with some capabilities: it has the dotted name, `true`
under the flag of each capability, no other field and no field twice.
-/
structure Describes (object : Json) (name : TypeName) (granted : Capability → Prop) : Prop where
  fields : ∃ fields, object = .object fields ∧ (Keyed.keys fields).Nodup ∧
    ∀ field, field ∈ fields ↔
      field = ("name", .text name.dotted) ∨
        ∃ capability, granted capability ∧ field = (capability.flag, .bool true)

theorem describes_reflectEntry (entry : TypeName × CapabilitySet) :
    Describes (reflectEntry entry) entry.1 (entry.2.contains · = true) := by
  let flags := entry.2.flags.mergeSort fun left right => decide (left ≤ right)
  have sameFlags : flags.Perm entry.2.flags := List.mergeSort_perm _ _
  refine ⟨flags.map (·, .bool true) ++ [("name", .text entry.1.dotted)], rfl, ?_, ?_⟩
  · have shown : Keyed.keys (flags.map (·, Json.bool true) ++ [("name", .text entry.1.dotted)]) =
        flags ++ ["name"] := by
      simp [Keyed.keys, Function.comp_def]
    rw [shown]
    refine List.nodup_append.mpr ⟨sameFlags.nodup_iff.mpr (entry.2.nodup_flags), by simp, ?_⟩
    intro flag member added isAdded same
    rcases CapabilitySet.mem_flags_iff.mp (sameFlags.mem_iff.mp member) with
      ⟨capability, _, isFlag⟩
    apply capability.flag_ne_name
    rw [isFlag, same, List.mem_singleton.mp isAdded]
  · intro field
    rw [List.mem_append, List.mem_singleton, or_comm, List.mem_map]
    apply or_congr_right
    constructor
    · rintro ⟨flag, member, rfl⟩
      rcases CapabilitySet.mem_flags_iff.mp (sameFlags.mem_iff.mp member) with
        ⟨capability, granted, rfl⟩
      exact ⟨capability, granted, rfl⟩
    · rintro ⟨capability, granted, rfl⟩
      have member := CapabilitySet.mem_flags_iff.mpr ⟨capability, granted, rfl⟩
      exact ⟨capability.flag, sameFlags.mem_iff.mpr member, rfl⟩

/-! ## Types that are registered one after the other -/

/-- Ask for capabilities of types, one request after the other. -/
def registerTypes (artifacts : Artifacts) (requests : List Request) : Artifacts :=
  requests.foldl (fun artifacts request => artifacts.registerType request.1 request.2) artifacts

theorem types_registerTypes (artifacts : Artifacts) (requests : List Request) :
    (artifacts.registerTypes requests).types = artifacts.types.registerAll requests :=
  (List.foldl_hom Artifacts.types fun _ _ => rfl).symm

/-- The order of requests makes no difference to the settings. -/
theorem reflectConfig_registerTypes_perm
    (artifacts : Artifacts)
    {first second : List Request}
    (permutation : first.Perm second) :
    (artifacts.registerTypes first).reflectConfig =
      (artifacts.registerTypes second).reflectConfig := by
  rw [reflectConfig, reflectConfig, types_registerTypes, types_registerTypes,
    Registry.registerAll_perm _ permutation]

/-- What is asked for a name is what the settings grant it. -/
theorem describes_of_mem
    {requests : List Request}
    {entry : TypeName × CapabilitySet}
    (member : entry ∈ (Registry.empty.registerAll requests).entries) :
    Describes (reflectEntry entry) entry.1 fun capability =>
      ∃ asked, (entry.1, asked) ∈ requests ∧ asked.contains capability = true := by
  have found : requested entry.1 requests = some entry.2 := by
    rw [← Registry.get?_registerAll_empty]
    exact Registry.mem_entries_iff.mp member
  have granted : (entry.2.contains · = true) = fun capability =>
      ∃ asked, (entry.1, asked) ∈ requests ∧ asked.contains capability = true :=
    funext fun capability => propext ((requested_eq_some_iff.mp found).2 capability)
  rw [← granted]
  exact describes_reflectEntry entry

/--
Whatever the order of requests for names that were read, the settings are the
same.  They have one object for each name that was asked for, with all that was
asked for it and nothing else, and the names shown are in strictly ascending
order of their bytes.
-/
theorem reflectConfig_registerTypes
    {artifacts : Artifacts}
    (unregistered : artifacts.types = .empty)
    {requests : List Request}
    (read : ∀ request ∈ requests, ∃ raw, TypeName.parse? raw = some request.1) :
    (∀ reordered : List Request, reordered.Perm requests →
      (artifacts.registerTypes reordered).reflectConfig =
        (artifacts.registerTypes requests).reflectConfig) ∧
    ∃ names objects,
      (artifacts.registerTypes requests).reflectConfig = .array objects ∧
      List.Forall₂
        (fun name object => Describes object name fun capability =>
          ∃ asked, (name, asked) ∈ requests ∧ asked.contains capability = true)
        names objects ∧
      (∀ name, name ∈ names ↔ ∃ asked, (name, asked) ∈ requests) ∧
      names.Nodup ∧
      names.Pairwise (fun left right =>
        Text.Utf8.encode left.slashed.toList < Text.Utf8.encode right.slashed.toList) ∧
      names.Pairwise (fun left right =>
        Text.Utf8.encode left.dotted.toList < Text.Utf8.encode right.dotted.toList) := by
  refine ⟨fun _ => artifacts.reflectConfig_registerTypes_perm, ?_⟩
  have registered : (artifacts.registerTypes requests).types =
      Registry.empty.registerAll requests := by
    rw [types_registerTypes, unregistered]
  let registry := Registry.empty.registerAll requests
  have undotted : ∀ name ∈ Keyed.keys registry.entries, '.' ∉ name.slashed.toList := by
    intro name member
    rcases Registry.mem_keys_registerAll_empty_iff.mp member with ⟨asked, requested⟩
    rcases read _ requested with ⟨raw, isRead⟩
    exact TypeName.dot_not_mem_of_parseChars? isRead
  have inOrder := registry.pairwise_slashed
  refine ⟨Keyed.keys registry.entries, registry.entries.map reflectEntry, ?_, ?_,
    fun _ => Registry.mem_keys_registerAll_empty_iff, registry.nodup_keys, ?_, ?_⟩
  · rw [reflectConfig, registered]
  · rw [Keyed.keys, List.forall₂_map_left_iff, List.forall₂_map_right_iff, List.forall₂_same]
    exact fun entry member => describes_of_mem member
  · exact inOrder.imp Text.Utf8.encode_lt_encode_iff.mpr
  · refine inOrder.imp_of_mem ?_
    intro left right inLeft inRight before
    exact Text.Utf8.encode_lt_encode_iff.mpr
      (TypeName.dotted_lt_dotted (undotted left inLeft) (undotted right inRight) before)

/-- Requests for three names, one of which was read in two spellings. -/
def spelledRequests : List Request :=
  [(⟨"a0"⟩, .configuration), (⟨"a/b"⟩, .component), (⟨"a-b"⟩, .empty),
    (⟨"a/b"⟩, .ofList [.publicFields])]

/-- A hyphen precedes the dot and a digit follows the slash, so `a.b` is shown between the others. -/
theorem reflectConfig_registerTypes_spelledRequests :
    (∀ request ∈ spelledRequests, ∃ raw, TypeName.parse? raw = some request.1) ∧
      (empty.registerTypes spelledRequests.reverse).reflectConfig =
        (empty.registerTypes spelledRequests).reflectConfig ∧
      ∃ (names : List TypeName) (objects : List Json),
        (empty.registerTypes spelledRequests).reflectConfig = .array objects ∧
        names.length = objects.length ∧
        (∀ name, name ∈ names ↔ name ∈ [⟨"a-b"⟩, ⟨"a/b"⟩, ⟨"a0"⟩]) ∧
        names.Pairwise (fun left right =>
          Text.Utf8.encode left.dotted.toList < Text.Utf8.encode right.dotted.toList) := by
  have read : ∀ request ∈ spelledRequests, ∃ raw, TypeName.parse? raw = some request.1 := by
    simp only [spelledRequests, List.forall_mem_cons]
    exact ⟨⟨"a0", by decide +kernel⟩, ⟨" La.b; ", by decide +kernel⟩, ⟨"a-b", by decide +kernel⟩,
      ⟨"[La/b;", by decide +kernel⟩, by simp⟩
  rcases @reflectConfig_registerTypes empty rfl _ read with
    ⟨anyOrder, names, objects, settings, described, members, _, _, ascending⟩
  refine ⟨read, anyOrder _ (List.reverse_perm _), names, objects, settings,
    described.length_eq, ?_, ascending⟩
  intro name
  rw [members]
  grind [spelledRequests]

end Artifacts

end TypeReach
