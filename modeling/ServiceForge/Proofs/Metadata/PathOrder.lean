/-
This file proves that synthesis does not depend on the order in which a document lists its
paths. The operations are the same in another order and have the same kinds, so they make
the same claims: either some key is claimed twice or every resource has the same entries.
-/

import Mathlib.Data.List.Perm.Basic
import ServiceForge.Proofs.Metadata.Conflicts

namespace ServiceForge.Metadata

open ServiceForge.OpenApi (PathItem Spec)

/-! ### Operations in another order -/

section Documents

variable {first second : Spec} (same : first.paths.Perm second.paths) (service : String)

include same

theorem operations_perm : first.operations.Perm second.operations := same.flatMap_right _

/-- Which paths continue a path does not depend on their order. -/
theorem hasChildItem_perm (path : String) : first.hasChildItem path = second.hasChildItem path := by
  unfold Spec.hasChildItem OpenApi.hasChildItem
  exact (same.map Prod.fst).any_eq

theorem classified?_perm : classified? first service = classified? second service := by
  funext placed
  unfold classified? Classification.ofOperation
  rw [hasChildItem_perm same]

theorem classifiedOperations_perm :
    (classifiedOperations first service).Perm (classifiedOperations second service) := by
  unfold classifiedOperations
  rw [classified?_perm same]
  exact (operations_perm same).filterMap _

theorem ofResource_perm (key : String) :
    (ofResource (classifiedOperations first service) key).Perm
      (ofResource (classifiedOperations second service) key) :=
  (classifiedOperations_perm same service).filter _

theorem places_perm :
    ((contributions first service).map Contribution.place).Perm
      ((contributions second service).map Contribution.place) :=
  ((classifiedOperations_perm same service).flatMap_right _).map _

end Documents

/-! ### Resources -/

/-- Resources that differ at most in the order of their operations. -/
structure Alike (first second : ResourceEntry) : Prop where
  specFile : first.specFile = second.specFile
  apiVersion : first.apiVersion = second.apiVersion
  operations : first.operations.Perm second.operations
  extensions : first.extensions = second.extensions

/-- Operations in another order make a resource that is alike. -/
theorem resourceOf?_perm {operations others : List Classified} (same : operations.Perm others)
    (specFile version : String) :
    Option.Rel Alike (resourceOf? specFile (some version) operations)
      (resourceOf? specFile (some version) others) := by
  cases operations with
  | nil =>
    cases same.nil_eq
    exact .none
  | cons first rest =>
    cases others with
    | nil => exact absurd same.symm (List.not_perm_nil_cons first rest)
    | cons other more => exact .some ⟨rfl, rfl, same.flatMap_right _, rfl⟩

theorem lookupsOf_perm {operations others : OrderedMap OperationEntry}
    (same : List.Perm operations others) (distinct : operations.keys.Nodup) :
    lookupsOf operations = lookupsOf others := by
  unfold lookupsOf OrderedMap.contains
  simp only [OrderedMap.get?_perm same distinct]

/-- Resources that are alike stay so when lookups are added. -/
theorem Alike.addFind {first second : ResourceEntry} (alike : Alike first second)
    (distinct : first.operations.keys.Nodup) : Alike (addFind first) (addFind second) := by
  rw [addFind_eq, addFind_eq, lookupsOf_perm alike.operations distinct]
  exact ⟨alike.specFile, alike.apiVersion, alike.operations.append_right _, alike.extensions⟩

/-! ### Metadata -/

/-- Whether synthesis stops at a key that is claimed twice. -/
def Conflicts (result : Except GenerationError Metadata) : Prop :=
  ∃ resource key earlier later, result = .error (.nameConflict resource key earlier later)

variable {first second : Spec} {service specFile version : String}

/-- A document has metadata if the other one has. -/
theorem ok_of_perm (same : first.paths.Perm second.paths) {metadata : Metadata}
    (synthesized : synthesize first service specFile (some version) = .ok metadata) :
    ∃ others, synthesize second service specFile (some version) = .ok others := by
  cases result : synthesize second service specFile (some version) with
  | ok others => exact ⟨others, rfl⟩
  | error failure =>
    obtain ⟨earlier, later, repeats, -⟩ := conflict_of_synthesize result
    exact absurd ((places_perm same service).nodup (places_of_synthesize synthesized).1)
      repeats.not_nodup

/-- Where both documents have metadata, the resources are alike. -/
theorem alike_of_perm (same : first.paths.Perm second.paths) {metadata others : Metadata}
    (synthesized : synthesize first service specFile (some version) = .ok metadata)
    (again : synthesize second service specFile (some version) = .ok others) (key : String) :
    Option.Rel Alike (metadata.resources.get? key) (others.resources.get? key) := by
  obtain ⟨resources, -, gathers⟩ := gathers_of_synthesize synthesized
  have rel := resourceOf?_perm (ofResource_perm same service key) specFile version
  have distinct : ∀ resource, resourceOf? specFile (some version)
      (ofResource (classifiedOperations first service) key) = some resource →
        resource.operations.keys.Nodup := by
    intro resource found
    rw [(resourceOf?_eq_some found).2.1]
    exact gathers.keys key
  rw [contents_of_synthesize synthesized, contents_of_synthesize again]
  generalize resourceOf? specFile (some version)
    (ofResource (classifiedOperations first service) key) = held at rel distinct
  generalize resourceOf? specFile (some version)
    (ofResource (classifiedOperations second service) key) = other at rel
  cases rel with
  | none => exact .none
  | some alike => exact .some (alike.addFind (distinct _ rfl))

theorem keys_perm_of_alike {resources others : OrderedMap ResourceEntry}
    (distinct : resources.keys.Nodup) (distinctOthers : others.keys.Nodup)
    (alike : ∀ key, Option.Rel Alike (resources.get? key) (others.get? key)) :
    resources.keys.Perm others.keys := by
  refine (List.perm_ext_iff_of_nodup distinct distinctOthers).mpr fun key => ?_
  rw [← OrderedMap.isSome_get?, ← OrderedMap.isSome_get?]
  have rel := alike key
  generalize resources.get? key = held at rel
  generalize others.get? key = other at rel
  cases rel <;> simp

/-- Documents that differ in the order of their paths have the same metadata up to the order of
entries, or both have none for a key that is claimed twice. -/
theorem synthesize_perm (same : first.paths.Perm second.paths) (service specFile version : String) :
    (Conflicts (synthesize first service specFile (some version)) ∧
      Conflicts (synthesize second service specFile (some version))) ∨
    ∃ metadata others, synthesize first service specFile (some version) = .ok metadata ∧
      synthesize second service specFile (some version) = .ok others ∧
        metadata.resources.keys.Nodup ∧ metadata.resources.keys.Perm others.resources.keys ∧
          ∀ key, Option.Rel Alike (metadata.resources.get? key) (others.resources.get? key) := by
  cases result : synthesize first service specFile (some version) with
  | ok metadata =>
    obtain ⟨others, again⟩ := ok_of_perm same result
    have alike := alike_of_perm same result again
    have distinct := nodup_of_synthesize result
    exact Or.inr ⟨metadata, others, rfl, again, distinct,
      keys_perm_of_alike distinct (nodup_of_synthesize again) alike, alike⟩
  | error failure =>
    cases again : synthesize second service specFile (some version) with
    | ok others =>
      obtain ⟨metadata, succeeds⟩ := ok_of_perm same.symm again
      cases result.symm.trans succeeds
    | error reason =>
      obtain ⟨earlier, later, -, rfl⟩ := conflict_of_synthesize result
      obtain ⟨earlier', later', -, rfl⟩ := conflict_of_synthesize again
      exact Or.inl ⟨⟨_, _, _, _, rfl⟩, ⟨_, _, _, _, rfl⟩⟩

/-- Servers that can be listed and shown, by paths in either order. -/
def serverSpec (paths : List (String × PathItem)) : Spec where
  version := "3.1.0"
  paths

/-- The path that servers are listed by. -/
def listPath : String × PathItem :=
  ("/v2/servers", PathItem.setOperation {} .get { id := some "list" })

/-- The path that a server is shown by. -/
def showPath : String × PathItem :=
  ("/v2/servers/\x7bid\x7d", PathItem.setOperation {} .get { id := some "show" })

theorem synthesize_perm_servers :
    let listed := serverSpec [listPath, showPath]
    let shown := serverSpec [showPath, listPath]
    ∃ metadata others, listed.paths.Perm shown.paths ∧
      synthesize listed "compute" "v2.yaml" (some "v2") = .ok metadata ∧
        synthesize shown "compute" "v2.yaml" (some "v2") = .ok others ∧
          Option.Rel Alike (metadata.resources.get? "compute.servers")
            (others.resources.get? "compute.servers") := by
  intro listed shown
  have same : listed.paths.Perm shown.paths := .swap showPath listPath []
  have succeeds : (synthesize listed "compute" "v2.yaml" (some "v2")).toOption.isSome = true := by
    decide +kernel
  rcases synthesize_perm same "compute" "v2.yaml" "v2" with
    ⟨⟨_, _, _, _, stops⟩, -⟩ | ⟨metadata, others, result, again, -, -, alike⟩
  · rw [stops] at succeeds
    cases succeeds
  · exact ⟨metadata, others, same, result, again, alike "compute.servers"⟩

end ServiceForge.Metadata
