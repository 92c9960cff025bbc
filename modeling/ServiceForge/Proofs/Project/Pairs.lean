/-
This file finds the entries of one operation in the metadata of its document. They
stand together, in the order in which they are made, in the only resource with the key
of the operation; lookups, which call other operations, are told apart.
-/

import Mathlib.Data.List.Flatten
import ServiceForge.Proofs.Metadata.Entries
import ServiceForge.Project.Plan

namespace ServiceForge.Project

open ServiceForge.Metadata
open ServiceForge.OpenApi (PlacedOperation Spec)

/-! ### Identities -/

/-- A resource is found again under its key unless its service has a point. -/
theorem ofKey_key {resource : Resource.Id} (plain : '.' ∉ resource.service.toList) :
    Resource.Id.ofKey resource.key = resource := by
  obtain ⟨service, name⟩ := resource
  have whole : (Resource.Id.key ⟨service, name⟩).toList = service.toList ++ '.' :: name.toList := by
    simp [Resource.Id.key]
  have before : ∀ character ∈ service.toList, decide (character ≠ '.') = true := by
    intro character member
    refine decide_eq_true fun same => ?_
    exact plain (same ▸ member)
  unfold Resource.Id.ofKey Text.splitOnce?
  simp only [whole]
  rw [if_pos (by simp), List.takeWhile_append_of_pos before, List.dropWhile_append_of_pos before]
  simp

/-! ### Pairs of an operation -/

/-- The operation of an entry for the client library. -/
def ofEntry (resource : Resource.Id) (held : ResourceEntry) (entry : String × OperationEntry) :
    Option Pair :=
  (entry.2.targets.lookup .sdk).map fun parameters =>
    { resource, entry := held, key := entry.1, operation := entry.2, parameters }

/-- Whether a pair is made from an entry of the given operation that is no added lookup. -/
def isOwn (operation : String) (pair : Pair) : Bool :=
  decide (pair.operation.operation = operation) && pair.parameters.listOperation.isNone

theorem pairs_sdk (resources : List (Resource.Id × ResourceEntry)) :
    pairs .sdk resources =
      resources.flatMap fun entry => entry.2.operations.filterMap (ofEntry entry.1 entry.2) := rfl

/-- The lookup of a resource is no entry of its own for any operation. -/
theorem filter_lookupsOf (operations : OrderedMap OperationEntry) (resource : Resource.Id)
    (held : ResourceEntry) (operation : String) :
    ((lookupsOf operations).filterMap (ofEntry resource held)).filter (isOwn operation) = [] := by
  refine List.filter_eq_nil_iff.mpr fun pair member => ?_
  obtain ⟨entry, inside, made⟩ := List.mem_filterMap.mp member
  obtain ⟨-, list, showItem, -, -, rfl⟩ := eq_of_mem_lookupsOf inside
  cases made
  simp [isOwn]

section Operation

variable {operation leaf : String} {placed : PlacedOperation} {kind : Kind}
  {resource : Resource.Id} {held : ResourceEntry}

/-- A pair made from an entry of an operation names the operation and takes nothing from the
metadata but the resource. -/
theorem eq_of_mem_filterMap_ofEntry {pair : Pair}
    (member : pair ∈ (entriesOf placed operation kind leaf).filterMap (ofEntry resource held)) :
    pair.entry = held ∧ pair.operation.operation = operation ∧ pair.operation.specFile = none ∧
      pair.parameters.listOperation = none := by
  obtain ⟨entry, inside, made⟩ := List.mem_filterMap.mp member
  obtain ⟨_, _, _, same⟩ := eq_of_mem_entriesOf inside
  unfold ofEntry at made
  rw [same] at made
  cases made
  exact ⟨rfl, rfl, rfl, rfl⟩

/-- The pairs made from the entries of an operation are its own. -/
theorem filter_ofEntry_same :
    ((entriesOf placed operation kind leaf).filterMap (ofEntry resource held)).filter
        (isOwn operation) =
      (entriesOf placed operation kind leaf).filterMap (ofEntry resource held) := by
  refine List.filter_eq_self.mpr fun pair member => ?_
  obtain ⟨-, named, -, noLookup⟩ := eq_of_mem_filterMap_ofEntry member
  simp [isOwn, named, noLookup]

/-- The pairs made from the entries of another operation are not. -/
theorem filter_ofEntry_other {other : String} (apart : operation ≠ other) :
    ((entriesOf placed operation kind leaf).filterMap (ofEntry resource held)).filter
        (isOwn other) = [] := by
  refine List.filter_eq_nil_iff.mpr fun pair member => ?_
  obtain ⟨-, named, -, -⟩ := eq_of_mem_filterMap_ofEntry member
  simp [isOwn, named, apart]

/-- The document of a pair made from an entry of an operation is that of the resource. -/
theorem specFile_of_mem {directory : String} {pair : Pair}
    (member : pair ∈ (entriesOf placed operation kind leaf).filterMap (ofEntry resource held)) :
    specFile directory pair.entry pair.operation = FilePath.join directory held.specFile := by
  obtain ⟨same, -, none, -⟩ := eq_of_mem_filterMap_ofEntry member
  rw [specFile, same, none, Option.getD_none]

end Operation

/-- The own pairs of a resource are those made from the entries of the operation, if the operation
belongs to the resource. -/
theorem own_of_resource {operations : List Classified} {classified : Classified}
    {specFile key : String} {apiVersion : Option String} {held : ResourceEntry}
    (distinct : (operations.map Classified.operation).Nodup) (member : classified ∈ operations)
    (found : resourceOf? specFile apiVersion (ofResource operations key) = some held)
    (resource : Resource.Id) :
    ((addFind held).operations.filterMap (ofEntry resource (addFind held))).filter
        (isOwn classified.operation) =
      if classified.resource.key = key then
        classified.entries.filterMap (ofEntry resource (addFind held))
      else [] := by
  have contents : (addFind held).operations =
      (ofResource operations key).flatMap Classified.entries ++ lookupsOf held.operations := by
    rw [addFind_eq, (resourceOf?_eq_some found).2.1]
  rw [contents, List.filterMap_append, List.filter_append, filter_lookupsOf, List.append_nil,
    List.filterMap_flatMap, List.filter_flatMap]
  split
  · next same =>
    have once : ((ofResource operations key).map Classified.operation).Nodup :=
      (List.filter_sublist.map Classified.operation).nodup distinct
    have inside : classified ∈ ofResource operations key :=
      List.mem_filter.mpr ⟨member, decide_eq_true same⟩
    exact (Generation.flatMap_of_unique once inside
      fun other _ apart => filter_ofEntry_other apart).trans filter_ofEntry_same
  · next different =>
    refine List.flatMap_eq_nil_iff.mpr fun other inside => filter_ofEntry_other fun same => ?_
    obtain ⟨held, ofKey⟩ := List.mem_filter.mp inside
    have equal := List.inj_on_of_nodup_map distinct held member same
    exact different (equal ▸ of_decide_eq_true ofKey)

theorem flatMap_filter {α β : Type} (condition : α → Bool) (give : α → List β) (members : List α) :
    (members.filter condition).flatMap give =
      members.flatMap fun member => if condition member then give member else [] := by
  induction members with
  | nil => rfl
  | cons member rest inductionHypothesis =>
    cases holds : condition member <;> simp [holds, inductionHypothesis]

/-- The own pairs of an operation among those that a request selects. -/
theorem own_of_selection {spec : Spec} {service specFile version : String} {metadata : Metadata}
    {request : Request} {classified : Classified}
    (synthesized : synthesize spec service specFile (some version) = .ok metadata)
    (distinct : (spec.operations.filterMap (·.operation.id)).Nodup)
    (plain : '.' ∉ classified.resource.service.toList)
    (member : classified ∈ classifiedOperations spec service)
    (selected : request.selects classified.resource = true) :
    ∃ held : ResourceEntry, held.specFile = specFile ∧ held.apiVersion = some version ∧
      (pairs .sdk (request.selection metadata)).filter (isOwn classified.operation) =
        classified.entries.filterMap (ofEntry classified.resource held) ∧
      (OrderedMap.keys classified.entries).Nodup := by
  obtain ⟨resources, given, gathers⟩ := gathers_of_synthesize synthesized
  have operations : ((classifiedOperations spec service).map Classified.operation).Nodup :=
    nodup_classifiedOperations distinct
  have inResource : classified ∈
      ofResource (classifiedOperations spec service) classified.resource.key :=
    List.mem_filter.mpr ⟨member, decide_eq_true rfl⟩
  obtain ⟨held, found⟩ : ∃ held, resourceOf? specFile (some version)
      (ofResource (classifiedOperations spec service) classified.resource.key) = some held :=
    Option.isSome_iff_exists.mp (isSome_resourceOf? inResource)
  obtain ⟨file, -, versioned⟩ := resourceOf?_eq_some found
  refine ⟨addFind held, by rw [addFind_eq]; exact file, by rw [addFind_eq]; exact versioned _ rfl,
    ?_, ?_⟩
  · have selection : request.selection metadata =
        (resources.map fun entry => (Resource.Id.ofKey entry.1, addFind entry.2)).filter
          fun entry => request.selects entry.1 := by
      unfold Request.selection
      rw [given, OrderedMap.mapValues, List.map_map]
      rfl
    have present : (classified.resource.key, held) ∈ resources :=
      OrderedMap.mem_of_get? ((gathers.resource _).trans found)
    rw [pairs_sdk, selection, List.filter_flatMap, flatMap_filter, List.flatMap_map]
    refine (Generation.flatMap_of_unique gathers.distinct present
      fun other inside apart => ?_).trans ?_
    · have heldOther := (gathers.resource _).symm.trans
        (OrderedMap.get?_of_mem gathers.distinct inside)
      have own := own_of_resource operations member heldOther (Resource.Id.ofKey other.1)
      rw [if_neg (Ne.symm apart)] at own
      simp only [own, ite_self]
    · have own := own_of_resource operations member found classified.resource
      rw [if_pos rfl] at own
      simp only [ofKey_key plain, selected, if_true]
      exact own
  · have keys := gathers.keys classified.resource.key
    have part := List.Sublist.flatMap (List.singleton_sublist.mpr inResource) Classified.entries
    rw [List.flatMap_singleton] at part
    exact (part.map Prod.fst).nodup keys

end ServiceForge.Project
