/-
This file proves what a successful synthesis makes of the operations of a document. Each
resource holds the entries of its operations one after another, and the lookup if one is
added, and nothing else. An operation has one entry, under its kind. An endpoint for
actions has one for each branch of its body, provided that there is more than one branch
and each has a name; other endpoints for actions lose branches.
-/

import Mathlib.Data.List.Forall2
import ServiceForge.Proofs.Classification
import ServiceForge.Proofs.Metadata.Entries

namespace ServiceForge.Metadata

open ServiceForge.Generation (Variant actionName?)
open ServiceForge.Generation.Variant (IsActions actionOf)
open ServiceForge.OpenApi (PathItem PlacedOperation Schema Spec)

namespace Classified

/-- Whether an operation is an endpoint for actions whose body in JSON is a union of them. -/
def isActionEndpoint (operation : Classified) : Bool :=
  isActionUnion operation.kind (bodySchema? operation.placed)

/-- The branches of the body of an operation, null aside. -/
def branches (operation : Classified) : List Schema :=
  (bodySchema? operation.placed).elim [] Schema.nonNullBranches

/-- An entry names an operation by its id and has its kind. -/
def Names (operation : Classified) (entry : OperationEntry) : Prop :=
  entry.operation = operation.operation ∧ entry.kind = some operation.kind

/-- An entry stands for a branch of an operation, under the name of its action. -/
def NamesBranch (operation : Classified) (branch : Schema) (entry : String × OperationEntry) :
    Prop :=
  operation.Names entry.2 ∧
    ∃ action, actionName? branch = some action ∧ entry.1 = Naming.moduleName action

/-- Entries stand for an operation: one under its kind or, if it is an endpoint for actions, one
for each branch. -/
def Represents (operation : Classified) (entries : List (String × OperationEntry)) : Prop :=
  if operation.isActionEndpoint then
    List.Forall₂ operation.NamesBranch operation.branches entries
  else
    ∃ entry, entries = [(Naming.moduleName operation.kind.name, entry)] ∧ operation.Names entry

/-- The branches of an endpoint for actions are told apart: there are none, or several, each with
the name of an action. -/
def Splits (operation : Classified) : Prop :=
  operation.isActionEndpoint = true → operation.branches = [] ∨
    (2 ≤ operation.branches.length ∧
      ∀ branch ∈ operation.branches, (actionName? branch).isSome = true)

variable {operation : Classified}

theorem exists_union (endpoint : operation.isActionEndpoint = true) :
    ∃ schema, bodySchema? operation.placed = some schema ∧
      schema.annotation? "discriminator" = some "action" ∧
        operation.branches = schema.nonNullBranches := by
  unfold isActionEndpoint at endpoint
  cases body : bodySchema? operation.placed with
  | none =>
    rw [body] at endpoint
    simp [isActionUnion] at endpoint
  | some schema =>
    rw [body] at endpoint
    refine ⟨schema, rfl, (isActionUnion_some.mp endpoint).2, ?_⟩
    rw [branches, body, Option.elim_some]

/-- A body with fewer than two branches is not split, so that no action is found in it. -/
theorem entries_of_few (endpoint : operation.isActionEndpoint = true)
    (few : operation.branches.length < 2) : operation.entries = [] := by
  obtain ⟨schema, body, -, same⟩ := exists_union endpoint
  rw [same] at few
  unfold isActionEndpoint at endpoint
  unfold Classified.entries entriesOf
  simp only [body] at endpoint ⊢
  rw [if_pos endpoint, Variant.all]
  simp [few, entryOfAction?]

/-- An operation that is no endpoint for actions has one entry. -/
theorem represents_whole (single : operation.isActionEndpoint = false) :
    operation.Represents operation.entries := by
  unfold Represents Classified.entries
  rw [if_neg (ne_true_of_eq_false single), entriesOf_single single]
  exact ⟨_, rfl, rfl, rfl⟩

/-- Entries for all branches name the action of each. -/
theorem isSome_of_represents {entries : List (String × OperationEntry)}
    (each : List.Forall₂ operation.NamesBranch operation.branches entries) :
    ∀ branch ∈ operation.branches, (actionName? branch).isSome = true := by
  have named : List.Forall₂ (fun branch _ => (actionName? branch).isSome = true ∧ True)
      operation.branches entries := by
    refine each.imp fun branch entry stands => ⟨?_, trivial⟩
    obtain ⟨-, action, named, -⟩ := stands
    rw [named]
    rfl
  exact ((List.forall₂_and_left _ _).mp named).1

/-- Several branches that all have names have one entry each. -/
theorem represents_branches (endpoint : operation.isActionEndpoint = true)
    (several : 2 ≤ operation.branches.length)
    (named : ∀ branch ∈ operation.branches, (actionName? branch).isSome = true) :
    operation.Represents operation.entries := by
  obtain ⟨schema, body, discriminator, same⟩ := exists_union endpoint
  have actions : IsActions schema := ⟨same ▸ several, discriminator, same ▸ named⟩
  unfold isActionEndpoint at endpoint
  unfold Represents Classified.entries
  rw [body] at endpoint
  rw [if_pos (by rw [isActionEndpoint, body]; exact endpoint),
    entriesOf_actions body endpoint actions, same, List.forall₂_map_right_iff, List.forall₂_same]
  intro branch member
  obtain ⟨action, isAction⟩ := Option.isSome_iff_exists.mp (actions.named branch member)
  refine ⟨⟨rfl, rfl⟩, action, isAction, ?_⟩
  simp [branchEntry, actionOf, isAction]

/-- The entries of an operation stand for it exactly if its branches are told apart. -/
theorem represents_iff : operation.Represents operation.entries ↔ operation.Splits := by
  cases endpoint : operation.isActionEndpoint with
  | false =>
    refine iff_of_true (represents_whole endpoint) fun union => ?_
    rw [endpoint] at union
    cases union
  | true =>
    rcases Nat.lt_or_ge operation.branches.length 2 with few | several
    · rw [Represents, if_pos endpoint, entries_of_few endpoint few, List.forall₂_nil_right_iff]
      exact ⟨fun empty _ => Or.inl empty, fun splits =>
        (splits endpoint).resolve_right fun told => Nat.not_lt.mpr told.1 few⟩
    · constructor
      · intro represents _
        rw [Represents, if_pos endpoint] at represents
        exact Or.inr ⟨several, isSome_of_represents represents⟩
      · intro splits
        rcases splits endpoint with empty | ⟨-, named⟩
        · rw [empty] at several
          cases several
        · exact represents_branches endpoint several named

end Classified

/-! ### Whole documents -/

variable {spec : Spec} {service specFile : String} {apiVersion : Option String}
  {metadata : Metadata}

/-- A lookup is added under a key that no entry has. -/
theorem nodup_keys_lookups {operations : OrderedMap OperationEntry}
    (distinct : operations.keys.Nodup) : (operations ++ lookupsOf operations).keys.Nodup := by
  rw [OrderedMap.keys, List.map_append]
  refine List.nodup_append.mpr ⟨distinct, ?_, ?_⟩
  · unfold lookupsOf
    split
    · split <;> simp
    · exact List.nodup_nil
  · intro name old other added same
    obtain ⟨entry, inside, rfl⟩ := List.mem_map.mp added
    obtain ⟨absent, list, showItem, -, -, rfl⟩ := eq_of_mem_lookupsOf inside
    rw [same] at old
    exact absent old

/-- An operation with an id and a kind whose path names a resource belongs in the metadata, and its
entries stand for it exactly if its branches are told apart; under a path of ASCII the key of its
kind is the name of the kind. A resource has the entries of its operations one after another,
beside them only the lookup, and no key twice; there are no other resources. -/
theorem representation_of_synthesize
    (synthesized : synthesize spec service specFile apiVersion = .ok metadata) :
    (∀ placed ∈ spec.operations, ∀ id kind, placed.operation.id = some id →
      Classification.ofOperation spec placed = .known kind → Resource.pathName placed.path ≠ "" →
        let operation : Classified :=
          ⟨placed, id, kind, ⟨service, Resource.pathName placed.path⟩⟩
        operation ∈ classifiedOperations spec service ∧
          (operation.Represents operation.entries ↔ operation.Splits) ∧
            (Text.IsAscii placed.path → Naming.moduleName kind.name = kind.name)) ∧
    metadata.resources.keys.Nodup ∧
    ∀ key,
      let operations := ofResource (classifiedOperations spec service) key
      let entries := operations.flatMap Classified.entries
      (metadata.resources.get? key = none ↔ operations = []) ∧
        ∀ resource, metadata.resources.get? key = some resource →
          resource.operations = entries ++ lookupsOf entries ∧ resource.operations.keys.Nodup := by
  obtain ⟨resources, -, gathers⟩ := gathers_of_synthesize synthesized
  refine ⟨fun placed member id kind named known nonempty => ⟨?_, Classified.represents_iff, ?_⟩,
    nodup_of_synthesize synthesized, fun key => ⟨?_, fun resource found => ?_⟩⟩
  · exact List.mem_filterMap.mpr
      ⟨placed, member, classified?_eq_some.mpr ⟨named, known, nonempty, rfl, rfl⟩⟩
  · exact fun ascii => Classification.moduleName_kind ascii known
  · rw [contents_of_synthesize synthesized, Option.map_eq_none_iff]
    cases ofResource (classifiedOperations spec service) key <;> simp [resourceOf?]
  · rw [contents_of_synthesize synthesized] at found
    obtain ⟨held, isHeld, rfl⟩ := Option.map_eq_some_iff.mp found
    rw [addFind_eq, (resourceOf?_eq_some isHeld).2.1]
    exact ⟨rfl, nodup_keys_lookups (gathers.keys key)⟩

/-! ### Actions -/

/-- A branch with the given action, whose arguments its only property holds. -/
def actionBranch (action property : String) : Schema where
  properties := [(property, {})]
  rest := [(OpenApi.annotationKey, .object [("action-name", .string action)])]

/-- The endpoint for the actions of the given branches. -/
def actionPlaced (branches : List Schema) : PlacedOperation :=
  let body : Schema := {
    oneOf := branches
    rest := [(OpenApi.annotationKey, .object [("discriminator", .string "action")])] }
  let operation : OpenApi.Operation := {
    id := some "act"
    requestBody := some { content := [(OpenApi.MediaType.json, { schema := some body })] } }
  { path := "/v2/servers/\x7bid\x7d/action"
    method := .post
    item := PathItem.setOperation {} .post operation
    operation }

/-- Servers on which there are the actions of the given branches. -/
def actionSpec (branches : List Schema) : Spec where
  version := "3.1.0"
  paths := [((actionPlaced branches).path, (actionPlaced branches).item)]

/-- The endpoint as it is classified. -/
def actionOperation (branches : List Schema) : Classified :=
  ⟨actionPlaced branches, "act", .action,
    ⟨"compute", Resource.pathName (actionPlaced branches).path⟩⟩

theorem representation_of_synthesize_actions :
    let branches := [actionBranch "start" "os-start", actionBranch "stop" "os-stop"]
    ∃ metadata resource, synthesize (actionSpec branches) "compute" "v2.yaml" none = .ok metadata ∧
      (actionOperation branches).Represents (actionOperation branches).entries ∧
        metadata.resources.get? "compute.servers" = some resource ∧
          resource.operations.keys = ["start", "stop"] := by
  intro branches
  have succeeds : (synthesize (actionSpec branches) "compute" "v2.yaml" none).toOption.isSome =
      true := by decide +kernel
  cases synthesized : synthesize (actionSpec branches) "compute" "v2.yaml" none with
  | error failure =>
    rw [synthesized] at succeeds
    cases succeeds
  | ok metadata =>
    obtain ⟨each, -, contents⟩ := representation_of_synthesize synthesized
    obtain ⟨-, represents, -⟩ := each (actionPlaced branches) (List.mem_singleton.mpr rfl) "act"
      .action rfl (by decide +kernel) (by decide +kernel)
    obtain ⟨present, holds⟩ := contents "compute.servers"
    cases found : metadata.resources.get? "compute.servers" with
    | none =>
      have operations : (ofResource (classifiedOperations (actionSpec branches) "compute")
          "compute.servers").length = 1 := by decide +kernel
      rw [present.mp found] at operations
      cases operations
    | some resource =>
      refine ⟨metadata, resource, rfl, represents.mpr fun _ => Or.inr ?_, found, ?_⟩
      · exact ⟨by decide +kernel, by decide +kernel⟩
      · rw [(holds resource found).1]
        decide +kernel

/-- An endpoint with a single action is in no entry, although its resource is made. -/
theorem action_not_represented :
    let branches := [actionBranch "start" "os-start"]
    ∃ metadata, synthesize (actionSpec branches) "compute" "v2.yaml" none = .ok metadata ∧
      actionOperation branches ∈ classifiedOperations (actionSpec branches) "compute" ∧
      (actionOperation branches).branches.length = 1 ∧
      metadata.resources.map (fun resource => (resource.1, resource.2.operations.keys)) =
        [("compute.servers", [])] ∧
      ∀ entries, (actionOperation branches).Represents entries → entries ≠ [] := by
  intro branches
  have empty : (synthesize (actionSpec branches) "compute" "v2.yaml" none).toOption.map
      (fun metadata => metadata.resources.map fun resource =>
        (resource.1, resource.2.operations.keys)) = some [("compute.servers", [])] := by
    decide +kernel
  cases synthesized : synthesize (actionSpec branches) "compute" "v2.yaml" none with
  | error failure =>
    rw [synthesized] at empty
    cases empty
  | ok metadata =>
    rw [synthesized] at empty
    refine ⟨metadata, rfl, ?_, by decide +kernel, Option.some.inj empty, ?_⟩
    · exact List.mem_filterMap.mpr ⟨actionPlaced branches, List.mem_singleton.mpr rfl,
        classified?_eq_some.mpr ⟨rfl, by decide +kernel, by decide +kernel, rfl, rfl⟩⟩
    · rintro entries represents rfl
      have endpoint : (actionOperation branches).isActionEndpoint = true := by decide +kernel
      rw [Classified.Represents, if_pos endpoint, List.forall₂_nil_right_iff] at represents
      have several : (actionOperation branches).branches.length = 1 := by decide +kernel
      rw [represents] at several
      cases several

end ServiceForge.Metadata
