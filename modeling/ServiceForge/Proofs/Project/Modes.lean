/-
This file proves that an operation is generated for the client library in the same way
from metadata as on its own: the entries synthesized for it give, one after another, the
files that it has when it is generated directly.
-/

import ServiceForge.Proofs.Project.Pairs
import ServiceForge.Proofs.Project.Rendering
import ServiceForge.Proofs.Sdk.Entry

namespace ServiceForge.Project

open ServiceForge.Generation (File OperationRequest)
open ServiceForge.Generation.Variant (actionOf)
open ServiceForge.Metadata
open ServiceForge.OpenApi (PathItem PlacedOperation Schema Spec)
open ServiceForge.Sdk (Regular entryRequest operationRequest)

/-! ### Operations with distinct ids -/

theorem find?_of_nodup {α κ : Type} [BEq κ] [LawfulBEq κ] {members : List α} {key : α → Option κ}
    {member : α} {value : κ} (distinct : (members.filterMap key).Nodup)
    (inside : member ∈ members) (given : key member = some value) :
    members.find? (fun other => key other == some value) = some member := by
  induction members with
  | nil => cases inside
  | cons first rest inductionHypothesis =>
    rcases List.mem_cons.mp inside with rfl | later
    · exact List.find?_cons_of_pos (beq_iff_eq.mpr given)
    · cases held : key first with
      | none =>
        rw [List.filterMap_cons_none held] at distinct
        rw [List.find?_cons_of_neg (by simp [held])]
        exact inductionHypothesis distinct later
      | some other =>
        rw [List.filterMap_cons_some held] at distinct
        obtain ⟨new, distinct⟩ := List.nodup_cons.mp distinct
        have apart : other ≠ value := by
          rintro rfl
          exact new (List.mem_filterMap.mpr ⟨member, later, given⟩)
        rw [List.find?_cons_of_neg (by simp [held, apart])]
        exact inductionHypothesis distinct later

theorem find_of_mem {spec : Spec} {placed : PlacedOperation} {operation : String}
    (distinct : (spec.operations.filterMap (·.operation.id)).Nodup)
    (member : placed ∈ spec.operations) (named : placed.operation.id = some operation) :
    OperationRequest.find spec operation = .ok placed := by
  unfold OperationRequest.find Spec.findOperation?
  rw [find?_of_nodup distinct member named]
  rfl

/-! ### Requests of pairs -/

/-- The request that a pair stands for. -/
def Pair.request (spec : Spec) (pair : Pair) : OperationRequest where
  spec
  resource := pair.resource
  operation := pair.operation.operation
  key := some pair.key
  kind := pair.operation.kind
  apiVersion := pair.entry.apiVersion
  parameters := pair.parameters

theorem request_ofEntry {spec : Spec} {resource : Resource.Id} {held : ResourceEntry}
    {version : String} (versioned : held.apiVersion = some version) (key : String)
    (operation : OperationEntry) (parameters : TargetParameters) :
    Pair.request spec { resource, entry := held, key, operation, parameters } =
      entryRequest spec resource version key operation parameters := by
  unfold Pair.request
  rw [versioned]
  rfl

/-- The pair of a branch of a union of actions. -/
def branchPair (placed : PlacedOperation) (operation : String) (resource : Resource.Id)
    (held : ResourceEntry) (branch : Schema) : Pair :=
  { resource
    entry := held
    key := Naming.moduleName (actionOf branch)
    operation := (branchEntry placed operation .action resource.leaf branch).2
    parameters := branchParameters placed resource.leaf branch }

section Contexts

variable {spec : Spec} {placed : PlacedOperation} {resource : Resource.Id} {held : ResourceEntry}
  {operation version : String} {kind : Kind}

theorem filterMap_branchEntry (branches : List Schema) :
    branches.filterMap
        (ofEntry resource held ∘ branchEntry placed operation .action resource.leaf) =
      branches.map (branchPair placed operation resource held) := by
  rw [← List.filterMap_eq_map']
  rfl

/-- The contexts of the pairs of an operation are the contexts of the operation. -/
theorem contexts_own (found : OperationRequest.find spec operation = .ok placed)
    (known : Classification.ofOperation spec placed = .known kind) (regular : Regular placed kind)
    (versioned : held.apiVersion = some version)
    (distinct : (OrderedMap.keys (entriesOf placed operation kind resource.leaf)).Nodup) :
    (((entriesOf placed operation kind resource.leaf).filterMap (ofEntry resource held)).mapM
        fun pair => Sdk.contexts (pair.request spec)).map List.flatten =
      Sdk.contexts (operationRequest spec resource operation version) := by
  cases union : isActionUnion kind (bodySchema? placed) with
  | false =>
    rw [entriesOf_single union, ← Sdk.contexts_single found known regular,
      ← request_ofEntry versioned]
    exact Sdk.flatten_mapM_singleton
  | true =>
    cases body : bodySchema? placed with
    | none =>
      rw [body] at union
      simp [isActionUnion] at union
    | some schema =>
      rw [body] at union
      obtain ⟨rfl, -⟩ := isActionUnion_some.mp union
      rw [entriesOf_actions body union (regular.isActions body union)] at distinct ⊢
      -- The keys of the entries are the names of the modules, so these tell the actions apart.
      rw [OrderedMap.keys, List.map_map] at distinct
      rw [← Sdk.contexts_actions found known regular body union distinct, List.filterMap_map,
        filterMap_branchEntry, List.mapM_map]
      refine congrArg (Except.map List.flatten) (mapM_congr fun branch _ => ?_)
      exact congrArg Sdk.contexts (request_ofEntry versioned _ _ _)

/-- The files of the pairs of an operation are the files of the operation. -/
theorem generate_own (found : OperationRequest.find spec operation = .ok placed)
    (known : Classification.ofOperation spec placed = .known kind) (regular : Regular placed kind)
    (versioned : held.apiVersion = some version)
    (distinct : (OrderedMap.keys (entriesOf placed operation kind resource.leaf)).Nodup) :
    (((entriesOf placed operation kind resource.leaf).filterMap (ofEntry resource held)).mapM
        fun pair => Sdk.generate (pair.request spec)).map List.flatten =
      Sdk.generate (operationRequest spec resource operation version) := by
  have own := contexts_own found known regular versioned distinct
  simp only [Sdk.generate_eq, Sdk.mapM_map_result]
  rw [← own]
  cases ((entriesOf placed operation kind resource.leaf).filterMap (ofEntry resource held)).mapM
      fun pair => Sdk.contexts (pair.request spec) with
  | error failure => rfl
  | ok results => exact congrArg Except.ok List.map_flatten.symm

end Contexts

/-! ### Renderings -/

/-- A pair whose document is known is rendered as it is generated. -/
theorem pairRendering_eq {session : Session} {directory path : String} {spec : Spec} {pair : Pair}
    {generate : OperationRequest → Except GenerationError (List File)} {files : List File}
    (place : specFile directory pair.entry pair.operation = path)
    (loaded : session.spec path = .ok spec) (given : generate (pair.request spec) = .ok files) :
    pairRendering session directory generate pair = { files, specs := [path] } := by
  have made : pairFiles session path pair generate = .ok files := by
    unfold pairFiles
    rw [loaded]
    show (generate (pair.request spec)).mapError Cause.ungenerable = _
    rw [given]
    rfl
  unfold pairRendering
  simp only [place, made]
  rfl

/-- What is generated for an operation on its own. -/
theorem generate_of_operationFiles {session : Session} {path operation service version : String}
    {spec : Spec} {placed : PlacedOperation}
    {generate : OperationRequest → Except GenerationError (List File)} {files : List File}
    (loaded : session.spec path = .ok spec)
    (found : OperationRequest.find spec operation = .ok placed)
    (ran : operationFiles session path operation service (some version) generate = .ok files) :
    generate (operationRequest spec ⟨service, Resource.pathName placed.path⟩ operation version) =
      .ok files := by
  unfold operationFiles at ran
  rw [loaded] at ran
  have step : ((OperationRequest.find spec operation).mapError Cause.ungenerable).bind
      (fun placed => (generate (operationRequest spec ⟨service, Resource.pathName placed.path⟩
        operation version)).mapError Cause.ungenerable) = .ok files := ran
  rw [found] at step
  exact mapError_eq_ok.mp step

/-! ### Modes -/

/-- The entries that metadata has for an operation, lookups aside, are rendered as the operation
on its own: the same files with the same contents in the same order. -/
theorem rendering_of_operationFiles {spec : Spec} {service document version path directory : String}
    {metadata : Metadata} {placed : PlacedOperation} {operation : String} {kind : Kind}
    {session kept : Session} {request : Request} {files : List File}
    (distinct : (spec.operations.filterMap (·.operation.id)).Nodup)
    (plain : '.' ∉ service.toList)
    (synthesized : synthesize spec service document (some version) = .ok metadata)
    (member : placed ∈ spec.operations) (named : placed.operation.id = some operation)
    (known : Classification.ofOperation spec placed = .known kind)
    (nonempty : Resource.pathName placed.path ≠ "") (regular : Regular placed kind)
    (loaded : session.spec path = .ok spec)
    (keeps : kept.spec (FilePath.join directory document) = .ok spec)
    (selected : request.selects ⟨service, Resource.pathName placed.path⟩ = true)
    (ran : operationFiles session path operation service (some version) Sdk.generate = .ok files) :
    let own := (pairs .sdk (request.selection metadata)).filter (isOwn operation)
    Rendering.forEach (pairRendering kept directory Sdk.generate) own =
      { files, specs := own.map fun _ => FilePath.join directory document } := by
  let resource : Resource.Id := ⟨service, Resource.pathName placed.path⟩
  have classified : { placed, operation, kind, resource } ∈ classifiedOperations spec service :=
    List.mem_filterMap.mpr
      ⟨placed, member, classified?_eq_some.mpr ⟨named, known, nonempty, rfl, rfl⟩⟩
  obtain ⟨held, place, versioned, own, keys⟩ :=
    own_of_selection synthesized distinct plain classified selected
  have found := find_of_mem distinct member named
  have agree := generate_own found known regular versioned keys
  rw [generate_of_operationFiles loaded found ran] at agree
  intro pairsOfOperation
  have same : pairsOfOperation =
      (entriesOf placed operation kind resource.leaf).filterMap (ofEntry resource held) := own
  rw [same]
  cases given : ((entriesOf placed operation kind resource.leaf).filterMap
      (ofEntry resource held)).mapM fun pair => Sdk.generate (pair.request spec) with
  | error failure =>
    rw [given] at agree
    cases agree
  | ok results =>
    rw [given] at agree
    cases agree
    refine Rendering.forEach_eq given fun pair inside files made => pairRendering_eq ?_ keeps made
    rw [specFile_of_mem inside, place]

/-- A body that either pauses a server or resizes it. -/
def actionBody : Schema where
  oneOf := [
    { properties := [("pause", .ofType "boolean")] },
    { properties := [("resize", { properties := [("flavor", .ofType "string")] })] }]
  rest := [(OpenApi.annotationKey, .object [("discriminator", .string "action")])]

/-- The endpoint for the actions on a server. -/
def actionEndpoint : PlacedOperation :=
  let operation : OpenApi.Operation := {
    id := some "act"
    requestBody := some { content := [(OpenApi.MediaType.json, { schema := some actionBody })] } }
  let item : PathItem := {
    parameters := [{ name := "id", location := .path, schema := some (.ofType "string") }] }
  { path := "/v2.1/servers/\x7bid\x7d/action"
    method := .post
    item := item.setOperation .post operation
    operation }

/-- Servers, of which one can be shown and acted upon. -/
def serverSpec : Spec where
  version := "3.1.0"
  paths := [
    ("/v2.1/servers", PathItem.setOperation {} .get { id := some "list" }),
    ("/v2.1/servers/\x7bid\x7d", PathItem.setOperation {} .get { id := some "show" }),
    (actionEndpoint.path, actionEndpoint.item)]

/-- A session that has loaded the servers. -/
def serverSession : Session where
  workspace := { current := [], directories := [], files := [(["compute.yaml"], "")] }
  loaded := [(["compute.yaml"], serverSpec)]

theorem actionEndpoint_regular : Regular actionEndpoint .action := by
  have body : bodySchema? actionEndpoint = some actionBody := rfl
  refine ⟨by decide +kernel, ?_, ?_, ?_⟩ <;> rw [body] <;> rintro schema ⟨⟩ union
  · rfl
  · decide +kernel
  · have each : ∀ branch ∈ actionBody.nonNullBranches,
        ∃ action ∈ Generation.actionName? branch, Text.IsAscii action := by
      decide +kernel
    exact each

theorem rendering_of_operationFiles_actions :
    ∃ metadata files,
      synthesize serverSpec "compute" "compute.yaml" (some "v2.1") = .ok metadata ∧
        operationFiles serverSession "compute.yaml" "act" "compute" (some "v2.1") Sdk.generate =
          .ok files ∧
          files.map File.path =
            ["compute/v2_1/servers/pause.rs", "compute/v2_1/servers/resize.rs"] ∧
            (Rendering.forEach (pairRendering serverSession "" Sdk.generate)
              ((pairs .sdk (Request.selection { target := .sdk } metadata)).filter
                (isOwn "act"))).files = files := by
  have synthesized : (synthesize serverSpec "compute" "compute.yaml"
      (some "v2.1")).toOption.isSome = true := by decide +kernel
  have generated : (operationFiles serverSession "compute.yaml" "act" "compute" (some "v2.1")
      Sdk.generate).toOption.map (List.map File.path) =
        some ["compute/v2_1/servers/pause.rs", "compute/v2_1/servers/resize.rs"] := by
    decide +kernel
  cases made : synthesize serverSpec "compute" "compute.yaml" (some "v2.1") with
  | error failure =>
    rw [made] at synthesized
    cases synthesized
  | ok metadata =>
    cases ran : operationFiles serverSession "compute.yaml" "act" "compute" (some "v2.1")
        Sdk.generate with
    | error failure =>
      rw [ran] at generated
      cases generated
    | ok files =>
      rw [ran] at generated
      refine ⟨metadata, files, rfl, rfl, Option.some.inj generated, ?_⟩
      have found : serverSpec.findOperation? "act" = some actionEndpoint := rfl
      have whole : Rendering.forEach (pairRendering serverSession "" Sdk.generate)
          ((pairs .sdk (Request.selection { target := .sdk } metadata)).filter (isOwn "act")) = _ :=
        rendering_of_operationFiles (by decide +kernel) (by decide) made
          (List.mem_of_find?_eq_some found) rfl (by decide +kernel) (by decide +kernel)
          actionEndpoint_regular rfl rfl rfl ran
      exact congrArg Rendering.files whole

end ServiceForge.Project
