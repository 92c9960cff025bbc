/-
This file proves that the commands of an operation wrap the modules that the client
library has for it: there are as many of the ones as of the others, a command is made
from the same branch and action as the module in its place, and its source has a line that
imports that module.

It first says what the context of a command holds: the place of the operation, the name
of the variant, the parameters in their locations, the arguments that the body of the
variant is lowered to, and the columns that the response is lowered to on its own.
-/

import ServiceForge.Cli.Source
import ServiceForge.Proofs.Except
import ServiceForge.Proofs.Generation.Variant
import ServiceForge.Proofs.Lowering.Calls
import ServiceForge.Proofs.Sdk.Context
import ServiceForge.Proofs.Sdk.Variant

namespace ServiceForge.Cli

open ServiceForge.Generation
open ServiceForge.OpenApi (PathItem PlacedOperation Schema)
open ServiceForge.Source (HasLines hasLines_of_mem)
open ServiceForge.Text

/-! ### The context of a command -/

/-- What the context of a command holds of the operation and the variant. -/
structure Made (sdkCrate : String) (request : OperationRequest) (placed : PlacedOperation)
    (kind : Kind) (media : RequestMedia) (variant : Variant) (context : Context) : Prop where
  directory : context.directory = request.directory placed
  moduleName : context.moduleName = variant.moduleName
  shape : context.shape = Shape.of placed kind media
  sdkPath : context.sdkPath = [sdkCrate, "api"] ++
    (context.directory ++ [context.moduleName]).map Naming.moduleIdentifier
  /-- The parameters are lowered from the start, and the body after them. -/
  lowered : ∃ bindings state bodyFields after,
    lowerRequest request placed {} = (.ok bindings, state) ∧
      context.pathBindings = inPathOrder placed.path (bindings.filter (·.location = .path)) ∧
      context.queryBindings = bindings.filter (·.location = .query) ∧
      lowerBody request context.shape (responseSchema? placed) variant state =
        (.ok bodyFields, after) ∧
      context.bodyFields = bodyFields.map markReserved
  /-- The response is lowered on its own. -/
  answered : ∃ after, lowerResponse request context.shape (responseSchema? placed) {} =
    (.ok context.responseFields, after)

/-- The context of a command is made of these parts. -/
theorem made_of_ofVariant {sdkCrate : String} {request : OperationRequest}
    {placed : PlacedOperation} {kind : Kind} {media : RequestMedia} {variant : Variant}
    {context : Context}
    (given : ofVariant sdkCrate request placed kind media variant = .ok context) :
    Made sdkCrate request placed kind media variant context := by
  unfold ofVariant at given
  obtain ⟨bindings, bound, given⟩ := bind_eq_ok.mp given
  obtain ⟨responseFields, answered, given⟩ := bind_eq_ok.mp given
  obtain ⟨bodyFields, lowered, returned⟩ := bind_eq_ok.mp given
  cases returned
  exact ⟨rfl, rfl, rfl, rfl, ⟨bindings, _, bodyFields, _, Prod.ext bound rfl, rfl, rfl,
    Prod.ext lowered rfl, rfl⟩, _, Prod.ext answered rfl⟩

/-- The variants that commands of an operation are made for. -/
theorem contexts_of_placed {sdkCrate : String} {request : OperationRequest}
    {placed : PlacedOperation} {kind : Kind} (found : request.placed = .ok placed)
    (known : request.effectiveKind placed = kind) :
    contexts sdkCrate request = (requestMedia placed request.operation).bind fun media =>
      (Variant.all media.schema? (request.moduleName kind) request.parameters.operationName
        none).mapM (ofVariant sdkCrate request placed kind media) := by
  unfold contexts
  rw [found, ← known]
  rfl

/-! ### Commands and modules -/

/-- A module of the client library and a command that are made from variants of an operation with
one name, body and action. -/
def FromOneVariant (sdkCrate : String) (request : OperationRequest) (placed : PlacedOperation)
    (media : RequestMedia) (library : Sdk.Context) (tool : Context) : Prop :=
  let kind := request.effectiveKind placed
  ∃ variant ∈ Sdk.variantsOf request placed kind media, ∃ other, variant.SameForm other ∧
    Sdk.ofVariant request placed kind media variant = .ok library ∧
    ofVariant sdkCrate request placed kind media other = .ok tool

section Contexts

variable {sdkCrate : String} {request : OperationRequest} {placed : PlacedOperation}

/-- The contexts of the commands stand beside those of the client library. -/
theorem contexts_fromOneVariant {libraries : List Sdk.Context} {tools : List Context}
    (found : request.placed = .ok placed) (plain : request.effectiveKind placed ≠ .find)
    (library : Sdk.contexts request = .ok libraries)
    (tool : contexts sdkCrate request = .ok tools) :
    ∃ media, requestMedia placed request.operation = .ok media ∧
      List.Forall₂ (FromOneVariant sdkCrate request placed media) libraries tools := by
  rw [Sdk.contexts_of_ne_find found rfl plain] at library
  rw [contexts_of_placed found rfl] at tool
  obtain ⟨media, sent, library⟩ := bind_eq_ok.mp library
  obtain ⟨other, sentToo, tool⟩ := bind_eq_ok.mp tool
  cases sent.symm.trans sentToo
  exact ⟨media, sent, forall₂_of_mapM (Variant.all_sameForm _ _ _ _ _) library tool⟩

section Pair

variable {media : RequestMedia} {library : Sdk.Context} {tool : Context}
  (pair : FromOneVariant sdkCrate request placed media library tool)

include pair

theorem FromOneVariant.record : tool.record = library.record := by
  obtain ⟨variant, -, other, same, madeLibrary, madeTool⟩ := pair
  have first := Sdk.made_of_ofVariant madeLibrary
  have second := made_of_ofVariant madeTool
  unfold Context.record Sdk.Context.record
  rw [first.directory, first.moduleName, second.directory, second.moduleName, same.moduleName]

/-- The path by which a command imports the module of the client library. -/
theorem FromOneVariant.sdkModule : tool.sdkModule = join "::"
    ([sdkCrate, "api"] ++
      (library.directory ++ [library.moduleName]).map Naming.moduleIdentifier) := by
  obtain ⟨directory, moduleName⟩ := ModuleRecord.mk.inj pair.record
  obtain ⟨-, -, other, -, -, madeTool⟩ := pair
  unfold Context.sdkModule
  rw [(made_of_ofVariant madeTool).sdkPath, directory, moduleName]

end Pair

end Contexts

/-! ### Modules -/

/-- The source of a command has a line that imports the module that it wraps. -/
theorem hasLines_import (tool : Context) :
    HasLines (render tool) ["use " ++ tool.sdkModule ++ ";"] := by
  have imported : tool.sdkModule ∈ imports tool := by
    simp [imports, SortedSet.ofList, commonImports]
  have line : "use " ++ tool.sdkModule ++ ";" ∈
      (imports tool).map fun path => "use " ++ path ++ ";" :=
    List.mem_map_of_mem imported
  refine hasLines_of_mem ?_
  unfold moduleLines
  simp only [List.mem_append]
  exact Or.inl (Or.inl (Or.inl (Or.inl (Or.inl (Or.inl (Or.inr line))))))

/-- The commands of an operation wrap its modules in the client library, each the module in its
place: both have one record, come from one body and action, and the source of the command imports
the module by the crate, `api` and the escaped names that lead to it. -/
theorem commands_wrap_modules {sdkCrate : String} {request : OperationRequest}
    {placed : PlacedOperation} {modules commands : List File}
    (found : request.placed = .ok placed) (plain : request.effectiveKind placed ≠ .find)
    (library : Sdk.generate request = .ok modules)
    (tool : generate sdkCrate request = .ok commands) :
    ∃ media, requestMedia placed request.operation = .ok media ∧
      List.Forall₂ (fun wrapped command => ∃ library tool,
        FromOneVariant sdkCrate request placed media library tool ∧
          wrapped = .ofModule library.record (Sdk.render library) ∧
          command = .ofModule tool.record (render tool) ∧
          command.record = wrapped.record ∧
          tool.sdkModule = join "::" ([sdkCrate, "api"] ++
            (library.directory ++ [library.moduleName]).map Naming.moduleIdentifier) ∧
          HasLines command.contents ["use " ++ join "::" ([sdkCrate, "api"] ++
            (library.directory ++ [library.moduleName]).map Naming.moduleIdentifier) ++ ";"])
        modules commands := by
  obtain ⟨libraries, gathered, returned⟩ := bind_eq_ok.mp library
  obtain ⟨tools, gatheredToo, returnedToo⟩ := bind_eq_ok.mp tool
  cases returned
  cases returnedToo
  obtain ⟨media, sent, pairs⟩ := contexts_fromOneVariant found plain gathered gatheredToo
  refine ⟨media, sent, ?_⟩
  rw [List.forall₂_map_left_iff, List.forall₂_map_right_iff]
  refine pairs.imp fun library tool pair => ⟨library, tool, pair, rfl, rfl, ?_, pair.sdkModule, ?_⟩
  · exact congrArg some pair.record
  · rw [← pair.sdkModule]
    exact hasLines_import tool

/-- A body that either moves a server or locks it since some version. -/
def moveOrLock : Schema where
  oneOf := [
    { properties := [("move", { properties := [("host", .ofType "string")] })] },
    { properties := [("lock", .ofType "null")]
      rest := [(OpenApi.annotationKey, .object [("min-ver", .string "2.9")])] }]
  rest := [(OpenApi.annotationKey, .object [("discriminator", .string "action")])]

/-- Servers that can be moved and locked. -/
def movableServers : OperationRequest where
  spec := {
    version := "3.1.0"
    paths := [("/v2/servers/\x7bid\x7d/action", PathItem.setOperation {} .post {
      id := some "act"
      requestBody := some { content := [(OpenApi.MediaType.json, { schema := some moveOrLock })] }
      rest := [(OpenApi.annotationKey, .object [("min-ver", .string "2.1")])] })] }
  resource := ⟨"compute", "servers"⟩
  operation := "act"

theorem commands_wrap_modules_movable :
    ∃ placed modules commands media, movableServers.placed = .ok placed ∧
      movableServers.effectiveKind placed ≠ .find ∧
      Sdk.generate movableServers = .ok modules ∧
      generate defaultSdkCrate movableServers = .ok commands ∧
      requestMedia placed movableServers.operation = .ok media ∧
      List.Forall₂ (fun wrapped command => ∃ library tool,
        FromOneVariant defaultSdkCrate movableServers placed media library tool ∧
          wrapped = .ofModule library.record (Sdk.render library) ∧
          command = .ofModule tool.record (render tool) ∧
          command.record = wrapped.record) modules commands ∧
      commands.map File.path =
        ["compute/v2/servers/move.rs", "compute/v2/servers/lock.rs"] ∧
      List.Forall₂ (fun command line => HasLines command.contents [line]) commands
        ["use openstack_sdk::api::compute::v2::servers::r#move;",
          "use openstack_sdk::api::compute::v2::servers::lock;"] := by
  have kind : (movableServers.placed.toOption.map fun placed =>
      decide (movableServers.effectiveKind placed = .find)) = some false := by decide +kernel
  have library : (Sdk.generate movableServers).toOption.map (List.map File.record) =
      some [some ⟨["compute", "v2", "servers"], "move"⟩,
        some ⟨["compute", "v2", "servers"], "lock"⟩] := by decide +kernel
  have tool : (generate defaultSdkCrate movableServers).toOption.map (List.map File.path) =
      some ["compute/v2/servers/move.rs", "compute/v2/servers/lock.rs"] := by decide +kernel
  obtain ⟨placed, found, kind⟩ := Option.map_eq_some_iff.mp kind
  obtain ⟨modules, made, records⟩ := Option.map_eq_some_iff.mp library
  obtain ⟨commands, wrapped, paths⟩ := Option.map_eq_some_iff.mp tool
  have found := toOption_eq_some.mp found
  have made := toOption_eq_some.mp made
  have wrapped := toOption_eq_some.mp wrapped
  have plain := of_decide_eq_false kind
  obtain ⟨media, sent, pairs⟩ := commands_wrap_modules found plain made wrapped
  refine ⟨placed, modules, commands, media, found, plain, made, wrapped, sent, ?_, paths, ?_⟩
  · refine pairs.imp fun wrapped command => ?_
    rintro ⟨library, tool, pair, whole, wholeToo, same, -⟩
    exact ⟨library, tool, pair, whole, wholeToo, same⟩
  · -- Each line is made from the record of the module that is imported.
    have lines : List.Forall₂ (fun record command => ∀ place, record = some place →
        HasLines command.contents ["use " ++ join "::" ([defaultSdkCrate, "api"] ++
          (place.directory ++ [place.name]).map Naming.moduleIdentifier) ++ ";"])
        (modules.map File.record) commands := by
      rw [List.forall₂_map_left_iff]
      refine pairs.imp fun wrapped command => ?_
      rintro ⟨library, tool, -, rfl, -, -, -, imported⟩ place isRecord
      cases isRecord
      exact imported
    rw [records] at lines
    cases lines with
    | cons first lines =>
      cases lines with
      | cons second none =>
        cases none
        exact .cons (first _ rfl) (.cons (second _ rfl) .nil)

end ServiceForge.Cli
