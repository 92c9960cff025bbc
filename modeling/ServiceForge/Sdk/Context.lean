/-
This file gathers what a module of the client library is written from: one
context for each variant of an operation, or one for the lookup of a resource by
its name.
-/

import ServiceForge.Generation.Bindings
import ServiceForge.Generation.File
import ServiceForge.Generation.Media
import ServiceForge.Generation.Variant
import ServiceForge.Lowering.Rendering

namespace ServiceForge.Sdk

open ServiceForge.Generation
open ServiceForge.Lowering (Binding Field Lower State Types ValueType)
open ServiceForge.OpenApi (Method PlacedOperation Schema)
open ServiceForge.Text

/-- The body of a request. -/
inductive Body where
  | empty
  | fields (fields : List Field)
  | value (type : ValueType)
  | patch
  | binary
deriving DecidableEq, Repr

/-- Everything that the source text of an endpoint is printed from. -/
structure Context where
  operation : String
  summary : Option String
  kind : Kind
  method : Method
  url : String
  service : String
  resource : String
  directory : List String
  moduleName : String
  version : Option String := none
  action : Option String := none
  pathBindings : List Binding := []
  queryBindings : List Binding := []
  headerBindings : List Binding := []
  body : Body := .empty
  mediaType : Option String := none
  requestKey : Option String := none
  responseKey : Option String := none
  itemKey : Option String := none
  findKey : Option String := none
  imports : List String := []
  types : Types := ⟨.sdk, []⟩

namespace Import

/-- The path of patches in JSON. -/
def patch : String := "json_patch::Patch"

/-- The path of lists that come in pages. -/
def pageable : String := "crate::api::Pageable"

/-- The path of resources that can be found by name. -/
def findable : String := "crate::api::find::Findable"

/-- The path of failures to find a resource. -/
def findError : String := "crate::api::find::FindError"

end Import

namespace Context

/-- The record of the module. -/
def record (context : Context) : ModuleRecord := ⟨context.directory, context.moduleName⟩

/-- The bindings that are members of a request, those of its headers aside. -/
def memberBindings (context : Context) : List Binding :=
  context.pathBindings ++ context.queryBindings

/-- The types of the members of a body. -/
def bodyTypes (context : Context) : List ValueType :=
  match context.body with
  | .fields fields => fields.map Field.type
  | .value type => [type]
  | _ => []

/-- Whether a request borrows. -/
def borrows (context : Context) : Bool :=
  context.findKey.isSome ||
    (context.memberBindings.map Binding.type ++ context.bodyTypes).any context.types.borrows

end Context

/-! ### Parts of a context -/

/-- What an endpoint is lowered with: the document, in the dialect of the library. -/
def loweringContext (request : OperationRequest) : Lowering.Context := ⟨request.spec, .sdk⟩

/-- The context without what depends on a variant. -/
def base (request : OperationRequest) (placed : PlacedOperation) (kind : Kind)
    (moduleName : String) (bindings : List Binding) : Context :=
  { operation := request.operation
    summary := placed.operation.summary.or placed.operation.description
    kind
    method := placed.method
    url := trimStart (· = '/') placed.path
    service := request.resource.service
    resource := request.resource.name
    directory := request.directory placed
    moduleName
    pathBindings := inPathOrder placed.path (bindings.filter (·.location = .path))
    queryBindings := bindings.filter (·.location = .query)
    headerBindings := bindings.filter (·.location = .header) }

/-- Whether a body is built from fields: it or a part of it is an object. -/
def hasFields (schema : Schema) : Bool := schema.isObject || schema.allOf.any Schema.isObject

/-- Lowers the body that a payload in JSON is built from. -/
def lowerBody (request : OperationRequest) (schema : Schema) : Lower Body := do
  let context := loweringContext request
  if hasFields schema then return .fields (← Lowering.lowerFields context schema "")
  else if schema.type.isNone && schema.oneOf.isEmpty then return .fields []
  else return .value (← Lowering.lower context schema request.singular)

/-- The context with its body. -/
def withBody (request : OperationRequest) (media : RequestMedia) (variant : Variant)
    (context : Context) : Lower Context := do
  match media with
  | .empty => return context
  | .patch mediaType =>
    Lowering.addImport Import.patch
    return { context with body := .patch, mediaType := some mediaType }
  | .binary =>
    return { context with body := .binary, mediaType := some OpenApi.MediaType.binary }
  | .json _ =>
    let context := { context with mediaType := some OpenApi.MediaType.json }
    match variant.payload? request.resource.leaf with
    | none => return context
    | some (schema, key) =>
      return { context with
        requestKey := request.parameters.requestKey.or key
        body := ← lowerBody request schema }

/-- The context with the keys of the response; given keys go before those that are found. -/
def withResponse (request : OperationRequest) (placed : PlacedOperation) (context : Context) :
    Context :=
  let found := (responseSchema? placed).map (Resource.locate · request.resource.leaf)
  { context with
    responseKey := request.parameters.responseKey.or (found.bind Resource.Found.key)
    itemKey := request.parameters.itemKey.or (found.bind Resource.Found.itemKey) }

/-- Runs a lowering from the start and completes the context with what it leaves behind. -/
def complete (request : OperationRequest) (lowering : Lower Context) :
    Except GenerationError Context :=
  let (result, state) := lowering.run.run {}
  result.map fun context =>
    { context with
      imports := state.imports
      types := .ofState (loweringContext request) state }

/-- Lowers the parameters of an operation, location by location. -/
def lowerAllBindings (request : OperationRequest) (placed : PlacedOperation) :
    Lower (List Binding) :=
  lowerBindings (loweringContext request) request placed OpenApi.Location.all

/-! ### Contexts -/

/-- The context of one variant. -/
def ofVariant (request : OperationRequest) (placed : PlacedOperation) (kind : Kind)
    (media : RequestMedia) (variant : Variant) : Except GenerationError Context :=
  complete request do
    let bindings ← lowerAllBindings request placed
    let context := base request placed kind variant.moduleName bindings
    let context := { context with version := variant.version, action := variant.action }
    let context ← withBody request media variant context
    if kind.isList then Lowering.addImport Import.pageable
    return withResponse request placed context

/-- The context of a lookup, which calls the operations that list and show the resource. -/
def ofFind (request : OperationRequest) (placed : PlacedOperation) (kind : Kind)
    (moduleName : String) : Except GenerationError Context := do
  if let some operation := request.parameters.listOperation then
    discard (OperationRequest.find request.spec operation)
  complete request do
    let bindings ← lowerAllBindings request placed
    let context := base request placed kind moduleName bindings
    let terminal := Resource.terminalParameter? placed.path
    let key := context.pathBindings.find? fun binding => some binding.wireName == terminal
    Lowering.addImport Import.findable
    Lowering.addImport Import.findError
    Lowering.addImport Lowering.Import.borrowedText
    return { context with
      queryBindings := []
      headerBindings := []
      findKey := key.map Binding.name }

/-- The oldest version with which an operation can be used. -/
def operationVersion? (placed : PlacedOperation) : Option String := do
  (← (← placed.operation.annotations).get? "min-ver").string?

/-- The contexts of an operation. -/
def contexts (request : OperationRequest) : Except GenerationError (List Context) := do
  let placed ← request.placed
  let kind := request.effectiveKind placed
  let name := request.moduleName kind
  if kind = .find then return [← ofFind request placed kind name]
  let media ← requestMedia placed request.operation
  let variants := Variant.all media.schema? name request.parameters.operationName
    (operationVersion? placed)
  variants.mapM (ofVariant request placed kind media)

end ServiceForge.Sdk
