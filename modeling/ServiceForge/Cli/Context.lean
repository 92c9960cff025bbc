/-
This file gathers what a module of the command line tool is written from: one
context for each variant of an operation, with the arguments that the command
takes and the columns that it shows.
-/

import ServiceForge.Generation.Bindings
import ServiceForge.Generation.File
import ServiceForge.Generation.Media
import ServiceForge.Generation.Variant
import ServiceForge.Lowering.Rendering

namespace ServiceForge.Cli

open ServiceForge.Generation
open ServiceForge.Lowering (Binding Field Lower Types)
open ServiceForge.OpenApi (PlacedOperation Schema)
open ServiceForge.Text

/-- How a command talks to the service and what it prints. -/
inductive Shape where
  | list
  | single
  | headerOnly
  | download
  | upload
  | patch
deriving DecidableEq, Repr

namespace Shape

/-- The name of a shape. -/
def name : Shape → String
  | list => "List"
  | single => "Single"
  | headerOnly => "HeaderOnly"
  | download => "Download"
  | upload => "Upload"
  | patch => "Patch"

end Shape

/-- Everything that the source text of a command is printed from. -/
structure Context where
  operation : String
  kind : Kind
  shape : Shape
  resource : String
  directory : List String
  moduleName : String
  commandName : String
  about : String
  summary : Option String
  sdkCrate : String
  /-- The names that lead to the wrapped module of the client library. -/
  sdkPath : List String
  pathBindings : List Binding
  queryBindings : List Binding
  bodyFields : List Field
  responseFields : List Field
  headerColumns : List (String × String)
  loweredImports : List String
  requestTypes : Types
  responseTypes : Types

/-- The client library that commands use unless another is named. -/
def defaultSdkCrate : String := "openstack_sdk"

namespace Context

/-- The record of the module. -/
def record (context : Context) : ModuleRecord := ⟨context.directory, context.moduleName⟩

/-- The wrapped module of the client library. -/
def sdkModule (context : Context) : String := join "::" context.sdkPath

end Context

/-! ### Shapes -/

/-- The shape of a command; how the body is sent goes before what comes back. -/
def Shape.of (placed : PlacedOperation) (kind : Kind) (media : RequestMedia) : Shape :=
  match kind, media with
  | .download, _ => download
  | .upload, _ => upload
  | _, .binary => upload
  | _, .patch _ => patch
  | kind, _ =>
    if placed.method = .head || (placed.operation.success?.map Prod.fst) = some "204" ||
        (responseSchema? placed).isNone then headerOnly
    else if kind.isList then list
    else single

/-! ### Fields -/

/-- The names that the structure of the arguments uses itself. -/
def reservedNames : List String := ["path", "query", "file"]

/-- Appends an underscore to the name of a field that the command needs for itself. -/
def markReserved (field : Field) : Field :=
  if reservedNames.contains field.name then { field with name := field.name ++ "_" } else field

/-- Lets a field be absent. -/
def makeOptional (field : Field) : Field := { field with type := field.type.toOptional }

/-- The name of the resource with which payloads are searched. -/
def leaf (request : OperationRequest) : String := Naming.moduleName request.resource.leaf

/-- The columns of the output. -/
def lowerResponse (request : OperationRequest) (shape : Shape) (response : Option Schema) :
    Lower (List Field) := do
  match response with
  | none => return []
  | some schema =>
    if shape = .headerOnly then return []
    else
      let resource := (Resource.locate schema (leaf request)).schema
      if !resource.isObject && resource.allOf.isEmpty then
        throw (.missingResourceSchema request.operation)
      let fields ← Lowering.lowerFields ⟨request.spec, .cli⟩ resource ""
      return fields.map makeOptional

/-- The arguments for the body: the members of the resource when it is patched, and otherwise those
of the variant. -/
def lowerBody (request : OperationRequest) (shape : Shape) (response : Option Schema)
    (variant : Variant) : Lower (List Field) := do
  let context : Lowering.Context := ⟨request.spec, .cliRequest⟩
  match shape with
  | .patch =>
    match response with
    | none => return []
    | some schema =>
      let resource := (Resource.locate schema (leaf request)).schema
      let fields ← Lowering.lowerFields context resource ""
      return (fields.filter (·.name ≠ "id")).map makeOptional
  | _ =>
    match variant.payload? (leaf request) with
    | none => return []
    | some (schema, _) =>
      if schema.isObject || !schema.allOf.isEmpty then Lowering.lowerFields context schema ""
      else return []

/-- The columns of a command that shows only headers, with the headers. -/
def headerColumns (placed : PlacedOperation) (shape : Shape) : List (String × String) :=
  if shape = .headerOnly then
    (placed.operation.success?.map fun (_, response) =>
      response.headers.keys.map fun header => (Naming.fieldName header, header)).getD []
  else []

/-! ### Names -/

/-- The name of the type of a command. A command that lists is named after many resources. -/
def commandName (kind : Kind) (singular moduleName : String) : String :=
  if kind.isList then Naming.typeName (Naming.pluralize singular) ++ "Command"
  else Naming.typeName (singular ++ "_" ++ moduleName) ++ "Command"

/-- A name as words in a sentence. -/
def phrase (name : String) : String := replaceCharacter '-' " " (replaceCharacter '_' " " name)

/-- The line that a command is introduced with. -/
def about (kind : Kind) (singular : String) (action : Option String) : String :=
  if kind.isList then "List " ++ replaceCharacter '_' " " (Naming.pluralize singular)
  else
    capitalize (phrase (action.getD kind.name)) ++ " " ++ replaceCharacter '_' " " singular

/-! ### Contexts -/

/-- Lowers the parameters of the path and the query, then the body. -/
def lowerRequest (request : OperationRequest) (placed : PlacedOperation) :
    Lower (List Binding) :=
  lowerBindings ⟨request.spec, .cliRequest⟩ request placed [.path, .query]

/-- The context of one variant. The parameters are lowered first, then the response and last the
body. -/
def ofVariant (sdkCrate : String) (request : OperationRequest) (placed : PlacedOperation)
    (kind : Kind) (media : RequestMedia) (variant : Variant) :
    Except GenerationError Context := do
  let shape := Shape.of placed kind media
  let response := responseSchema? placed
  let (bindings, requestState) := (lowerRequest request placed).run.run {}
  let bindings ← bindings
  let (responseFields, responseState) := (lowerResponse request shape response).run.run {}
  let responseFields ← responseFields
  let (bodyFields, requestState) := (lowerBody request shape response variant).run.run requestState
  let bodyFields ← bodyFields
  let directory := request.directory placed
  return {
    operation := request.operation
    kind
    shape
    resource := request.resource.name
    directory
    moduleName := variant.moduleName
    commandName := commandName kind request.singular variant.moduleName
    about := about kind request.singular variant.action
    summary := placed.operation.summary
    sdkCrate
    sdkPath := [sdkCrate, "api"] ++
      (directory ++ [variant.moduleName]).map Naming.moduleIdentifier
    pathBindings := inPathOrder placed.path (bindings.filter (·.location = .path))
    queryBindings := bindings.filter (·.location = .query)
    bodyFields := bodyFields.map markReserved
    responseFields
    headerColumns := headerColumns placed shape
    loweredImports := SortedSet.insertAll responseState.imports requestState.imports
    requestTypes := .ofState ⟨request.spec, .cliRequest⟩ requestState
    responseTypes := .ofState ⟨request.spec, .cli⟩ responseState }

/-- The contexts of an operation. -/
def contexts (sdkCrate : String) (request : OperationRequest) :
    Except GenerationError (List Context) := do
  let placed ← request.placed
  let kind := request.effectiveKind placed
  let media ← requestMedia placed request.operation
  let variants := Variant.all media.schema? (request.moduleName kind)
    request.parameters.operationName none
  variants.mapM (ofVariant sdkCrate request placed kind media)

end ServiceForge.Cli
