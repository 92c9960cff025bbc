/-
This file renders the files of a request. What a request asks for follows from its
target and its inputs: a document extracted from routes, the metadata of a
document, the files of one descriptor, those of one operation, or those of all
selected resources in metadata.
-/

import ServiceForge.Ansible.Source
import ServiceForge.Cli.Source
import ServiceForge.Descriptor.JsonSchema
import ServiceForge.Generation.ModuleIndex
import ServiceForge.Metadata.Document
import ServiceForge.Metadata.Synthesis
import ServiceForge.Osc.Test
import ServiceForge.Project.Config
import ServiceForge.Project.Request
import ServiceForge.Project.Session
import ServiceForge.Route.Document
import ServiceForge.Route.Extraction
import ServiceForge.Sdk.Source

namespace ServiceForge.Project

open ServiceForge.Generation (File ModuleIndex OperationRequest ResourceRequest)

/-! ### Renderings -/

/-- What was rendered up to the first failure, and the documents that were asked for on the way. -/
structure Rendering where
  files : List File := []
  specs : List String := []
  failure : Option Error := none

namespace Rendering

/-- A rendering that failed before any file. -/
def ofFailure (error : Error) : Rendering := { failure := some error }

/-- The rendering of all files at once, from documents that were asked for. -/
def ofResult (specs : List String) (result : Except Error (List File)) : Rendering :=
  match result with
  | .ok files => { files, specs }
  | .error error => { specs, failure := some error }

/-- Continues a rendering unless it failed. -/
def andThen (first second : Rendering) : Rendering :=
  match first.failure with
  | some _ => first
  | none => {
    files := first.files ++ second.files
    specs := first.specs ++ second.specs
    failure := second.failure }

/-- Renders the members of a list up to the first that fails. -/
def forEach {α : Type} (render : α → Rendering) (members : List α) : Rendering :=
  members.foldr (fun member rest => (render member).andThen rest) {}

end Rendering

/-- The files of a request, whose paths are below a root. -/
structure Plan where
  root : String
  rendering : Rendering

/-- The value of an input that a request needs. -/
def needed {α : Type} (input : Option α) (usage : Usage) : Except Error α :=
  match input with
  | some value => return value
  | none => throw (.usage usage)

/-- A result whose failure is that of a whole request. -/
def ofCause {α : Type} (result : Except Cause α) : Except Error α := result.mapError .cause

/-- The default version of the files of a resource. -/
def defaultVersion : String := "v1"

/-! ### Generators -/

/-- How a target generates code for an operation, if it does. -/
def operationGenerator? (config : Config) :
    Target → Option (OperationRequest → Except GenerationError (List File))
  | .sdk => some Sdk.generate
  | .cli => some (Cli.generate config.sdkCrate)
  | _ => none

/-- How a target generates code for a resource, if it does. -/
def resourceGenerator? : Target → Option (ResourceRequest → List File)
  | .jsonschema => some fun request => [Descriptor.schemaFile request]
  | .osc => some Osc.generate
  | .ansible => some Ansible.generate
  | _ => none

/-! ### Documents and metadata -/

/-- The document of the routes that a request names. -/
def extraction (session : Session) (request : Request) : Except Error File := do
  let path ← needed request.routeMap .routeMap
  let routeMap ← ofCause (session.document RouteMap.read path)
  let prose ← request.prose.mapM fun path => ofCause (session.document Prose.read path)
  return routeMap.file prose

/-- The directory and the name of the metadata that a request writes. -/
def metadataPlace (config : Config) (request : Request) (service : String) :
    Except Error (String × String) :=
  match request.metadata with
  | some path =>
    match FilePath.fileName? path with
    | some name => return (FilePath.directory path, name)
    | none => throw (.usage .metadataFile)
  | none =>
    let directory := FilePath.join request.workDirectory (config.root .metadata)
    return (directory, service ++ "_metadata.yaml")

/-- The metadata of a document, which it names as seen from the directory of the metadata. -/
def metadataOfSpec (session : Session) (request : Request) (path service directory : String) :
    Except Error Metadata := do
  let spec ← ofCause (session.spec path)
  let specFile := FilePath.relativeTo session.workspace.current path directory
  (Metadata.synthesize spec service specFile request.apiVersion).mapError fun error =>
    .cause (.ungenerable error)

/-- The plan that writes the metadata of a document. -/
def synthesis (session : Session) (config : Config) (request : Request) : Plan :=
  let place := do
    let path ← needed request.openapiSpec .openapiSpec
    let service ← needed request.service .metadataService
    return (path, service, ← metadataPlace config request service)
  match place with
  | .error error => { root := "", rendering := .ofFailure error }
  | .ok (path, service, directory, name) =>
    let file := (metadataOfSpec session request path service directory).map fun metadata =>
      [{ path := name, language := .yaml, contents := Yaml.render metadata.toJson }]
    { root := directory, rendering := .ofResult [path] file }

/-! ### Single resources and operations -/

/-- The files of one class in a file of descriptors. -/
def descriptorFiles (session : Session) (request : Request) (path className : String) :
    Except Error (List File) := do
  let generate ← needed (resourceGenerator? request.target) (.takesNoDescriptor request.target)
  let service ← needed request.service .moduleService
  let file ← ofCause (session.document DescriptorFile.read path)
  let descriptor ← ofCause ((file.find className).mapError .ungenerable)
  return generate { service, apiVersion := request.apiVersion.getD defaultVersion, descriptor }

/-- The files of an operation, generated on its own. -/
def operationFiles (session : Session) (path operation service : String)
    (apiVersion : Option String)
    (generate : OperationRequest → Except GenerationError (List File)) :
    Except Cause (List File) := do
  let spec ← session.spec path
  let placed ← (OperationRequest.find spec operation).mapError .ungenerable
  let resource : Resource.Id := ⟨service, Resource.pathName placed.path⟩
  (generate { spec, resource, operation, apiVersion }).mapError .ungenerable

/-- Renders one operation of a document. -/
def operationRendering (session : Session) (config : Config) (request : Request)
    (path operation : String) : Rendering :=
  let inputs := do
    let generate ←
      needed (operationGenerator? config request.target) (.takesNoOperation request.target)
    return (generate, ← needed request.service .operationService)
  match inputs with
  | .error error => .ofFailure error
  | .ok (generate, service) =>
    .ofResult [path] ((operationFiles session path operation service request.apiVersion
      generate).mapError (.operation operation path))

/-! ### Metadata -/

/-- One operation of a resource for one target. -/
structure Pair where
  resource : Resource.Id
  entry : ResourceEntry
  key : String
  operation : OperationEntry
  parameters : TargetParameters

/-- The file with the document of an operation; it is named from the directory of the metadata. -/
def specFile (directory : String) (entry : ResourceEntry) (operation : OperationEntry) : String :=
  FilePath.join directory (operation.specFile.getD entry.specFile)

/-- The operations of resources that a target takes, in the order of the metadata. -/
def pairs (target : Target) (resources : List (Resource.Id × ResourceEntry)) : List Pair :=
  resources.flatMap fun (resource, entry) =>
    entry.operations.filterMap fun (key, operation) =>
      (operation.targets.lookup target).map fun parameters =>
        { resource, entry, key, operation, parameters }

/-- The files of an operation, generated as the metadata says. -/
def pairFiles (session : Session) (path : String) (pair : Pair)
    (generate : OperationRequest → Except GenerationError (List File)) :
    Except Cause (List File) := do
  let spec ← session.spec path
  let request : OperationRequest := {
    spec
    resource := pair.resource
    operation := pair.operation.operation
    key := some pair.key
    kind := pair.operation.kind
    apiVersion := pair.entry.apiVersion
    parameters := pair.parameters }
  (generate request).mapError .ungenerable

/-- Renders an operation that metadata names. A failure names the operation too. -/
def pairRendering (session : Session) (directory : String)
    (generate : OperationRequest → Except GenerationError (List File)) (pair : Pair) : Rendering :=
  let path := specFile directory pair.entry pair.operation
  .ofResult [path]
    ((pairFiles session path pair generate).mapError (.operation pair.operation.operation path))

/-- The key of the extension that holds the descriptor of a resource. -/
def descriptorKey : String := "descriptor"

/-- The kinds of the operations of a resource. -/
def operationKinds (entry : ResourceEntry) : List (OperationEntry × Kind) :=
  entry.operations.map fun (key, operation) => (operation, operation.kind.getD (.ofName key))

/-- The operation that shows one resource. -/
def showOperation? (entry : ResourceEntry) : Option OperationEntry :=
  ((operationKinds entry).find? fun operation => operation.2 = .showItem).map Prod.fst

/-- The descriptor of a resource: its extension, or else one derived from the operation that shows
it, with the capabilities of all its operations. -/
def resourceDescriptor (session : Session) (directory : String) (resource : Resource.Id)
    (entry : ResourceEntry) : List String × Except Error Descriptor :=
  match entry.extensions.get? descriptorKey with
  | some value =>
    ([], ofCause ((Document.ofJson Descriptor.read value).mapError .invalidDescriptor))
  | none =>
    match showOperation? entry with
    | none => ([], throw (.cause (.ungenerable (.missingDescriptor resource.key))))
    | some operation =>
      let path := specFile directory entry operation
      let descriptor : Except Cause Descriptor := do
        let spec ← session.spec path
        let descriptor ←
          (Descriptor.ofOperation spec operation.operation resource.leaf).mapError .ungenerable
        return descriptor.withCapabilities ((operationKinds entry).map Prod.snd)
      ([path], descriptor.mapError (.operation operation.operation path))

/-- Renders a resource that metadata names, if the target has one of its operations. -/
def resourceRendering (session : Session) (target : Target) (directory : String)
    (generate : ResourceRequest → List File) (resource : Resource.Id) (entry : ResourceEntry) :
    Rendering :=
  if entry.operations.any fun operation => (operation.2.targets.lookup target).isSome then
    let (specs, descriptor) := resourceDescriptor session directory resource entry
    .ofResult specs (descriptor.map fun descriptor => generate {
      service := resource.service
      apiVersion := entry.apiVersion.getD defaultVersion
      descriptor })
  else {}

/-- Adds the files that list the modules of a rendering. -/
def withIndex (rendering : Rendering) : Rendering :=
  rendering.andThen
    { files := (ModuleIndex.ofRecords (rendering.files.filterMap File.record)).files }

/-- The files of the selected resources. Modules are listed only if no resource is left out. -/
def metadataRendering (session : Session) (config : Config) (request : Request) (path : String) :
    Rendering :=
  let directory := FilePath.directory path
  let selected := do
    let metadata ← ofCause (session.document Metadata.read path)
    request.select metadata
  match selected with
  | .error error => .ofFailure error
  | .ok resources =>
    match operationGenerator? config request.target, resourceGenerator? request.target with
    | some generate, _ =>
      let pairs := pairs request.target resources
      let session :=
        session.keepAll (pairs.map fun pair => specFile directory pair.entry pair.operation)
      let rendering := Rendering.forEach (pairRendering session directory generate) pairs
      if request.resourceFilter.isNone then withIndex rendering else rendering
    | none, some generate =>
      Rendering.forEach
        (fun (resource, entry) =>
          resourceRendering session request.target directory generate resource entry)
        resources
    | none, none => .ofFailure (.usage (.takesNoMetadata request.target))

/-! ### Plans -/

/-- The files of a target that reads descriptors, documents or metadata. -/
def generation (session : Session) (config : Config) (request : Request) : Rendering :=
  match request.descriptors, request.className with
  | some path, some className => .ofResult [] (descriptorFiles session request path className)
  | none, none =>
    match request.openapiSpec, request.operation with
    | some path, some operation => operationRendering session config request path operation
    | _, _ =>
      match request.metadata with
      | some path => metadataRendering session config request path
      | none => .ofFailure (.usage .metadata)
  | _, _ => .ofFailure (.usage .moduleAndClass)

/-- The plan of a request. -/
def plan (session : Session) (config : Config) (request : Request) : Plan :=
  let root := FilePath.join request.workDirectory (config.root request.target)
  match request.target with
  | .openapiSpec =>
    { root, rendering := .ofResult [] ((extraction session request).map fun file => [file]) }
  | .metadata => synthesis session config request
  | _ => { root, rendering := generation session config request }

end ServiceForge.Project
