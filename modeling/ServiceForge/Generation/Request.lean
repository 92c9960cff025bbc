/-
This file holds the request to generate one operation of a resource, and what
follows from it: the kind of the operation, its version, and the place of its
module.
-/

import ServiceForge.Classification
import ServiceForge.GenerationError
import ServiceForge.Metadata.Basic
import ServiceForge.Resource.Id
import ServiceForge.Resource.Path

namespace ServiceForge.Generation

open ServiceForge.OpenApi (PlacedOperation Spec)
open ServiceForge.Text

/-- A request to generate code for one operation of a document. -/
structure OperationRequest where
  spec : Spec
  resource : Resource.Id
  operation : String
  key : Option String := none
  kind : Option Kind := none
  apiVersion : Option String := none
  parameters : TargetParameters := {}

namespace OperationRequest

/-- The operation with the given id. -/
def find (spec : Spec) (operation : String) : Except GenerationError PlacedOperation :=
  match spec.findOperation? operation with
  | some placed => return placed
  | none => throw (.operationNotFound operation)

/-- The requested operation with its path and method. -/
def placed (request : OperationRequest) : Except GenerationError PlacedOperation :=
  find request.spec request.operation

/-- The kind that the classification gives, or else one named by the key or the method. -/
def classifiedKind (request : OperationRequest) (placed : PlacedOperation) : Kind :=
  match Classification.ofOperation request.spec placed with
  | .known kind => kind
  | .skipped _ => .ofName (request.key.getD placed.method.name)

/-- The kind of the operation; the parameters of the target go before the metadata. -/
def effectiveKind (request : OperationRequest) (placed : PlacedOperation) : Kind :=
  (request.parameters.kind.or request.kind).getD (request.classifiedKind placed)

/-- The version that code is generated for: the requested one, that of the path, or the first. -/
def version (request : OperationRequest) (placed : PlacedOperation) : String :=
  (request.apiVersion.or (Resource.pathVersion? placed.path)).getD "v1"

/-- The directory of the module: service, version and resource unless it is given. -/
def directory (request : OperationRequest) (placed : PlacedOperation) : List String :=
  match request.parameters.modulePath with
  | some path => (segments '/' path).map Naming.moduleName
  | none =>
    ([request.resource.service, request.version placed] ++ request.resource.segments).map
      Naming.moduleName

/-- The name of the module before any variant. -/
def moduleName (request : OperationRequest) (kind : Kind) : String :=
  Naming.moduleName ((request.parameters.moduleName.or request.key).getD kind.name)

/-- The resource as one word in the singular. -/
def singular (request : OperationRequest) : String :=
  Naming.singularize (Naming.moduleName request.resource.leaf)

end OperationRequest

end ServiceForge.Generation
