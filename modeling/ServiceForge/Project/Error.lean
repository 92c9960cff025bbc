/-
This file holds the reasons for which a request of a project fails.
-/

import ServiceForge.Document.Value
import ServiceForge.GenerationError
import ServiceForge.OpenApi.Loading
import ServiceForge.Target

namespace ServiceForge.Project

/-- What went wrong with a file or with what was read from it. -/
inductive Cause where
  | inaccessible
  | malformed (error : Document.Error)
  | invalidDescriptor (error : Document.Error)
  | unloadable (error : OpenApi.LoadError)
  | ungenerable (error : GenerationError)
deriving Repr

namespace Cause

/-- The text that explains a cause. -/
def message : Cause → String
  | inaccessible => "No such file or directory (os error 2)"
  | malformed error => error.message
  | invalidDescriptor error => error.message
  | unloadable error => error.message
  | ungenerable error => error.message

end Cause

/-- What a request lacks. -/
inductive Usage where
  | routeMap
  | openapiSpec
  | metadataService
  | metadataFile
  | metadata
  | validateMetadata
  | moduleAndClass
  | moduleService
  | operationService
  | takesNoDescriptor (target : Target)
  | takesNoOperation (target : Target)
  | takesNoMetadata (target : Target)
deriving DecidableEq, Repr

namespace Usage

/-- The text that explains what a request lacks. -/
def message : Usage → String
  | routeMap => "the openapi-spec target needs --route-map"
  | openapiSpec => "the metadata target needs --openapi-yaml-spec"
  | metadataService => "the metadata target needs --service-type"
  | metadataFile => "--metadata must name a file"
  | metadata => "--metadata is required (or --openapi-yaml-spec with --openapi-operation-id)"
  | validateMetadata => "--validate needs --metadata"
  | moduleAndClass => "--module and --class-name go together"
  | moduleService => "--module needs --service-type"
  | operationService => "--openapi-operation-id needs --service-type"
  | takesNoDescriptor target =>
    "target '" ++ target.name ++ "' does not take a resource descriptor"
  | takesNoOperation target =>
    "target '" ++ target.name ++ "' does not generate single operations"
  | takesNoMetadata target => "target '" ++ target.name ++ "' does not read metadata"

end Usage

/-- Why a request fails. -/
inductive Error where
  | cause (cause : Cause)
  | operation (id specFile : String) (cause : Cause)
  | unknownResource (wanted : String)
  | usage (usage : Usage)
  | validation (failed checked : Nat)
deriving Repr

namespace Error

/-- The text that explains why a request fails. -/
def message : Error → String
  | .cause reason => reason.message
  | .operation id specFile _ => "operation '" ++ id ++ "' (" ++ specFile ++ ")"
  | .unknownResource wanted => "no resource in metadata matches '" ++ wanted ++ "'"
  | .usage lacking => lacking.message
  | .validation failed checked =>
    toString failed ++ " of " ++ toString checked ++ " operations failed validation"

/-- The message of an error followed by that of its cause. -/
def chain (error : Error) : List String :=
  match error with
  | .operation _ _ reason => [error.message, reason.message]
  | _ => [error.message]

end Error

end ServiceForge.Project
