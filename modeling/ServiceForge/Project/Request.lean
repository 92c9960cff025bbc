/-
This file holds the requests that a project answers, and the resources that a
request selects.
-/

import ServiceForge.Metadata.Basic
import ServiceForge.Project.Error
import ServiceForge.Resource.Id

namespace ServiceForge.Project

open ServiceForge.Text

/-- What a run is asked for. -/
structure Request where
  target : Target
  /-- The directory that holds the roots of the targets. -/
  workDirectory : String := "."
  /-- The metadata, which the target for metadata writes and others read. -/
  metadata : Option String := none
  openapiSpec : Option String := none
  operation : Option String := none
  service : Option String := none
  apiVersion : Option String := none
  /-- How the service of a selected resource starts. -/
  serviceFilter : Option String := none
  /-- How the name of a selected resource starts. -/
  resourceFilter : Option String := none
  descriptors : Option String := none
  className : Option String := none
  routeMap : Option String := none
  prose : Option String := none
deriving DecidableEq, Repr

namespace Request

/-- Whether a request is about a resource, whose service and name begin with what it asks for. -/
def selects (request : Request) (resource : Resource.Id) : Bool :=
  request.serviceFilter.all (startsWith · resource.service) &&
    request.resourceFilter.all (startsWith · resource.name)

/-- The filters of a request as it shows them. -/
def filterText (request : Request) : String :=
  join "." (request.serviceFilter.toList ++ request.resourceFilter.toList)

/-- The resources that a request selects, in the order of the metadata. -/
def selection (request : Request) (metadata : Metadata) :
    List (Resource.Id × ResourceEntry) :=
  (metadata.resources.map fun (key, resource) => (Resource.Id.ofKey key, resource)).filter
    fun entry => request.selects entry.1

/-- The selected resources; a filter has to select some. -/
def select (request : Request) (metadata : Metadata) :
    Except Error (List (Resource.Id × ResourceEntry)) :=
  let selected := request.selection metadata
  if selected.isEmpty && (request.serviceFilter.isSome || request.resourceFilter.isSome) then
    throw (.unknownResource request.filterText)
  else return selected

end Request

end ServiceForge.Project
