/-
This file holds the request to generate the files of one resource from its
descriptor, and what the generated commands say about the resource.
-/

import ServiceForge.Descriptor.Verb
import ServiceForge.Generation.File

namespace ServiceForge.Generation

open ServiceForge.Text

/-- A request to generate code for a resource that is described. -/
structure ResourceRequest where
  service : String
  apiVersion : String
  descriptor : Descriptor

namespace ResourceRequest

/-- The service as the name of a module. -/
def serviceModule (request : ResourceRequest) : String := Naming.moduleName request.service

/-- The resource as the name of a module. -/
def resourceModule (request : ResourceRequest) : String :=
  Naming.moduleName request.descriptor.name

/-- The name of many resources, as described or made from the name of one. -/
def plural (request : ResourceRequest) : String :=
  request.descriptor.resourcesKey.getD (Naming.pluralize request.resourceModule)

end ResourceRequest

/-- A name as words for a reader. -/
def spaced (name : String) : String := replaceCharacter '_' " " name

/-- The first line of a documentation that is not blank, without the points at its end. -/
def summaryLine? (doc : Option String) : Option String := do
  let line ← ((lines (← doc)).map trim).find? fun line => !line.isEmpty
  return trimEnd (· = '.') line

end ServiceForge.Generation
