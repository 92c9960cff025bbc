/-
This file makes the JSON Schema of a resource from its descriptor.
-/

import ServiceForge.Descriptor.Derivation
import ServiceForge.Generation.Resource
import ServiceForge.Json.Printer
import ServiceForge.OpenApi.Schema.Document

namespace ServiceForge.Descriptor

open ServiceForge.Generation (File ResourceRequest)
open ServiceForge.OpenApi (Schema)
open ServiceForge.Text

/-- Whether an attribute counts something, so that its values are integers. -/
def isCounter (name : String) : Bool :=
  let name := String.ofList (name.toList.map Char.toLower)
  startsWith "min" name || startsWith "max" name || (find? "count" name).isSome

/-- The schema of an attribute as a property of its resource. -/
def propertySchema (name : String) (described : Attribute) : Schema :=
  { described.schema with
    type := if isCounter name then some (.single "integer") else described.schema.type
    readOnly := if isServerAssigned name then some true else none }

/-- The schema of the attributes of a resource. -/
def bodySchema (descriptor : Descriptor) : Schema :=
  { type := some (.single "object")
    description := descriptor.doc
    properties := descriptor.attributes.map fun (name, described) =>
      (name, propertySchema name described)
    required := (descriptor.attributes.filter fun entry => entry.2.required).map Prod.fst }

/-- The schema of a resource, which is the value of a property if it has a key. -/
def resourceSchema (descriptor : Descriptor) : Schema :=
  match descriptor.resourceKey with
  | some key =>
    { type := some (.single "object")
      properties := [(key, bodySchema descriptor)]
      required := [key] }
  | none => bodySchema descriptor

/-- The file with the schema of a resource. -/
def schemaFile (request : ResourceRequest) : File :=
  { path := request.serviceModule ++ "/" ++ request.resourceModule ++ ".json"
    language := .json
    contents := (resourceSchema request.descriptor).toJson.pretty "" ++ "\n" }

end ServiceForge.Descriptor
