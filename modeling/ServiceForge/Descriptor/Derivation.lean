/-
This file derives descriptors from schemas, and the schema of an attribute back
from its descriptor. The parts of an `allOf` are merged first; what the schema
itself says goes before its parts, and an earlier part before a later one.
-/

import ServiceForge.Descriptor.Basic
import ServiceForge.Generation.Media
import ServiceForge.Generation.Request
import ServiceForge.Lowering.Merge
import ServiceForge.OpenApi.Schema.Size
import ServiceForge.Resource.Schema

namespace ServiceForge.Descriptor

open ServiceForge.OpenApi (Schema Spec)

/-! ### Parts of a schema -/

/-- The properties together with the new ones of a part. -/
def mergeProperties (properties added : List (String × Schema)) : List (String × Schema) :=
  added.foldl (fun properties property => OrderedMap.insertNew properties property.1 property.2)
    properties

/-- Adds a part to a schema. -/
def mergePart (merged part : Schema) : Schema :=
  { merged with
    type := merged.type.or part.type
    format := merged.format.or part.format
    description := merged.description.or part.description
    items := merged.items.or part.items
    oneOf := if merged.oneOf.isEmpty then part.oneOf else merged.oneOf
    anyOf := if merged.anyOf.isEmpty then part.anyOf else merged.anyOf
    properties := mergeProperties merged.properties part.properties
    required := Lowering.mergeRequired merged.required part.required }

mutual

/-- The schema together with its parts, which may have parts of their own. -/
def mergeAllOf (schema : Schema) : Schema :=
  match schema with
  | { allOf, .. } => mergeParts { schema with allOf := [] } allOf
termination_by structural schema

/-- Merges parts into a schema one after another, each with its own parts merged first. -/
def mergeParts (merged : Schema) (parts : List Schema) : Schema :=
  match parts with
  | [] => merged
  | part :: rest => mergeParts (mergePart merged (mergeAllOf part)) rest
termination_by structural parts

end

/-! ### Attributes -/

/-- The type of an attribute whose schema is not a union. -/
def attributeType (schema : Schema) (location : String) :
    Except GenerationError AttributeType :=
  match schema.nonNullTypes with
  | [] =>
    if !schema.properties.isEmpty then return .dictionary
    else if schema.items.isSome then return .list
    else return .raw
  | ["string"] => return .text
  | ["integer"] => return .integer
  | ["number"] => return .float
  | ["boolean"] => return .boolean
  | ["array"] => return .list
  | ["object"] => return .dictionary
  | [other] => throw (.unsupportedType other location)
  | _ => return .raw

/-- The attribute of a schema that holds unions inside each other less deep than the limit. -/
def attributeWithin (limit : Nat) (schema : Schema) (location : String) :
    Except GenerationError Attribute :=
  match limit with
  | 0 => throw (.endlessSchema location)
  | limit + 1 => do
    let schema := mergeAllOf schema
    if schema.branches.isEmpty then
      return {
        type := ← attributeType schema location
        format := schema.format
        doc := schema.description }
    else
      match schema.nonNullBranches with
      | [single] =>
        let described ← attributeWithin limit single location
        return { described with doc := schema.description.or described.doc }
      | _ => return { type := .raw, doc := schema.description }

/-- The attribute of a schema. A union with one branch that is not null is that branch; any other
union may hold any value. -/
def attributeOfSchema (schema : Schema) (location : String) : Except GenerationError Attribute :=
  attributeWithin schema.size schema location

/-- The name that a schema has for the type of an attribute. -/
def schemaType? : AttributeType → Option String
  | .text => some "string"
  | .integer => some "integer"
  | .float => some "number"
  | .boolean => some "boolean"
  | .list => some "array"
  | .dictionary => some "object"
  | .raw => none

/-- The schema of an attribute. -/
def Attribute.schema (described : Attribute) : Schema :=
  { type := (schemaType? described.type).map .single
    format := described.format
    description := described.doc }

/-! ### Resources -/

/-- The descriptor of a resource with the given schema, without capabilities. -/
def ofSchema (name : String) (schema : Schema) : Except GenerationError Descriptor := do
  let attributes ← schema.properties.mapM fun (property, propertySchema) => do
    let described ← attributeOfSchema propertySchema property
    return (property, { described with required := schema.isRequired property })
  return { name, doc := schema.description, attributes }

/-- The descriptor of the resource that an operation answers with. -/
def ofOperation (spec : Spec) (operation leaf : String) : Except GenerationError Descriptor := do
  let placed ← Generation.OperationRequest.find spec operation
  match (Generation.responseSchema? placed).map (Resource.locate · leaf) with
  | none => throw (.missingResourceSchema operation)
  | some found =>
    unless found.schema.isObject do throw (.missingResourceSchema operation)
    let name := Naming.singularize (Naming.moduleName leaf)
    let descriptor ← ofSchema name found.schema
    return { descriptor with
      resourceKey := found.key
      resourcesKey := found.key.map fun _ => Naming.pluralize name }

end ServiceForge.Descriptor
