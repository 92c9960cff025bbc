/-
This file merges the parts of an `allOf` into one schema. The schema itself comes
first; a later part adds properties and required names and replaces a property
that is there already.
-/

import ServiceForge.GenerationError
import ServiceForge.OpenApi.Schema.Size

namespace ServiceForge.Lowering

open ServiceForge.OpenApi (Schema Spec TypeNames)

/-- The required names together with those of a part. -/
def mergeRequired (names added : List String) : List String :=
  added.foldl (fun names name => if names.contains name then names else names ++ [name]) names

/-- Puts properties into others. A property of the same name is replaced in its place. -/
def mergeProperties (properties added : List (String × Schema)) : List (String × Schema) :=
  added.foldl (fun properties property => OrderedMap.insert properties property.1 property.2)
    properties

/-- Adds a part to a schema. -/
def mergePart (merged part : Schema) : Schema :=
  { merged with
    type := merged.type.or part.type
    description := merged.description.or part.description
    nullable := if part.nullable = some true then some true else merged.nullable
    properties := mergeProperties merged.properties part.properties
    required := mergeRequired merged.required part.required
    additional := merged.additional.or part.additional }

/-- A schema without a type that has properties is an object. -/
def completeType (schema : Schema) : Schema :=
  if schema.type.isNone && !schema.properties.isEmpty then
    { schema with type := some (.single "object") }
  else schema

/-- Merges parts into a schema and completes its type from what was merged. -/
def mergeParts (schema : Schema) (parts : List Schema) : Schema :=
  completeType (parts.foldl mergePart { schema with allOf := [] })

/-- The schema that a part stands for. -/
def resolvePart (spec : Spec) (part : Schema) : Except GenerationError Schema :=
  match part.referenceName? with
  | some name =>
    match spec.schema? name with
    | some schema => return schema
    | none => throw (.componentNotFound name)
  | none => return part

/-- Merges the parts of a schema whose parts have parts of their own only so deep. -/
def mergeWithin (spec : Spec) (limit : Nat) (schema : Schema) : Except GenerationError Schema :=
  match limit with
  | 0 => throw (.endlessSchema "allOf")
  | limit + 1 => do
    let parts ← schema.allOf.mapM fun part => do
      let part ← resolvePart spec part
      if part.allOf.isEmpty then return part else mergeWithin spec limit part
    return mergeParts schema parts

/-- Merges the parts of a schema. A chain of parts that passes no component twice is within the
limit. -/
def mergeAllOf (spec : Spec) (schema : Schema) : Except GenerationError Schema :=
  mergeWithin spec (spec.schemasSize + schema.size + 1) schema

end ServiceForge.Lowering
