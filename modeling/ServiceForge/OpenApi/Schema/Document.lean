/-
This file reads schemas from documents and writes them. Below the keywords
`type` and `additionalProperties`, which take values of more than one type, the
scalars are typed before they are read.
-/

import ServiceForge.Document.Reader
import ServiceForge.Document.Writer
import ServiceForge.OpenApi.Schema.Basic

namespace ServiceForge.OpenApi

open ServiceForge.Document

namespace TypeNames

/-- Reads the names of types, one or a list of them. -/
def read : Reader TypeNames := fun _ value => do
  match value with
  | .array .. => return .multiple (← Reader.list Reader.text .typed value)
  | value => return .single (← Reader.text .typed value)

/-- The names of types as JSON, in the form that they were given in. -/
def toJson : TypeNames → Json
  | single name => .string name
  | multiple names => Writer.texts names

end TypeNames

namespace Additional

variable {α : Type}

/-- Reads what is allowed beside the properties: anything, nothing or values of a schema. -/
def read (readEach : Reader α) : Reader (Additional α) := fun _ value => do
  match value with
  | .atom _ => return .allowed (← Reader.flag .typed value)
  | value => return .each (← readEach .typed value)

end Additional

namespace Schema

/-- The keywords that are read, in the order in which they are written. -/
def keywords : List String :=
  ["$ref", "type", "format", "title", "description", "default", "items", "properties", "required",
    "nullable", "additionalProperties", "oneOf", "anyOf", "allOf", "enum", "pattern", "maxLength",
    "minLength", "readOnly"]

/-! ### Reading -/

/-- Reads a schema whose values are nested less deep than the limit. -/
def readWithin (limit : Nat) : Reader Schema := fun mode value => do
  match limit with
  | 0 => mismatch "schema is nested too deep"
  | limit + 1 =>
    let schema := readWithin limit
    let fields ← Fields.ofOpen keywords mode value
    return {
      reference := ← fields.optional "$ref" Reader.text
      type := ← fields.optional "type" TypeNames.read
      format := ← fields.optional "format" Reader.text
      title := ← fields.optional "title" Reader.text
      description := ← fields.optional "description" Reader.text
      default := ← fields.optional "default" Reader.json
      items := ← fields.optional "items" schema
      properties := ← fields.map "properties" schema
      required := ← fields.list "required" Reader.text
      nullable := ← fields.optional "nullable" Reader.flag
      additional := ← fields.optional "additionalProperties" (Additional.read schema)
      oneOf := ← fields.list "oneOf" schema
      anyOf := ← fields.list "anyOf" schema
      allOf := ← fields.list "allOf" schema
      choices := ← fields.list "enum" Reader.json
      pattern := ← fields.optional "pattern" Reader.text
      maxLength := ← fields.optional "maxLength" Reader.natural
      minLength := ← fields.optional "minLength" Reader.natural
      readOnly := ← fields.optional "readOnly" Reader.flag
      rest := fields.rest }

/-- Reads a schema. -/
def read : Reader Schema := fun mode value => readWithin (value.depth + 1) mode value

/-! ### Writing -/

mutual

/-- A schema as a JSON object. -/
def toJson (schema : Schema) : Json :=
  match schema with
  | { items, properties, additional, oneOf, anyOf, allOf, .. } =>
    .object
      (Writer.text "$ref" schema.reference ++
        Writer.present "type" TypeNames.toJson schema.type ++
        Writer.text "format" schema.format ++
        Writer.text "title" schema.title ++
        Writer.text "description" schema.description ++
        Writer.present "default" id schema.default ++
        itemsToJson items ++
        Writer.filledMap "properties" (propertiesToJson properties) ++
        Writer.filled "required" (schema.required.map Json.string) ++
        Writer.present "nullable" Json.bool schema.nullable ++
        additionalToJson additional ++
        Writer.filled "oneOf" (branchesToJson oneOf) ++
        Writer.filled "anyOf" (branchesToJson anyOf) ++
        Writer.filled "allOf" (branchesToJson allOf) ++
        Writer.filled "enum" schema.choices ++
        Writer.text "pattern" schema.pattern ++
        Writer.present "maxLength" Writer.natural schema.maxLength ++
        Writer.present "minLength" Writer.natural schema.minLength ++
        Writer.present "readOnly" Json.bool schema.readOnly ++
        schema.rest)
termination_by structural schema

/-- The member for the schema of items. -/
def itemsToJson (items : Option Schema) : Writer.Members :=
  match items with
  | none => []
  | some schema => [("items", toJson schema)]
termination_by structural items

/-- The schemas of properties as JSON. -/
def propertiesToJson (properties : List (String × Schema)) : Writer.Members :=
  match properties with
  | [] => []
  | property :: rest => propertyToJson property :: propertiesToJson rest
termination_by structural properties

/-- The schema of a property as JSON. -/
def propertyToJson (property : String × Schema) : String × Json :=
  match property with
  | (name, schema) => (name, toJson schema)
termination_by structural property

/-- The member for what is allowed beside the properties. -/
def additionalToJson (additional : Option (Additional Schema)) : Writer.Members :=
  match additional with
  | none => []
  | some extra => [("additionalProperties", extraToJson extra)]
termination_by structural additional

/-- What is allowed beside the properties as JSON. -/
def extraToJson (extra : Additional Schema) : Json :=
  match extra with
  | .allowed flag => .bool flag
  | .each schema => toJson schema
termination_by structural extra

/-- The branches of a union as JSON. -/
def branchesToJson (branches : List Schema) : List Json :=
  match branches with
  | [] => []
  | branch :: rest => toJson branch :: branchesToJson rest
termination_by structural branches

end

end Schema

end ServiceForge.OpenApi
