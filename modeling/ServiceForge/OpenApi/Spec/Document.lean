/-
This file reads OpenAPI documents and their parts from documents and writes
them.
-/

import ServiceForge.OpenApi.Schema.Document
import ServiceForge.OpenApi.Spec.Basic

namespace ServiceForge.OpenApi

open ServiceForge.Document

namespace Media

/-- Reads content of one media type. -/
def read : Reader Media := fun mode value => do
  let fields ← Fields.ofOpen ["schema"] mode value
  return { schema := ← fields.optional "schema" Schema.read, rest := fields.rest }

/-- Content of one media type as a JSON object. -/
def toJson (media : Media) : Json :=
  .object (Writer.present "schema" Schema.toJson media.schema ++ media.rest)

end Media

namespace Location

/-- Reads a location of parameters by its name. -/
def read : Reader Location := Reader.choice (all.map fun location => (location.name, location))

/-- The name of a location of parameters as JSON. -/
def toJson (location : Location) : Json := .string location.name

end Location

namespace Parameter

/-- Reads a parameter. -/
def read : Reader Parameter := fun mode value => do
  let fields ← Fields.ofOpen
    ["name", "in", "description", "required", "style", "explode", "schema"] mode value
  return {
    name := ← fields.required "name" Reader.text
    location := ← fields.required "in" Location.read
    description := ← fields.optional "description" Reader.text
    required := ← fields.flag "required"
    style := ← fields.optional "style" Reader.text
    explode := ← fields.optional "explode" Reader.flag
    schema := ← fields.optional "schema" Schema.read
    rest := fields.rest }

/-- A parameter as a JSON object. -/
def toJson (parameter : Parameter) : Json :=
  .object
    ([("name", .string parameter.name), ("in", parameter.location.toJson)] ++
      Writer.text "description" parameter.description ++
      Writer.whenSet "required" parameter.required ++
      Writer.text "style" parameter.style ++
      Writer.present "explode" Json.bool parameter.explode ++
      Writer.present "schema" Schema.toJson parameter.schema ++
      parameter.rest)

end Parameter

namespace Header

/-- Reads a header. -/
def read : Reader Header := fun mode value => do
  let fields ← Fields.ofOpen ["description", "schema"] mode value
  return {
    description := ← fields.optional "description" Reader.text
    schema := ← fields.optional "schema" Schema.read
    rest := fields.rest }

/-- A header as a JSON object. -/
def toJson (header : Header) : Json :=
  .object
    (Writer.text "description" header.description ++
      Writer.present "schema" Schema.toJson header.schema ++
      header.rest)

end Header

namespace Response

/-- Reads a response. -/
def read : Reader Response := fun mode value => do
  let fields ← Fields.ofOpen ["description", "headers", "content"] mode value
  return {
    description := ← fields.optional "description" Reader.text
    headers := ← fields.map "headers" Header.read
    content := ← fields.map "content" Media.read
    rest := fields.rest }

/-- A response as a JSON object. -/
def toJson (response : Response) : Json :=
  .object
    (Writer.text "description" response.description ++
      Writer.filledMap "headers" (Writer.map Header.toJson response.headers) ++
      Writer.filledMap "content" (Writer.map Media.toJson response.content) ++
      response.rest)

end Response

namespace RequestBody

/-- Reads the body of a request. -/
def read : Reader RequestBody := fun mode value => do
  let fields ← Fields.ofOpen ["description", "content", "required"] mode value
  return {
    description := ← fields.optional "description" Reader.text
    content := ← fields.map "content" Media.read
    required := ← fields.flag "required"
    rest := fields.rest }

/-- The body of a request as a JSON object. -/
def toJson (body : RequestBody) : Json :=
  .object
    (Writer.text "description" body.description ++
      [("content", .object (Writer.map Media.toJson body.content))] ++
      Writer.whenSet "required" body.required ++
      body.rest)

end RequestBody

namespace Operation

/-- Reads an operation. -/
def read : Reader Operation := fun mode value => do
  let fields ← Fields.ofOpen
    ["operationId", "summary", "description", "tags", "parameters", "requestBody", "responses"]
    mode value
  return {
    id := ← fields.optional "operationId" Reader.text
    summary := ← fields.optional "summary" Reader.text
    description := ← fields.optional "description" Reader.text
    tags := ← fields.list "tags" Reader.text
    parameters := ← fields.list "parameters" Parameter.read
    requestBody := ← fields.optional "requestBody" RequestBody.read
    responses := ← fields.map "responses" Response.read
    rest := fields.rest }

/-- An operation as a JSON object. -/
def toJson (operation : Operation) : Json :=
  .object
    (Writer.text "operationId" operation.id ++
      Writer.text "summary" operation.summary ++
      Writer.text "description" operation.description ++
      Writer.filled "tags" (operation.tags.map Json.string) ++
      Writer.filled "parameters" (operation.parameters.map Parameter.toJson) ++
      Writer.present "requestBody" RequestBody.toJson operation.requestBody ++
      [("responses", .object (Writer.map Response.toJson operation.responses))] ++
      operation.rest)

end Operation

namespace PathItem

/-- Reads a path with its operations. -/
def read : Reader PathItem := fun mode value => do
  let fields ← Fields.ofOpen ("parameters" :: Method.all.map Method.name) mode value
  let parameters ← fields.list "parameters" Parameter.read
  let operations ← Method.all.mapM fun method => do
    return (method, ← fields.optional method.name Operation.read)
  return {
    parameters
    operation := fun method => (operations.lookup method).join
    rest := fields.rest }

/-- A path with its operations as a JSON object. -/
def toJson (item : PathItem) : Json :=
  .object
    (Writer.filled "parameters" (item.parameters.map Parameter.toJson) ++
      (item.operations.map fun (method, operation) => (method.name, operation.toJson)) ++
      item.rest)

end PathItem

namespace Components

/-- Reads the components of a document. -/
def read : Reader Components := fun mode value => do
  let fields ← Fields.ofOpen ["schemas", "parameters", "headers"] mode value
  return {
    schemas := ← fields.map "schemas" Schema.read
    parameters := ← fields.map "parameters" Parameter.read
    headers := ← fields.map "headers" Header.read
    rest := fields.rest }

/-- The components of a document as a JSON object. -/
def toJson (components : Components) : Json :=
  .object
    (Writer.filledMap "schemas" (Writer.map Schema.toJson components.schemas) ++
      Writer.filledMap "parameters" (Writer.map Parameter.toJson components.parameters) ++
      Writer.filledMap "headers" (Writer.map Header.toJson components.headers) ++
      components.rest)

end Components

namespace Spec

/-- Reads an OpenAPI document. -/
def read : Reader Spec := fun mode value => do
  let fields ← Fields.ofOpen ["openapi", "info", "paths", "components"] mode value
  return {
    version := ← fields.required "openapi" Reader.text
    info := ← fields.withDefault "info" .null Reader.json
    paths := ← fields.required "paths" (Reader.map PathItem.read)
    components := ← fields.withDefault "components" {} Components.read
    rest := fields.rest }

/-- An OpenAPI document as a JSON object. -/
def toJson (spec : Spec) : Json :=
  .object
    ([("openapi", .string spec.version)] ++
      (if spec.info.isNull then [] else [("info", spec.info)]) ++
      [("paths", .object (Writer.map PathItem.toJson spec.paths))] ++
      (if spec.components.isEmpty then [] else [("components", spec.components.toJson)]) ++
      spec.rest)

end Spec

end ServiceForge.OpenApi
