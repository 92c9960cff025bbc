/-
This file reads route maps and prose from documents and writes them.
-/

import ServiceForge.Document.Reader
import ServiceForge.Document.Writer
import ServiceForge.Number.Binary64
import ServiceForge.OpenApi.Schema.Document
import ServiceForge.Route.Basic

namespace ServiceForge

open ServiceForge.Document
open ServiceForge.OpenApi (Method Schema)

namespace Route

/-- Reads a method by its name. -/
def readMethod : Reader Method :=
  Reader.choice (Method.all.map fun method => (method.name, method))

/-- A status code has 16 bits. -/
def readStatus : Reader Nat := fun mode value => do
  let status ← Reader.natural mode value
  if status < powerOfTwo 16 then return status else mismatch "expected a status code"

/-- Reads a route, which has no other fields. -/
def read : Reader Route := fun mode value => do
  let fields ← Fields.ofClosed
    ["path", "method", "action", "action_name", "request_schema", "response_schema",
      "min_version", "max_version", "status"]
    mode value
  return {
    path := ← fields.required "path" Reader.text
    method := ← fields.required "method" readMethod
    controller := ← fields.optional "action" Reader.text
    action := ← fields.optional "action_name" Reader.text
    requestSchema := ← fields.optional "request_schema" Schema.read
    responseSchema := ← fields.optional "response_schema" Schema.read
    minVersion := ← fields.optional "min_version" Reader.text
    maxVersion := ← fields.optional "max_version" Reader.text
    status := ← fields.optional "status" readStatus }

/-- A route as a JSON object. -/
def toJson (route : Route) : Json :=
  .object
    ([("path", .string route.path), ("method", .string route.method.name)] ++
      Writer.text "action" route.controller ++
      Writer.text "action_name" route.action ++
      Writer.present "request_schema" Schema.toJson route.requestSchema ++
      Writer.present "response_schema" Schema.toJson route.responseSchema ++
      Writer.text "min_version" route.minVersion ++
      Writer.text "max_version" route.maxVersion ++
      Writer.present "status" Writer.natural route.status)

end Route

namespace RouteMap

/-- Reads a map of routes, which has no other fields. -/
def read : Reader RouteMap := fun mode value => do
  let fields ← Fields.ofClosed ["service_type", "version", "routes"] mode value
  return {
    service := ← fields.required "service_type" Reader.text
    version := ← fields.required "version" Reader.text
    routes := ← fields.list "routes" Route.read }

/-- A map of routes as a JSON object. -/
def toJson (routeMap : RouteMap) : Json :=
  .object [
    ("service_type", .string routeMap.service),
    ("version", .string routeMap.version),
    ("routes", .array (routeMap.routes.map Route.toJson))]

end RouteMap

namespace OperationProse

/-- Reads the prose about an operation, which has no other fields. -/
def read : Reader OperationProse := fun mode value => do
  let fields ← Fields.ofClosed ["summary", "description", "parameters"] mode value
  return {
    summary := ← fields.optional "summary" Reader.text
    description := ← fields.optional "description" Reader.text
    parameters := ← fields.map "parameters" Reader.text }

/-- A missing text is written as null. -/
def optionalText (text : Option String) : Json := (text.map Json.string).getD .null

/-- The prose about an operation as a JSON object. -/
def toJson (prose : OperationProse) : Json :=
  .object [
    ("summary", optionalText prose.summary),
    ("description", optionalText prose.description),
    ("parameters", .object (Writer.map Json.string prose.parameters))]

end OperationProse

namespace Prose

/-- Reads prose, which has no other fields. -/
def read : Reader Prose := fun mode value => do
  let fields ← Fields.ofClosed ["operations"] mode value
  return { operations := ← fields.map "operations" OperationProse.read }

/-- Prose as a JSON object. -/
def toJson (prose : Prose) : Json :=
  .object [("operations", .object (Writer.map OperationProse.toJson prose.operations))]

end Prose

end ServiceForge
