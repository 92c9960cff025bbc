/-
This file makes the OpenAPI document of a route map. Routes with one path and
method become one operation: routes of actions a union of their bodies, routes of
several versions a union of the schemas that differ.
-/

import ServiceForge.Generation.File
import ServiceForge.Naming
import ServiceForge.OpenApi.Spec.Document
import ServiceForge.OpenApi.Spec.Equality
import ServiceForge.Route.Basic
import ServiceForge.Yaml.Printer

namespace ServiceForge.Route

open ServiceForge.OpenApi (Content Method Operation Parameter PathItem RequestBody
  Response Schema Spec annotationKey)
open ServiceForge.Text

/-! ### Annotations -/

/-- Sets an annotation. Annotations that are not an object stay as they are. -/
def annotate (rest : OrderedMap Json) (key value : String) : OrderedMap Json :=
  match rest.get? annotationKey with
  | none => rest.insert annotationKey (.object [(key, .string value)])
  | some (.object annotations) =>
    rest.insert annotationKey (.object (OrderedMap.insert annotations key (.string value)))
  | some _ => rest

/-- Adds an annotation if there is a value for it. -/
def annotateSome (key : String) (value : Option String) (rest : OrderedMap Json) :
    OrderedMap Json :=
  match value with
  | some value => annotate rest key value
  | none => rest

/-- Sets the versions from which and up to which a route is served. -/
def annotateVersions (route : Route) (rest : OrderedMap Json) : OrderedMap Json :=
  annotateSome "max-ver" route.maxVersion (annotateSome "min-ver" route.minVersion rest)

/-! ### Schemas of several routes -/

/-- A schema as one branch of a union of versions. -/
def versionBranch (route : Route) (schema : Schema) : Schema :=
  { schema with rest := annotateVersions route schema.rest }

/-- A schema as one branch of a union of actions. -/
def actionBranch (route : Route) (schema : Schema) : Schema :=
  { schema with
    rest := annotateSome "action-name" route.action (annotateVersions route schema.rest) }

/-- A union whose branches are told apart by the given property of requests. -/
def union (branches : List Schema) (discriminator : String) : Schema :=
  { type := if branches.all Schema.isObject then some (.single "object") else none
    oneOf := branches
    rest := annotate [] "discriminator" discriminator }

/-- The entries whose schemas no entry before them has. -/
def distinctSchemas (seen : List Schema) : List (Route × Schema) → List (Route × Schema)
  | [] => []
  | (route, schema) :: rest =>
    if seen.any fun other => other.equal schema then distinctSchemas seen rest
    else (route, schema) :: distinctSchemas (seen ++ [schema]) rest

/-- One schema as it is, several ones as a union of versions. -/
def combine (entries : List (Route × Schema)) : Option Schema :=
  match distinctSchemas [] entries with
  | [] => none
  | [(_, schema)] => some schema
  | distinct =>
    some (union (distinct.map fun (route, schema) => versionBranch route schema) "microversion")

/-- The routes that have a schema of the given kind, with it. -/
def withSchema (schema : Route → Option Schema) (routes : List Route) : List (Route × Schema) :=
  routes.filterMap fun route => (schema route).map fun schema => (route, schema)

/-- The schema of the requests of some routes, told apart by action or by version. -/
def combinedRequest (routes : List Route) : Option Schema :=
  let entries := withSchema Route.requestSchema routes
  if entries.any fun entry => entry.1.action.isSome then
    some (union (entries.map fun (route, schema) => actionBranch route schema) "action")
  else combine entries

/-- The schema of the responses of some routes, told apart by version. -/
def combinedResponse (routes : List Route) : Option Schema :=
  combine (withSchema Route.responseSchema routes)

/-! ### Operations -/

/-- The parameters of a path, described by the prose. -/
def pathParameters (path : String) (prose : Option OperationProse) : List Parameter :=
  let names := (split '/' path).filterMap fun segment =>
    (afterStart? "\x7b" segment).bind (beforeEnd? "\x7d")
  names.map fun name => {
    name
    location := .path
    description := prose.bind fun prose => prose.parameters.get? name
    required := true
    schema := some (.ofType "string") }

/-- The description of a status. -/
def statusDescription (status : Nat) : String :=
  if status = 200 then "OK"
  else if status = 201 then "Created"
  else if status = 202 then "Accepted"
  else if status = 204 then "No Content"
  else "Success"

/-- Content that is JSON of a schema. -/
def jsonContent (schema : Schema) : Content := [(OpenApi.MediaType.json, { schema := some schema })]

/-- The status of the first route that has one. -/
def commonStatus (routes : List Route) : Nat :=
  (routes.findSome? Route.status).getD (if (combinedResponse routes).isSome then 200 else 204)

/-- The annotations of an operation: the versions of a route that is alone, and the controller if
there is only one. -/
def operationAnnotations (routes : List Route) : OrderedMap Json :=
  let versions :=
    match routes with
    | [route] => if route.action.isNone then annotateVersions route [] else []
    | _ => []
  match routes.filterMap Route.controller with
  | [controller] => annotate versions "controller" controller
  | _ => versions

/-- The operation that routes with one path and method stand for. -/
def operation (path id : String) (prose : Option OperationProse) (routes : List Route) :
    Operation :=
  let status := commonStatus routes
  { id := some id
    summary := prose.bind OperationProse.summary
    description := prose.bind OperationProse.description
    parameters := pathParameters path prose
    requestBody := (combinedRequest routes).map fun schema =>
      { content := jsonContent schema, required := true }
    responses := [(toString status, {
      description := some (statusDescription status)
      content := ((combinedResponse routes).map jsonContent).getD [] })]
    rest := operationAnnotations routes }

end ServiceForge.Route

namespace ServiceForge.RouteMap

open ServiceForge.OpenApi (Method Operation PathItem Spec)

/-- The routes with the given path and method. -/
def group (routeMap : RouteMap) (path : String) (method : Method) : List Route :=
  routeMap.routes.filter fun route =>
    Route.normalPath route.path = path && route.method = method

/-- The operation that the routes of a path and method are combined to, if there are any. -/
def operation? (routeMap : RouteMap) (prose : Option Prose) (path : String) (method : Method) :
    Option Operation :=
  let routes := routeMap.group path method
  if routes.isEmpty then none
  else
    let id := Route.operationId path method
    some (Route.operation path id (prose.bind fun prose => prose.operations.get? id) routes)

/-- The document of a route map, with the paths in the order of the routes. -/
def extract (routeMap : RouteMap) (prose : Option Prose) : Spec :=
  let paths := (routeMap.routes.map fun route => Route.normalPath route.path).eraseDups
  { version := "3.1.0"
    info := .object [("title", .string routeMap.service), ("version", .string routeMap.version)]
    paths := paths.map fun path =>
      (path, { operation := fun method => routeMap.operation? prose path method }) }

/-- The file with the document of a route map. -/
def file (routeMap : RouteMap) (prose : Option Prose) : Generation.File :=
  { path := Naming.moduleName routeMap.service ++ "/v" ++ routeMap.majorVersion ++ ".yaml"
    language := .yaml
    contents := Yaml.render (routeMap.extract prose).toJson }

end ServiceForge.RouteMap
