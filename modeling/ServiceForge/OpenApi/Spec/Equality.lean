/-
This file compares schemas and OpenAPI documents. The order of properties, of the
members of free values and of the entries of a map does not matter; the order of
branches, required names and choices does.
-/

import ServiceForge.OpenApi.Schema.Basic
import ServiceForge.OpenApi.Spec.Basic

namespace ServiceForge.OpenApi.Schema

/-- Whether two default values are equal, or both are absent. -/
def equalDefaults : Option Json → Option Json → Bool
  | none, none => true
  | some left, some right => left.equal right
  | _, _ => false

/-- Whether two schemas agree in the keywords that hold no schema. -/
def equalKeywords (left right : Schema) : Bool :=
  left.reference == right.reference && left.type == right.type && left.format == right.format &&
    left.title == right.title && left.description == right.description &&
    equalDefaults left.default right.default && left.required == right.required &&
    left.nullable == right.nullable && Json.equalItems left.choices right.choices &&
    left.pattern == right.pattern && left.maxLength == right.maxLength &&
    left.minLength == right.minLength && left.readOnly == right.readOnly &&
    Json.equal (.object left.rest) (.object right.rest)

mutual

/-- Whether two schemas are equal, with the order of their properties left aside. -/
def equal (left right : Schema) : Bool :=
  match left with
  | { items, properties, additional, oneOf, anyOf, allOf, .. } =>
    equalKeywords left right && equalItems items right.items &&
      properties.length == right.properties.length &&
      equalProperties properties right.properties &&
      equalAdditional additional right.additional && equalBranches oneOf right.oneOf &&
      equalBranches anyOf right.anyOf && equalBranches allOf right.allOf
termination_by structural left

/-- Whether the schemas of items are equal, or both are absent. -/
def equalItems (left right : Option Schema) : Bool :=
  match left, right with
  | none, none => true
  | some left, some right => equal left right
  | _, _ => false
termination_by structural left

/-- Whether the same is said about what is allowed beside the properties. -/
def equalAdditional (left right : Option (Additional Schema)) : Bool :=
  match left, right with
  | none, none => true
  | some left, some right => equalExtra left right
  | _, _ => false
termination_by structural left

/-- Whether the same is allowed beside the properties. -/
def equalExtra (left right : Additional Schema) : Bool :=
  match left, right with
  | .allowed left, .allowed right => left == right
  | .each left, .each right => equal left right
  | _, _ => false
termination_by structural left

/-- Whether two unions have equal branches, in the same order. -/
def equalBranches (left right : List Schema) : Bool :=
  match left, right with
  | [], [] => true
  | left :: lefts, right :: rights => equal left right && equalBranches lefts rights
  | _, _ => false
termination_by structural left

/-- Whether each of the properties has an equal one in `right`. -/
def equalProperties (left right : List (String × Schema)) : Bool :=
  match left with
  | [] => true
  | property :: rest => equalProperty property right && equalProperties rest right
termination_by structural left

/-- Whether a property is among others with an equal schema. -/
def equalProperty (left : String × Schema) (right : List (String × Schema)) : Bool :=
  match left with
  | (name, schema) =>
    match List.lookup name right with
    | some other => equal schema other
    | none => false
termination_by structural left

end

end ServiceForge.OpenApi.Schema

namespace ServiceForge.OpenApi

variable {α : Type}

/-- Whether two values are equal, or both are absent. -/
def equalOptions (equal : α → α → Bool) : Option α → Option α → Bool
  | none, none => true
  | some left, some right => equal left right
  | _, _ => false

/-- Whether two lists have equal items, in the same order. -/
def equalLists (equal : α → α → Bool) : List α → List α → Bool
  | [], [] => true
  | left :: lefts, right :: rights => equal left right && equalLists equal lefts rights
  | _, _ => false

/-- Whether two maps have equal entries, in any order. -/
def equalMaps (equal : α → α → Bool) (left right : OrderedMap α) : Bool :=
  left.length == right.length &&
    left.all fun (key, value) => (right.get? key).any fun other => equal value other

/-- Whether two records have equal members beside their fields. -/
def equalRest (left right : OrderedMap Json) : Bool := Json.equal (.object left) (.object right)

/-! ### Parts of a document -/

/-- Whether content of one media type is equal. -/
def Media.equal (left right : Media) : Bool :=
  equalOptions Schema.equal left.schema right.schema && equalRest left.rest right.rest

/-- Whether two parameters are equal. -/
def Parameter.equal (left right : Parameter) : Bool :=
  left.name == right.name && left.location = right.location &&
    left.description == right.description && left.required == right.required &&
    left.style == right.style && left.explode == right.explode &&
    equalOptions Schema.equal left.schema right.schema && equalRest left.rest right.rest

/-- Whether two headers are equal. -/
def Header.equal (left right : Header) : Bool :=
  left.description == right.description && equalOptions Schema.equal left.schema right.schema &&
    equalRest left.rest right.rest

/-- Whether two responses are equal. -/
def Response.equal (left right : Response) : Bool :=
  left.description == right.description && equalMaps Header.equal left.headers right.headers &&
    equalMaps Media.equal left.content right.content && equalRest left.rest right.rest

/-- Whether the bodies of two requests are equal. -/
def RequestBody.equal (left right : RequestBody) : Bool :=
  left.description == right.description && equalMaps Media.equal left.content right.content &&
    left.required == right.required && equalRest left.rest right.rest

/-- Whether two operations are equal. -/
def Operation.equal (left right : Operation) : Bool :=
  left.id == right.id && left.summary == right.summary &&
    left.description == right.description && left.tags == right.tags &&
    equalLists Parameter.equal left.parameters right.parameters &&
    equalOptions RequestBody.equal left.requestBody right.requestBody &&
    equalMaps Response.equal left.responses right.responses && equalRest left.rest right.rest

/-- Whether two paths have equal operations for every method. -/
def PathItem.equal (left right : PathItem) : Bool :=
  equalLists Parameter.equal left.parameters right.parameters &&
    (Method.all.all fun method =>
      equalOptions Operation.equal (left.operation method) (right.operation method)) &&
    equalRest left.rest right.rest

/-- Whether two documents define the same for use by name. -/
def Components.equal (left right : Components) : Bool :=
  equalMaps Schema.equal left.schemas right.schemas &&
    equalMaps Parameter.equal left.parameters right.parameters &&
    equalMaps Header.equal left.headers right.headers && equalRest left.rest right.rest

/-- Whether two documents are equal. -/
def Spec.equal (left right : Spec) : Bool :=
  left.version == right.version && left.info.equal right.info &&
    equalMaps PathItem.equal left.paths right.paths &&
    Components.equal left.components right.components && equalRest left.rest right.rest

end ServiceForge.OpenApi
