/-
This file proves that the models of documents lose nothing when they are written and read
again: a model is read from what was written of it as the same model, and the members of
objects that no model declares stand in the written document where they stood, with the same
values and in the same order. Descriptors and route maps are read again here, the other
models in files of their own.
-/

import ServiceForge.Proofs.Document.RoundTrip
import ServiceForge.Proofs.Metadata.RoundTrip
import ServiceForge.Proofs.Schema.RoundTrip
import ServiceForge.Proofs.Spec.RoundTrip

namespace ServiceForge.Descriptor

open ServiceForge.Document

namespace Attribute

/-- The members that an attribute may be written with. -/
def slots (described : Attribute) : Slots :=
  [("type", some described.type.toJson), ("format", described.format.map .string),
    ("doc", described.doc.map .string), ("required", Slots.whenSet described.required)]

theorem toJson_eq (described : Attribute) :
    described.toJson = .object described.slots.members := by
  simp only [toJson, Writer.text, Slots.present_eq, Slots.whenSet_eq, Slots.written_eq,
    ← Slots.members_append, List.cons_append, List.nil_append, slots]

theorem faithful_read : Faithful read read toJson (.record .describedAttribute) := by
  refine .of_closed .describedAttribute slots rfl (fun _ => rfl) fun isRead => ?_
  simp only [bind_eq_ok] at isRead
  obtain ⟨type, isType, format, isFormat, doc, isDoc, required, isRequired, returned⟩ := isRead
  cases returned
  refine ⟨toJson_eq _, fun rereads _ => ?_⟩
  have type := rereads.required (faithful_choice AttributeType.all AttributeType.name) isType rfl
  have format := rereads.text isFormat rfl
  have doc := rereads.text isDoc rfl
  have required := rereads.flag isRequired rfl
  constructor
  · simp only [bind_eq_ok]
    exact ⟨_, type.1, _, format.1, _, doc.1, _, required.1, rfl⟩
  · simp only [Model.fields, List.forall_mem_cons]
    exact ⟨type.2, format.2, doc.2, required.2, List.forall_mem_nil _⟩

end Attribute

/-- The members that a descriptor may be written with. -/
def slots (descriptor : Descriptor) : Slots :=
  [("name", some (.string descriptor.name)), ("doc", descriptor.doc.map .string),
    ("resource_key", descriptor.resourceKey.map .string),
    ("resources_key", descriptor.resourcesKey.map .string),
    ("attributes", some (.object (Writer.map Attribute.toJson descriptor.attributes))),
    ("allow_list", some (.bool descriptor.capabilities.list)),
    ("allow_fetch", some (.bool descriptor.capabilities.fetch)),
    ("allow_create", some (.bool descriptor.capabilities.create)),
    ("allow_delete", some (.bool descriptor.capabilities.delete)),
    ("allow_commit", some (.bool descriptor.capabilities.commit))]

theorem toJson_eq (descriptor : Descriptor) :
    descriptor.toJson = .object descriptor.slots.members := by
  simp only [toJson, Writer.text, Slots.present_eq, Slots.written_eq, Slots.cons_members_eq,
    ← Slots.members_append, List.cons_append, List.nil_append, slots]

theorem faithful_read : Faithful read read toJson (.record .descriptor) := by
  refine .of_closed .descriptor slots rfl (fun _ => rfl) fun isRead => ?_
  simp only [bind_eq_ok] at isRead
  obtain ⟨name, isName, doc, isDoc, resourceKey, isResourceKey, resourcesKey, isResourcesKey,
    attributes, areAttributes, list, isList, fetch, isFetch, create, isCreate, delete, isDelete,
    commit, isCommit, returned⟩ := isRead
  cases returned
  refine ⟨toJson_eq _, fun rereads _ => ?_⟩
  have name := rereads.required verbatim_text.faithful isName rfl
  have doc := rereads.text isDoc rfl
  have resourceKey := rereads.text isResourceKey rfl
  have resourcesKey := rereads.text isResourcesKey rfl
  have attributes := rereads.wholeMap Attribute.faithful_read areAttributes rfl
  have list := rereads.wholeFlag isList rfl
  have fetch := rereads.wholeFlag isFetch rfl
  have create := rereads.wholeFlag isCreate rfl
  have delete := rereads.wholeFlag isDelete rfl
  have commit := rereads.wholeFlag isCommit rfl
  constructor
  · simp only [bind_eq_ok]
    exact ⟨_, name.1, _, doc.1, _, resourceKey.1, _, resourcesKey.1, _, attributes.1, _, list.1, _,
      fetch.1, _, create.1, _, delete.1, _, commit.1, rfl⟩
  · simp only [Model.fields, List.forall_mem_cons]
    exact ⟨name.2, doc.2, resourceKey.2, resourcesKey.2, attributes.2, list.2, fetch.2, create.2,
      delete.2, commit.2, List.forall_mem_nil _⟩

end ServiceForge.Descriptor

namespace ServiceForge

open ServiceForge.Document
open ServiceForge.OpenApi (Method Schema)

namespace Route

theorem verbatim_status : Verbatim readStatus Writer.natural := by
  intro json status ok
  obtain ⟨number, isNumber, ok⟩ := bind_eq_ok.mp ok
  split at ok
  · cases ok
    exact verbatim_natural isNumber
  · cases ok

/-- The members that a route may be written with. -/
def slots (route : Route) : Slots :=
  [("path", some (.string route.path)), ("method", some (.string route.method.name)),
    ("action", route.controller.map .string), ("action_name", route.action.map .string),
    ("request_schema", route.requestSchema.map Schema.toJson),
    ("response_schema", route.responseSchema.map Schema.toJson),
    ("min_version", route.minVersion.map .string), ("max_version", route.maxVersion.map .string),
    ("status", route.status.map Writer.natural)]

theorem toJson_eq (route : Route) : route.toJson = .object route.slots.members := by
  simp only [toJson, Writer.text, Slots.present_eq, Slots.written_eq, Slots.cons_members_eq,
    ← Slots.members_append, List.cons_append, List.nil_append, slots]

theorem faithful_read : Faithful read read toJson (.record .route) := by
  refine .of_closed .route slots rfl (fun _ => rfl) fun isRead => ?_
  simp only [bind_eq_ok] at isRead
  obtain ⟨path, isPath, method, isMethod, controller, isController, action, isAction,
    requestSchema, isRequestSchema, responseSchema, isResponseSchema, minVersion, isMinVersion,
    maxVersion, isMaxVersion, status, isStatus, returned⟩ := isRead
  cases returned
  refine ⟨toJson_eq _, fun rereads _ => ?_⟩
  have path := rereads.required verbatim_text.faithful isPath rfl
  have method := rereads.required (faithful_choice Method.all Method.name) isMethod rfl
  have controller := rereads.text isController rfl
  have action := rereads.text isAction rfl
  have requestSchema :=
    rereads.optional Schema.faithful_read Schema.solid_toJson isRequestSchema rfl
  have responseSchema :=
    rereads.optional Schema.faithful_read Schema.solid_toJson isResponseSchema rfl
  have minVersion := rereads.text isMinVersion rfl
  have maxVersion := rereads.text isMaxVersion rfl
  have status := rereads.optional verbatim_status.faithful (fun _ _ => rfl) isStatus rfl
  constructor
  · simp only [bind_eq_ok]
    exact ⟨_, path.1, _, method.1, _, controller.1, _, action.1, _, requestSchema.1, _,
      responseSchema.1, _, minVersion.1, _, maxVersion.1, _, status.1, rfl⟩
  · simp only [Model.fields, List.forall_mem_cons]
    exact ⟨path.2, method.2, controller.2, action.2, requestSchema.2, responseSchema.2,
      minVersion.2, maxVersion.2, status.2, List.forall_mem_nil _⟩

end Route

namespace RouteMap

/-- The members that a map of routes may be written with. -/
def slots (routeMap : RouteMap) : Slots :=
  [("service_type", some (.string routeMap.service)), ("version", some (.string routeMap.version)),
    ("routes", some (.array (routeMap.routes.map Route.toJson)))]

theorem faithful_read : Faithful read read toJson (.record .routeMap) := by
  refine .of_closed .routeMap slots rfl (fun _ => rfl) fun isRead => ?_
  simp only [bind_eq_ok] at isRead
  obtain ⟨service, isService, version, isVersion, routes, areRoutes, returned⟩ := isRead
  cases returned
  refine ⟨rfl, fun rereads _ => ?_⟩
  have service := rereads.required verbatim_text.faithful isService rfl
  have version := rereads.required verbatim_text.faithful isVersion rfl
  have routes := rereads.withDefault Route.faithful_read.list areRoutes rfl
    (.written fun same => by rw [same]; rfl)
  constructor
  · simp only [bind_eq_ok]
    exact ⟨_, service.1, _, version.1, _, routes.1, rfl⟩
  · simp only [Model.fields, List.forall_mem_cons]
    exact ⟨service.2, version.2, routes.2, List.forall_mem_nil _⟩

end RouteMap

end ServiceForge

namespace ServiceForge.Document

open ServiceForge.OpenApi (Operation Parameter PathItem Schema Spec)

/-- Whether a model that is read from a JSON document and written is read again as the same model,
and what is written keeps of each object what the model keeps. -/
structure Lossless {α : Type} (read : Reader α) (write : α → Json) (model : Model) : Prop where
  again : ∀ document value, ofJson read document = .ok value → ofJson read (write value) = .ok value
  kept : ∀ document value, document.isKeyed → ofJson read document = .ok value →
    Retains (.record model) document (some (write value))

theorem Lossless.of_faithful {α : Type} {read : Reader α} {write : α → Json} {model : Model}
    (faithful : Faithful read read write (.record model)) : Lossless read write model :=
  ⟨fun _ _ => faithful.again, fun _ _ => faithful.kept⟩

/-- The models of schemas, OpenAPI documents and their parts, metadata, descriptors and route maps
lose nothing. -/
theorem models_lossless :
    Lossless Schema.read Schema.toJson .schema ∧
    Lossless Parameter.read Parameter.toJson .parameter ∧
    Lossless Operation.read Operation.toJson .operation ∧
    Lossless PathItem.read PathItem.toJson .pathItem ∧
    Lossless Spec.read Spec.toJson .spec ∧
    Lossless TargetParameters.read TargetParameters.toJson .targetParameters ∧
    Lossless Metadata.read Metadata.toJson .metadata ∧
    Lossless Descriptor.read Descriptor.toJson .descriptor ∧
    Lossless RouteMap.read RouteMap.toJson .routeMap :=
  ⟨.of_faithful Schema.faithful_read, .of_faithful Parameter.faithful_read,
    .of_faithful Operation.faithful_read, .of_faithful PathItem.faithful_read,
    .of_faithful Spec.faithful_read, .of_faithful TargetParameters.faithful_read,
    .of_faithful Metadata.faithful_read, .of_faithful Descriptor.faithful_read,
    .of_faithful RouteMap.faithful_read⟩

/-- A schema with annotations around declared keywords, one of which is null, and in a property. -/
def annotatedSchema : Json :=
  .object [("x-first", .bool true), ("title", .null),
    ("properties", .object [("name", .object
      [("x-inner", .object [("type", .null)]), ("type", .string "string"),
        ("x-order", .number (.integer 2))])]),
    ("x-last", .string "end")]

/-- The annotations of a schema and of its property stand where they stood, in order. -/
theorem models_lossless_annotatedSchema :
    ∃ schema, ofJson Schema.read annotatedSchema = .ok schema ∧
      ofJson Schema.read schema.toJson = .ok schema ∧
      (∃ others, place? schema.toJson [] = some (.object others) ∧
        Form.retained (.record .schema) others =
          [("x-first", some (.bool true)), ("x-last", some (.string "end"))]) ∧
      ∃ others, place? schema.toJson [.key "properties", .key "name"] = some (.object others) ∧
        Form.retained (.record .schema) others =
          [("x-inner", some (.object [("type", .null)])), ("x-order", some (.number (.integer 2)))] := by
  cases isRead : ofJson Schema.read annotatedSchema with
  | error problem =>
    have ok : (ofJson Schema.read annotatedSchema).toOption.isSome = true := by decide +kernel
    rw [isRead] at ok
    cases ok
  | ok schema =>
    have lossless := models_lossless.1
    have kept := lossless.kept annotatedSchema schema (by decide +kernel) isRead
    refine ⟨schema, rfl, lossless.again annotatedSchema schema isRead, ?_, ?_⟩
    · exact kept [] _ rfl (List.cons_ne_nil _ _)
    · exact kept [.key "properties", .key "name"] _ rfl (List.cons_ne_nil _ _)

end ServiceForge.Document
