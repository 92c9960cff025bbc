/-
This file proves that what is written of an OpenAPI document or one of its parts is read as
the same again and keeps the members that are not declared, from the payloads of operations
up to whole documents.
-/

import ServiceForge.Proofs.Schema.RoundTrip

namespace ServiceForge.OpenApi

open ServiceForge.Document

/-! ### Payloads -/

namespace Media

/-- The members that content of one media type may be written with. -/
def slots (media : Media) : Slots := [("schema", media.schema.map Schema.toJson)]

/-- Content is written with its fields and its other members. -/
theorem toJson_eq (media : Media) : media.toJson = .object (media.slots.members ++ media.rest) := by
  rw [toJson, Slots.present_eq, slots]

/-- Content is read faithfully. -/
theorem faithful_read : Faithful read read toJson (.record .media) := by
  refine .of_open .media slots (fun _ => rfl) fun isRead => ?_
  simp only [bind_eq_ok] at isRead
  obtain ⟨schema, isSchema, returned⟩ := isRead
  cases returned
  refine ⟨toJson_eq _, fun rereads rest => ?_⟩
  have schema := rereads.optional Schema.faithful_read Schema.solid_toJson isSchema rfl
  constructor
  · simp only [bind_eq_ok]
    exact ⟨_, schema.1, by rw [rest]; rfl⟩
  · simp only [Model.fields, List.forall_mem_cons]
    exact ⟨schema.2, List.forall_mem_nil _⟩

end Media

namespace Parameter

/-- The members that a parameter may be written with. -/
def slots (parameter : Parameter) : Slots :=
  [("name", some (.string parameter.name)), ("in", some parameter.location.toJson),
    ("description", parameter.description.map .string),
    ("required", Slots.whenSet parameter.required), ("style", parameter.style.map .string),
    ("explode", parameter.explode.map .bool), ("schema", parameter.schema.map Schema.toJson)]

theorem toJson_eq (parameter : Parameter) :
    parameter.toJson = .object (parameter.slots.members ++ parameter.rest) := by
  simp only [toJson, Writer.text, Slots.present_eq, Slots.whenSet_eq, Slots.written_eq,
    Slots.cons_members_eq, ← Slots.members_append, List.cons_append, List.nil_append, slots]

/-- Parameters are read faithfully. -/
theorem faithful_read : Faithful read read toJson (.record .parameter) := by
  refine .of_open .parameter slots (fun _ => rfl) fun isRead => ?_
  simp only [bind_eq_ok] at isRead
  obtain ⟨name, isName, location, isLocation, description, isDescription, required, isRequired,
    style, isStyle, explode, isExplode, schema, isSchema, returned⟩ := isRead
  cases returned
  refine ⟨toJson_eq _, fun rereads rest => ?_⟩
  have name := rereads.required verbatim_text.faithful isName rfl
  have location := rereads.required (faithful_choice Location.all Location.name) isLocation rfl
  have description := rereads.text isDescription rfl
  have required := rereads.flag isRequired rfl
  have style := rereads.text isStyle rfl
  have explode := rereads.optional verbatim_flag.faithful (fun _ _ => rfl) isExplode rfl
  have schema := rereads.optional Schema.faithful_read Schema.solid_toJson isSchema rfl
  constructor
  · simp only [bind_eq_ok]
    exact ⟨_, name.1, _, location.1, _, description.1, _, required.1, _, style.1, _, explode.1, _,
      schema.1, by rw [rest]; rfl⟩
  · simp only [Model.fields, List.forall_mem_cons]
    exact ⟨name.2, location.2, description.2, required.2, style.2, explode.2, schema.2,
      List.forall_mem_nil _⟩

end Parameter

namespace Header

/-- The members that a header may be written with. -/
def slots (header : Header) : Slots :=
  [("description", header.description.map .string), ("schema", header.schema.map Schema.toJson)]

theorem toJson_eq (header : Header) :
    header.toJson = .object (header.slots.members ++ header.rest) := by
  simp only [toJson, Writer.text, Slots.present_eq, ← Slots.members_append, List.cons_append,
    List.nil_append, slots]

/-- Headers are read faithfully. -/
theorem faithful_read : Faithful read read toJson (.record .header) := by
  refine .of_open .header slots (fun _ => rfl) fun isRead => ?_
  simp only [bind_eq_ok] at isRead
  obtain ⟨description, isDescription, schema, isSchema, returned⟩ := isRead
  cases returned
  refine ⟨toJson_eq _, fun rereads rest => ?_⟩
  have description := rereads.text isDescription rfl
  have schema := rereads.optional Schema.faithful_read Schema.solid_toJson isSchema rfl
  constructor
  · simp only [bind_eq_ok]
    exact ⟨_, description.1, _, schema.1, by rw [rest]; rfl⟩
  · simp only [Model.fields, List.forall_mem_cons]
    exact ⟨description.2, schema.2, List.forall_mem_nil _⟩

end Header

namespace Response

/-- The members that a response may be written with. -/
def slots (response : Response) : Slots :=
  [("description", response.description.map .string),
    ("headers", Slots.filledMap (Writer.map Header.toJson response.headers)),
    ("content", Slots.filledMap (Writer.map Media.toJson response.content))]

theorem toJson_eq (response : Response) :
    response.toJson = .object (response.slots.members ++ response.rest) := by
  simp only [toJson, Writer.text, Slots.present_eq, Slots.filledMap_eq, ← Slots.members_append,
    List.cons_append, List.nil_append, slots]

/-- Responses are read faithfully. -/
theorem faithful_read : Faithful read read toJson (.record .response) := by
  refine .of_open .response slots (fun _ => rfl) fun isRead => ?_
  simp only [bind_eq_ok] at isRead
  obtain ⟨description, isDescription, headers, areHeaders, content, isContent, returned⟩ := isRead
  cases returned
  refine ⟨toJson_eq _, fun rereads rest => ?_⟩
  have description := rereads.text isDescription rfl
  have headers := rereads.map Header.faithful_read areHeaders rfl
  have content := rereads.map Media.faithful_read isContent rfl
  constructor
  · simp only [bind_eq_ok]
    exact ⟨_, description.1, _, headers.1, _, content.1, by rw [rest]; rfl⟩
  · simp only [Model.fields, List.forall_mem_cons]
    exact ⟨description.2, headers.2, content.2, List.forall_mem_nil _⟩

end Response

namespace RequestBody

/-- The members that the body of a request may be written with. -/
def slots (body : RequestBody) : Slots :=
  [("description", body.description.map .string),
    ("content", some (.object (Writer.map Media.toJson body.content))),
    ("required", Slots.whenSet body.required)]

theorem toJson_eq (body : RequestBody) :
    body.toJson = .object (body.slots.members ++ body.rest) := by
  simp only [toJson, Writer.text, Slots.present_eq, Slots.whenSet_eq, Slots.written_eq,
    ← Slots.members_append, List.cons_append, List.nil_append, slots]

/-- Bodies of requests are read faithfully. -/
theorem faithful_read : Faithful read read toJson (.record .requestBody) := by
  refine .of_open .requestBody slots (fun _ => rfl) fun isRead => ?_
  simp only [bind_eq_ok] at isRead
  obtain ⟨description, isDescription, content, isContent, required, isRequired, returned⟩ := isRead
  cases returned
  refine ⟨toJson_eq _, fun rereads rest => ?_⟩
  have description := rereads.text isDescription rfl
  have content := rereads.wholeMap Media.faithful_read isContent rfl
  have required := rereads.flag isRequired rfl
  constructor
  · simp only [bind_eq_ok]
    exact ⟨_, description.1, _, content.1, _, required.1, by rw [rest]; rfl⟩
  · simp only [Model.fields, List.forall_mem_cons]
    exact ⟨description.2, content.2, required.2, List.forall_mem_nil _⟩

end RequestBody

/-! ### Operations and documents -/

namespace Operation

/-- The members that an operation may be written with. -/
def slots (operation : Operation) : Slots :=
  [("operationId", operation.id.map .string), ("summary", operation.summary.map .string),
    ("description", operation.description.map .string),
    ("tags", Slots.filled (operation.tags.map .string)),
    ("parameters", Slots.filled (operation.parameters.map Parameter.toJson)),
    ("requestBody", operation.requestBody.map RequestBody.toJson),
    ("responses", some (.object (Writer.map Response.toJson operation.responses)))]

theorem toJson_eq (operation : Operation) :
    operation.toJson = .object (operation.slots.members ++ operation.rest) := by
  simp only [toJson, Writer.text, Slots.present_eq, Slots.filled_eq, Slots.written_eq,
    ← Slots.members_append, List.cons_append, List.nil_append, slots]

/-- Operations are read faithfully. -/
theorem faithful_read : Faithful read read toJson (.record .operation) := by
  refine .of_open .operation slots (fun _ => rfl) fun isRead => ?_
  simp only [bind_eq_ok] at isRead
  obtain ⟨id, isId, summary, isSummary, description, isDescription, tags, areTags, parameters,
    areParameters, body, isBody, responses, areResponses, returned⟩ := isRead
  cases returned
  refine ⟨toJson_eq _, fun rereads rest => ?_⟩
  have id := rereads.text isId rfl
  have summary := rereads.text isSummary rfl
  have description := rereads.text isDescription rfl
  have tags := rereads.list verbatim_text.faithful areTags rfl
  have parameters := rereads.list Parameter.faithful_read areParameters rfl
  have body := rereads.optional RequestBody.faithful_read (fun _ _ => rfl) isBody rfl
  have responses := rereads.wholeMap Response.faithful_read areResponses rfl
  constructor
  · simp only [bind_eq_ok]
    exact ⟨_, id.1, _, summary.1, _, description.1, _, tags.1, _, parameters.1, _, body.1, _,
      responses.1, by rw [rest]; rfl⟩
  · simp only [Model.fields, List.forall_mem_cons]
    exact ⟨id.2, summary.2, description.2, tags.2, parameters.2, body.2, responses.2,
      List.forall_mem_nil _⟩

end Operation

namespace PathItem

/-- The members that a path may be written with. -/
def slots (item : PathItem) : Slots :=
  ("parameters", Slots.filled (item.parameters.map Parameter.toJson)) ::
    Method.all.map fun method => (method.name, (item.operation method).map Operation.toJson)

theorem members_operations (item : PathItem) :
    Slots.members (Method.all.map fun method =>
        (method.name, (item.operation method).map Operation.toJson)) =
      item.operations.map fun entry => (entry.1.name, entry.2.toJson) := by
  rw [Slots.members, List.filterMap_map, operations, List.map_filterMap]
  refine congrArg (List.filterMap · Method.all) (funext fun method => ?_)
  simp only [Function.comp_apply, Option.map_map]
  rfl

theorem toJson_eq (item : PathItem) : item.toJson = .object (item.slots.members ++ item.rest) := by
  rw [toJson, Slots.filled_eq, ← members_operations, ← Slots.members_append]
  rfl

/-- Paths are read faithfully. -/
theorem faithful_read : Faithful read read toJson (.record .pathItem) := by
  refine .of_open .pathItem slots (fun _ => rfl) fun isRead => ?_
  simp only [bind_eq_ok] at isRead
  obtain ⟨parameters, areParameters, operations, areOperations, returned⟩ := isRead
  cases returned
  refine ⟨toJson_eq _, fun {others members written} rereads rest => ?_⟩
  have parameters := rereads.list Parameter.faithful_read areParameters rfl
  have each (method : Method) :
      others.optional method.name Operation.read = .ok (operations.lookup method).join ∧
        Keeps (.record .operation) (OrderedMap.get? members method.name)
          (OrderedMap.get? written method.name) := by
    obtain ⟨operation, found, isOperation⟩ :=
      lookup_of_mapM areOperations (show method ∈ Method.all by cases method <;> decide)
    rw [found]
    refine rereads.optional Operation.faithful_read (fun _ _ => rfl) isOperation ?_
    cases method <;> exact congrArg (fun found => some (found.join.map Operation.toJson)) found
  have again : (Method.all.mapM fun method => do
        return (method, ← others.optional method.name Operation.read)) =
      .ok (Method.all.map fun method => (method, (operations.lookup method).join)) := by
    refine mapM_eq_ok_map fun method _ => ?_
    rw [(each method).1]
    rfl
  constructor
  · simp only [bind_eq_ok]
    refine ⟨_, parameters.1, _, again, ?_⟩
    · rw [rest]
      refine congrArg (fun operation => Except.ok (PathItem.mk _ operation _)) (funext fun method => ?_)
      cases method <;> rfl
  · refine List.forall_mem_cons.mpr ⟨parameters.2, fun field listed => ?_⟩
    obtain ⟨method, -, rfl⟩ := List.mem_map.mp listed
    exact (each method).2

end PathItem

namespace Components

/-- The members that components may be written with. -/
def slots (components : Components) : Slots :=
  [("schemas", Slots.filledMap (Writer.map Schema.toJson components.schemas)),
    ("parameters", Slots.filledMap (Writer.map Parameter.toJson components.parameters)),
    ("headers", Slots.filledMap (Writer.map Header.toJson components.headers))]

theorem toJson_eq (components : Components) :
    components.toJson = .object (components.slots.members ++ components.rest) := by
  simp only [toJson, Slots.filledMap_eq, ← Slots.members_append, List.cons_append, List.nil_append,
    slots]

/-- Components are read faithfully. -/
theorem faithful_read : Faithful read read toJson (.record .components) := by
  refine .of_open .components slots (fun _ => rfl) fun isRead => ?_
  simp only [bind_eq_ok] at isRead
  obtain ⟨schemas, areSchemas, parameters, areParameters, headers, areHeaders, returned⟩ := isRead
  cases returned
  refine ⟨toJson_eq _, fun rereads rest => ?_⟩
  have schemas := rereads.map Schema.faithful_read areSchemas rfl
  have parameters := rereads.map Parameter.faithful_read areParameters rfl
  have headers := rereads.map Header.faithful_read areHeaders rfl
  constructor
  · simp only [bind_eq_ok]
    exact ⟨_, schemas.1, _, parameters.1, _, headers.1, by rw [rest]; rfl⟩
  · simp only [Model.fields, List.forall_mem_cons]
    exact ⟨schemas.2, parameters.2, headers.2, List.forall_mem_nil _⟩

/-- Components are empty exactly if they define nothing and have no other members. -/
theorem isEmpty_iff {components : Components} : components.isEmpty ↔ components = {} := by
  cases components
  simp [isEmpty, and_assoc]

end Components

namespace Spec

/-- The members that a document may be written with. -/
def slots (spec : Spec) : Slots :=
  [("openapi", some (.string spec.version)),
    ("info", if spec.info.isNull then none else some (id spec.info)),
    ("paths", some (.object (Writer.map PathItem.toJson spec.paths))),
    ("components", if spec.components.isEmpty then none else some spec.components.toJson)]

theorem toJson_eq (spec : Spec) : spec.toJson = .object (spec.slots.members ++ spec.rest) := by
  rw [toJson, slots]
  cases spec.info.isNull <;> cases spec.components.isEmpty <;> rfl

/-- Documents are read faithfully. -/
theorem faithful_read : Faithful read read toJson (.record .spec) := by
  refine .of_open .spec slots (fun _ => rfl) fun isRead => ?_
  simp only [bind_eq_ok] at isRead
  obtain ⟨version, isVersion, info, isInfo, paths, arePaths, components, areComponents,
    returned⟩ := isRead
  cases returned
  refine ⟨toJson_eq _, fun rereads rest => ?_⟩
  have version := rereads.required verbatim_text.faithful isVersion rfl
  have isNull : info.isNull = true ↔ info = .null := by cases info <;> simp [Json.isNull]
  have info := rereads.withDefault faithful_json isInfo rfl (.unless isNull rfl)
  have paths := rereads.required PathItem.faithful_read.map arePaths rfl
  have components := rereads.withDefault Components.faithful_read areComponents rfl
    (.unless Components.isEmpty_iff rfl)
  constructor
  · simp only [bind_eq_ok]
    exact ⟨_, version.1, _, info.1, _, paths.1, _, components.1, by rw [rest]; rfl⟩
  · simp only [Model.fields, List.forall_mem_cons]
    exact ⟨version.2, info.2, paths.2, components.2, List.forall_mem_nil _⟩

end Spec

end ServiceForge.OpenApi
