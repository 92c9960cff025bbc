/-
This file proves which OpenAPI documents are restored from what is written of them: those whose
keys are distinct and whose schemas are restored, from the payloads of operations up to whole
documents.
-/

import ServiceForge.OpenApi.Loading
import ServiceForge.Proofs.Schema.Restoring
import ServiceForge.Proofs.Spec.RoundTrip

namespace ServiceForge.OpenApi

open ServiceForge.Document

/-- Whether each of some schemas is restored. -/
def AllRestored (schemas : List Schema) : Prop :=
  ∀ schema ∈ schemas, Restores Schema.read Schema.toJson schema

/-- Two lists of schemas are restored exactly if each of them is. -/
theorem allRestored_append {first second : List Schema} :
    AllRestored (first ++ second) ↔ AllRestored first ∧ AllRestored second :=
  List.forall_mem_append

/-- The schemas in some items are restored exactly if those in each item are. -/
theorem allRestored_flatMap {α : Type} {items : List α} {schemas : α → List Schema} :
    AllRestored (items.flatMap schemas) ↔ ∀ item ∈ items, AllRestored (schemas item) := by
  simp only [AllRestored, List.mem_flatMap, forall_exists_index, and_imp]
  exact ⟨fun each item held schema inside => each schema item held inside,
    fun each schema item held inside => each item held schema inside⟩

/-- The schemas of a map are restored if those of its entries are. -/
theorem allRestored_values {α : Type} {map : OrderedMap α} {schemas : α → List Schema} :
    AllRestored (map.values.flatMap schemas) ↔ ∀ entry ∈ map, AllRestored (schemas entry.2) := by
  simp only [allRestored_flatMap, OrderedMap.values, List.forall_mem_map]

/-- A schema in a field is read back if it is restored. -/
theorem stored_schema {fields : Fields} {slots : Slots} (stored : Stored fields slots)
    {name : String} {schema : Option Schema} (held : slots.lookup name = some (schema.map Schema.toJson))
    (restored : AllRestored schema.toList) : fields.optional name Schema.read = .ok schema :=
  stored.optional held fun present given =>
    ⟨Schema.isNull_toJson present, restored present (Option.mem_toList.mpr given)⟩

/-! ### Payloads -/

theorem Media.restores {media : Media} (rest : IsRest Model.media.names media.rest)
    (schemas : AllRestored media.schemas) : Restores read toJson media := by
  refine .of_open Model.media.nodup_names (toJson_eq media) rfl rest fun {fields} stored same => ?_
  have schema : fields.optional "schema" Schema.read = .ok media.schema :=
    stored_schema stored rfl schemas
  simp only [schema, same]
  rfl

theorem Parameter.restores {parameter : Parameter}
    (rest : IsRest Model.parameter.names parameter.rest)
    (schemas : AllRestored parameter.schemas) : Restores read toJson parameter := by
  refine .of_open Model.parameter.nodup_names (toJson_eq parameter) rfl rest
    fun {fields} stored same => ?_
  have name : fields.required "name" Reader.text = .ok parameter.name :=
    stored.required rfl (restores_text parameter.name)
  have location : fields.required "in" Location.read = .ok parameter.location :=
    stored.required rfl (by cases parameter.location <;> rfl)
  have description : fields.optional "description" Reader.text = .ok parameter.description :=
    stored.text rfl
  have required : fields.flag "required" = .ok parameter.required := stored.flag rfl
  have style : fields.optional "style" Reader.text = .ok parameter.style := stored.text rfl
  have explode : fields.optional "explode" Reader.flag = .ok parameter.explode :=
    stored.optional rfl fun flag _ => ⟨rfl, restores_flag flag⟩
  have schema : fields.optional "schema" Schema.read = .ok parameter.schema :=
    stored_schema stored rfl schemas
  simp only [name, location, description, required, style, explode, schema, same]
  rfl

theorem Header.restores {header : Header} (rest : IsRest Model.header.names header.rest)
    (schemas : AllRestored header.schemas) : Restores read toJson header := by
  refine .of_open Model.header.nodup_names (toJson_eq header) rfl rest
    fun {fields} stored same => ?_
  have description : fields.optional "description" Reader.text = .ok header.description :=
    stored.text rfl
  have schema : fields.optional "schema" Schema.read = .ok header.schema :=
    stored_schema stored rfl schemas
  simp only [description, schema, same]
  rfl

/-- Whether the keys of a map are distinct and its values are tidy. -/
structure TidyMap {α : Type} (tidy : α → Prop) (map : OrderedMap α) : Prop where
  distinct : (OrderedMap.keys map).Nodup
  each : ∀ entry ∈ map, tidy entry.2

theorem tidyMap_nil {α : Type} (tidy : α → Prop) : TidyMap tidy [] :=
  ⟨List.nodup_nil, List.forall_mem_nil _⟩

/-- Content whose other members are none of its fields. -/
def Media.Tidy (media : Media) : Prop := IsRest Model.media.names media.rest

/-- A parameter whose other members are none of its fields. -/
def Parameter.Tidy (parameter : Parameter) : Prop := IsRest Model.parameter.names parameter.rest

/-- A header whose other members are none of its fields. -/
def Header.Tidy (header : Header) : Prop := IsRest Model.header.names header.rest

/-- A response with distinct keys whose other members are none of its fields. -/
structure Response.Tidy (response : Response) : Prop where
  headers : TidyMap Header.Tidy response.headers
  content : TidyMap Media.Tidy response.content
  rest : IsRest Model.response.names response.rest

/-- A tidy response is read back if its schemas are. -/
theorem Response.restores {response : Response} (tidy : response.Tidy)
    (schemas : AllRestored response.schemas) : Restores read toJson response := by
  obtain ⟨inHeaders, inContent⟩ := allRestored_append.mp schemas
  refine .of_open Model.response.nodup_names (toJson_eq response) rfl tidy.rest
    fun {fields} stored same => ?_
  have description : fields.optional "description" Reader.text = .ok response.description :=
    stored.text rfl
  have headers : fields.map "headers" Header.read = .ok response.headers :=
    stored.map rfl tidy.headers.distinct fun entry member =>
      Header.restores (tidy.headers.each entry member)
        (allRestored_values.mp inHeaders entry member)
  have content : fields.map "content" Media.read = .ok response.content :=
    stored.map rfl tidy.content.distinct fun entry member =>
      Media.restores (tidy.content.each entry member) (allRestored_values.mp inContent entry member)
  simp only [description, headers, content, same]
  rfl

/-- A body with distinct keys whose other members are none of its fields. -/
structure RequestBody.Tidy (body : RequestBody) : Prop where
  content : TidyMap Media.Tidy body.content
  rest : IsRest Model.requestBody.names body.rest

theorem RequestBody.restores {body : RequestBody} (tidy : body.Tidy)
    (schemas : AllRestored body.schemas) : Restores read toJson body := by
  refine .of_open Model.requestBody.nodup_names (toJson_eq body) rfl tidy.rest
    fun {fields} stored same => ?_
  have description : fields.optional "description" Reader.text = .ok body.description :=
    stored.text rfl
  have content : fields.map "content" Media.read = .ok body.content :=
    stored.wholeMap rfl tidy.content.distinct fun entry member =>
      Media.restores (tidy.content.each entry member) (allRestored_values.mp schemas entry member)
  have required : fields.flag "required" = .ok body.required := stored.flag rfl
  simp only [description, content, required, same]
  rfl

/-! ### Operations and documents -/

/-- An operation that is tidy in all its parts. -/
structure Operation.Tidy (operation : Operation) : Prop where
  parameters : ∀ parameter ∈ operation.parameters, parameter.Tidy
  body : ∀ body, operation.requestBody = some body → body.Tidy
  responses : TidyMap Response.Tidy operation.responses
  rest : IsRest Model.operation.names operation.rest

/-- A tidy operation is read back if its schemas are. -/
theorem Operation.restores {operation : Operation} (tidy : operation.Tidy)
    (schemas : AllRestored operation.schemas) : Restores read toJson operation := by
  obtain ⟨early, inResponses⟩ := allRestored_append.mp schemas
  obtain ⟨inParameters, inBody⟩ := allRestored_append.mp early
  refine .of_open Model.operation.nodup_names (toJson_eq operation) rfl tidy.rest
    fun {fields} stored same => ?_
  have id : fields.optional "operationId" Reader.text = .ok operation.id := stored.text rfl
  have summary : fields.optional "summary" Reader.text = .ok operation.summary := stored.text rfl
  have description : fields.optional "description" Reader.text = .ok operation.description :=
    stored.text rfl
  have tags : fields.list "tags" Reader.text = .ok operation.tags :=
    stored.list rfl fun tag _ => restores_text tag
  have parameters : fields.list "parameters" Parameter.read = .ok operation.parameters :=
    stored.list rfl fun parameter member => Parameter.restores (tidy.parameters parameter member)
      (allRestored_flatMap.mp inParameters parameter member)
  have body : fields.optional "requestBody" RequestBody.read = .ok operation.requestBody :=
    stored.optional rfl fun body given => ⟨rfl, RequestBody.restores (tidy.body body given)
      (allRestored_flatMap.mp inBody body (Option.mem_toList.mpr given))⟩
  have responses : fields.map "responses" Response.read = .ok operation.responses :=
    stored.wholeMap rfl tidy.responses.distinct fun entry member =>
      Response.restores (tidy.responses.each entry member)
        (allRestored_values.mp inResponses entry member)
  simp only [id, summary, description, tags, parameters, body, responses, same]
  rfl

/-- A path that is tidy in all its operations. -/
structure PathItem.Tidy (item : PathItem) : Prop where
  parameters : ∀ parameter ∈ item.parameters, parameter.Tidy
  operations : ∀ entry ∈ item.operations, entry.2.Tidy
  rest : IsRest Model.pathItem.names item.rest

theorem PathItem.mem_operations {item : PathItem} {method : Method} {operation : Operation} :
    (method, operation) ∈ item.operations ↔ item.operation method = some operation := by
  have listed : method ∈ Method.all := by cases method <;> decide
  simp only [operations, List.mem_filterMap, Option.map_eq_some_iff, Prod.mk.injEq]
  constructor
  · rintro ⟨_, -, _, found, rfl, rfl⟩
    exact found
  · exact fun found => ⟨method, listed, operation, found, rfl, rfl⟩

/-- A tidy path is read back if its schemas are. -/
theorem PathItem.restores {item : PathItem} (tidy : item.Tidy)
    (schemas : AllRestored item.schemas) : Restores read toJson item := by
  obtain ⟨inParameters, inOperations⟩ := allRestored_append.mp schemas
  refine .of_open Model.pathItem.nodup_names (toJson_eq item) rfl tidy.rest
    fun {fields} stored same => ?_
  have parameters : fields.list "parameters" Parameter.read = .ok item.parameters :=
    stored.list rfl fun parameter member => Parameter.restores (tidy.parameters parameter member)
      (allRestored_flatMap.mp inParameters parameter member)
  have each (method : Method) :
      fields.optional method.name Operation.read = .ok (item.operation method) := by
    refine stored.optional (by cases method <;> rfl) fun operation given => ⟨rfl, ?_⟩
    have member := mem_operations.mpr given
    exact Operation.restores (tidy.operations _ member)
      (allRestored_flatMap.mp inOperations _ member)
  have operations : (Method.all.mapM fun method => do
        return (method, ← fields.optional method.name Operation.read)) =
      .ok (Method.all.map fun method => (method, item.operation method)) := by
    refine mapM_eq_ok_map fun method _ => ?_
    rw [each method]
    rfl
  simp only [parameters, operations, same]
  refine congrArg (fun operation => Except.ok (PathItem.mk _ operation _)) (funext fun method => ?_)
  cases method <;> rfl

/-- Components with distinct names that are tidy in all their parts. -/
structure Components.Tidy (components : Components) : Prop where
  schemas : (OrderedMap.keys components.schemas).Nodup
  parameters : TidyMap Parameter.Tidy components.parameters
  headers : TidyMap Header.Tidy components.headers
  rest : IsRest Model.components.names components.rest

/-- Tidy components are read back if their schemas are. -/
theorem Components.restores {components : Components} (tidy : components.Tidy)
    (schemas : AllRestored components.schemasInside) : Restores read toJson components := by
  obtain ⟨early, inHeaders⟩ := allRestored_append.mp schemas
  obtain ⟨inSchemas, inParameters⟩ := allRestored_append.mp early
  refine .of_open Model.components.nodup_names (toJson_eq components) rfl tidy.rest
    fun {fields} stored same => ?_
  have schemas : fields.map "schemas" Schema.read = .ok components.schemas :=
    stored.map rfl tidy.schemas fun entry member => inSchemas entry.2 (List.mem_map_of_mem member)
  have parameters : fields.map "parameters" Parameter.read = .ok components.parameters :=
    stored.map rfl tidy.parameters.distinct fun entry member =>
      Parameter.restores (tidy.parameters.each entry member)
        (allRestored_values.mp inParameters entry member)
  have headers : fields.map "headers" Header.read = .ok components.headers :=
    stored.map rfl tidy.headers.distinct fun entry member =>
      Header.restores (tidy.headers.each entry member)
        (allRestored_values.mp inHeaders entry member)
  simp only [schemas, parameters, headers, same]
  rfl

/-- A document that is tidy in all its parts. -/
structure Spec.Tidy (spec : Spec) : Prop where
  info : spec.info.isKeyed = true
  paths : TidyMap PathItem.Tidy spec.paths
  components : spec.components.Tidy
  rest : IsRest Model.spec.names spec.rest

/-- The schemas of a document that do not stand in others. -/
def Spec.topSchemas (spec : Spec) : List Schema :=
  spec.paths.values.flatMap PathItem.schemas ++ spec.components.schemasInside

/-- A tidy document is read back if its schemas are. -/
theorem Spec.restores {spec : Spec} (tidy : spec.Tidy) (schemas : AllRestored spec.topSchemas) :
    Restores read toJson spec := by
  obtain ⟨inPaths, inComponents⟩ := allRestored_append.mp schemas
  refine .of_open Model.spec.nodup_names (toJson_eq spec) rfl tidy.rest
    fun {fields} stored same => ?_
  have version : fields.required "openapi" Reader.text = .ok spec.version :=
    stored.required rfl (restores_text spec.version)
  have info : fields.withDefault "info" .null Reader.json = .ok spec.info :=
    stored.unless rfl (fun null => by cases own : spec.info <;> simp_all [Json.isNull])
      (restores_json tidy.info)
  have paths : fields.required "paths" (Reader.map PathItem.read) = .ok spec.paths :=
    stored.required rfl (restores_map tidy.paths.distinct fun entry member =>
      PathItem.restores (tidy.paths.each entry member) (allRestored_values.mp inPaths entry member))
  have components : fields.withDefault "components" {} Components.read = .ok spec.components :=
    stored.unless rfl Components.isEmpty_iff.mp (Components.restores tidy.components inComponents)
  simp only [version, info, paths, components, same]
  rfl

/-! ### Documents that are read -/

/-- A schema that was read from a field was read from a part of the value. -/
theorem found_of_schema {P : Mode → Value → Prop} {fields : Fields} (owned : Owned P fields)
    {name : String} {schema : Option Schema} (ok : fields.optional name Schema.read = .ok schema) :
    ∀ part ∈ schema.toList, Found P Schema.read part := by
  have found := (Gathers.self P Schema.read).optional.withDefault owned rfl ok
  rwa [List.flatMap_singleton'] at found

section Gathers

variable {P : Mode → Value → Prop} (inherits : Inherits P)

include inherits

theorem Media.gathers : Gathers P Media.read Media.schemas Schema.read := by
  refine Gathers.of_open inherits fun {fields media} owned isRead => ?_
  obtain ⟨schema, isSchema, returned⟩ := bind_eq_ok.mp isRead
  cases returned
  exact found_of_schema owned isSchema

theorem Parameter.gathers : Gathers P Parameter.read Parameter.schemas Schema.read := by
  refine Gathers.of_open inherits fun {fields parameter} owned isRead => ?_
  simp only [bind_eq_ok] at isRead
  obtain ⟨name, -, location, -, description, -, required, -, style, -, explode, -, schema, isSchema,
    returned⟩ := isRead
  cases returned
  exact found_of_schema owned isSchema

theorem Header.gathers : Gathers P Header.read Header.schemas Schema.read := by
  refine Gathers.of_open inherits fun {fields header} owned isRead => ?_
  simp only [bind_eq_ok] at isRead
  obtain ⟨description, -, schema, isSchema, returned⟩ := isRead
  cases returned
  exact found_of_schema owned isSchema

theorem Response.gathers : Gathers P Response.read Response.schemas Schema.read := by
  refine Gathers.of_open inherits fun {fields response} owned isRead => ?_
  simp only [bind_eq_ok] at isRead
  obtain ⟨description, -, headers, areHeaders, content, isContent, returned⟩ := isRead
  cases returned
  exact List.forall_mem_append.mpr
    ⟨((Header.gathers inherits).map inherits).withDefault owned rfl areHeaders,
      ((Media.gathers inherits).map inherits).withDefault owned rfl isContent⟩

theorem RequestBody.gathers : Gathers P RequestBody.read RequestBody.schemas Schema.read := by
  refine Gathers.of_open inherits fun {fields body} owned isRead => ?_
  simp only [bind_eq_ok] at isRead
  obtain ⟨description, -, content, isContent, required, -, returned⟩ := isRead
  cases returned
  exact ((Media.gathers inherits).map inherits).withDefault owned rfl isContent

/-- The schemas of an operation were read from parts of its value. -/
theorem Operation.gathers : Gathers P Operation.read Operation.schemas Schema.read := by
  refine Gathers.of_open inherits fun {fields operation} owned isRead => ?_
  simp only [bind_eq_ok] at isRead
  obtain ⟨id, -, summary, -, description, -, tags, -, parameters, areParameters, body, isBody,
    responses, areResponses, returned⟩ := isRead
  cases returned
  refine List.forall_mem_append.mpr ⟨List.forall_mem_append.mpr ⟨?_, ?_⟩, ?_⟩
  · exact ((Parameter.gathers inherits).list inherits).withDefault owned rfl areParameters
  · exact (RequestBody.gathers inherits).optional.withDefault owned rfl isBody
  · exact ((Response.gathers inherits).map inherits).withDefault owned rfl areResponses

/-- The schemas of a path were read from parts of its value. -/
theorem PathItem.gathers : Gathers P PathItem.read PathItem.schemas Schema.read := by
  refine Gathers.of_open inherits fun {fields item} owned isRead => ?_
  simp only [bind_eq_ok] at isRead
  obtain ⟨parameters, areParameters, operations, areOperations, returned⟩ := isRead
  cases returned
  refine List.forall_mem_append.mpr ⟨((Parameter.gathers inherits).list inherits).withDefault owned
    rfl areParameters, fun schema member => ?_⟩
  obtain ⟨⟨method, operation⟩, isOperation, inside⟩ := List.mem_flatMap.mp member
  have found := PathItem.mem_operations.mp isOperation
  obtain ⟨before, after, whole, -⟩ := List.lookup_eq_some_iff.mp (Option.join_eq_some_iff.mp found)
  have isEntry : (method, some operation) ∈ operations := by simp [whole]
  obtain ⟨own, -, isRead⟩ := (mem_mapM areOperations).mp isEntry
  obtain ⟨_, isRead, same⟩ := bind_eq_ok.mp isRead
  cases same
  exact (Operation.gathers inherits).optional.withDefault owned rfl isRead schema
    (by simpa using inside)

/-- The schemas of components were read from parts of their value. -/
theorem Components.gathers : Gathers P Components.read Components.schemasInside Schema.read := by
  refine Gathers.of_open inherits fun {fields components} owned isRead => ?_
  simp only [bind_eq_ok] at isRead
  obtain ⟨schemas, areSchemas, parameters, areParameters, headers, areHeaders, returned⟩ := isRead
  cases returned
  have inSchemas := ((Gathers.self P Schema.read).map inherits).withDefault owned rfl areSchemas
  rw [List.flatMap_singleton'] at inSchemas
  refine List.forall_mem_append.mpr ⟨List.forall_mem_append.mpr ⟨inSchemas, ?_⟩, ?_⟩
  · exact ((Parameter.gathers inherits).map inherits).withDefault owned rfl areParameters
  · exact ((Header.gathers inherits).map inherits).withDefault owned rfl areHeaders

/-- The schemas of a document that is read are read themselves. -/
theorem Spec.gathers : Gathers P Spec.read Spec.topSchemas Schema.read := by
  refine Gathers.of_open inherits fun {fields spec} owned isRead => ?_
  simp only [bind_eq_ok] at isRead
  obtain ⟨version, -, info, -, paths, arePaths, components, areComponents, returned⟩ := isRead
  cases returned
  refine List.forall_mem_append.mpr ⟨?_, ?_⟩
  · obtain ⟨mode, source, own, isRead⟩ := read_of_required owned arePaths
    exact ((PathItem.gathers inherits).map inherits) mode source paths own isRead
  · exact (Components.gathers inherits).withDefault owned rfl areComponents

end Gathers

/-- No default in a document that is read is null. -/
theorem Spec.not_defaultsToNull_of_ofJson {json : Json} {spec : Spec}
    (ok : Document.ofJson read json = .ok spec) :
    ∀ schema ∈ spec.topSchemas, ¬ schema.DefaultsToNull := by
  intro schema member
  obtain ⟨_, _, ⟨rfl, source, rfl⟩, isRead⟩ :=
    Spec.gathers inherits_isJson _ _ _ (isJson_ofJson json) ok schema member
  exact Schema.not_defaultsToNull_of_ofJson isRead

/-- No default in a loaded document is null. -/
theorem Spec.not_defaultsToNull_of_ofText {text : String} {spec : Spec}
    (loaded : ofText text = .ok spec) : ∀ schema ∈ spec.topSchemas, ¬ schema.DefaultsToNull := by
  obtain ⟨document, -, loaded⟩ := bind_eq_ok.mp loaded
  unfold ofJson at loaded
  split at loaded
  · split at loaded
    · cases loaded
    · split at loaded
      · exact not_defaultsToNull_of_ofJson (mapError_eq_ok.mp loaded)
      · cases loaded
  · cases loaded

/-- A tidy document whose schemas are tidy is restored exactly if no default in it is null. -/
theorem Spec.restores_iff {spec : Spec} (tidy : spec.Tidy)
    (schemas : ∀ schema ∈ spec.topSchemas, schema.Tidy) :
    Restores read toJson spec ↔ ∀ schema ∈ spec.topSchemas, ¬ schema.DefaultsToNull :=
  ⟨Spec.not_defaultsToNull_of_ofJson, fun apart => Spec.restores tidy fun schema member =>
    (Schema.restores_iff (schemas schema member)).mpr (apart schema member)⟩

end ServiceForge.OpenApi
