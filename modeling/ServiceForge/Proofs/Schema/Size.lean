/-
This file lists the schemas of a document, those that stand in its paths and its components,
and those that stand in one of them, however deep. It relates the size of a schema to its
parts: each of them is smaller, so what follows a schema into its parts comes to an end. The
component schemas of a document are at most as large as all of them together.
-/

import Mathlib.Logic.Relation
import ServiceForge.OpenApi.Schema.Size
import ServiceForge.OpenApi.Spec.Basic

namespace ServiceForge.OpenApi

/-! ### Schemas in schemas -/

/-- The schemas in what is allowed beside the properties. -/
def Additional.schemas {α : Type} : Additional α → List α
  | .allowed _ => []
  | .each schema => [schema]

namespace Schema

/-- The schemas that stand directly in a schema. -/
def parts (schema : Schema) : List Schema :=
  schema.items.toList ++ schema.properties.map Prod.snd ++
    schema.additional.toList.flatMap Additional.schemas ++ schema.oneOf ++ schema.anyOf ++
      schema.allOf

theorem mem_parts {schema part : Schema} :
    part ∈ schema.parts ↔
      schema.items = some part ∨ (∃ property ∈ schema.properties, property.2 = part) ∨
        schema.additional = some (.each part) ∨ part ∈ schema.oneOf ∨ part ∈ schema.anyOf ∨
          part ∈ schema.allOf := by
  have further : part ∈ schema.additional.toList.flatMap Additional.schemas ↔
      schema.additional = some (.each part) := by
    rcases schema.additional with - | ⟨flag | other⟩ <;> simp [Additional.schemas, eq_comm]
  simp only [parts, List.mem_append, further, Option.mem_toList, List.mem_map,
    or_assoc]

/-- Whether a schema is another one or stands in it, however deep. -/
def Holds : Schema → Schema → Prop := Relation.ReflTransGen fun whole part => part ∈ whole.parts

/-- What holds of every schema in a schema holds of it and of every schema in its parts. -/
theorem forall_holds_iff {P : Schema → Prop} {schema : Schema} :
    (∀ inner, schema.Holds inner → P inner) ↔
      P schema ∧ ∀ part ∈ schema.parts, ∀ inner, part.Holds inner → P inner := by
  constructor
  · intro all
    exact ⟨all schema .refl, fun part isPart inner holds => all inner (.head isPart holds)⟩
  · rintro ⟨own, parts⟩ inner holds
    rcases Relation.ReflTransGen.cases_head holds with rfl | ⟨part, isPart, rest⟩
    · exact own
    · exact parts part isPart inner rest

/-- Whether a reference stands in a schema, however deep. -/
def Refers (schema : Schema) (reference : String) : Prop :=
  ∃ part, schema.Holds part ∧ part.reference = some reference

theorem refers_iff {schema : Schema} {reference : String} :
    schema.Refers reference ↔
      schema.reference = some reference ∨ ∃ part ∈ schema.parts, part.Refers reference := by
  constructor
  · rintro ⟨part, holds, own⟩
    rcases Relation.ReflTransGen.cases_head holds with rfl | ⟨first, isPart, rest⟩
    · exact Or.inl own
    · exact Or.inr ⟨first, isPart, part, rest, own⟩
  · rintro (own | ⟨first, isPart, part, rest, own⟩)
    · exact ⟨schema, .refl, own⟩
    · exact ⟨part, .head isPart rest, own⟩

end Schema

/-! ### Schemas in a document -/

/-- The schemas in content of one media type. -/
def Media.schemas (media : Media) : List Schema := media.schema.toList

/-- The schemas in content of several media types. -/
def Content.schemas (content : Content) : List Schema := content.values.flatMap Media.schemas

/-- The schemas in a parameter. -/
def Parameter.schemas (parameter : Parameter) : List Schema := parameter.schema.toList

/-- The schemas in a header. -/
def Header.schemas (header : Header) : List Schema := header.schema.toList

/-- The schemas in a response. -/
def Response.schemas (response : Response) : List Schema :=
  response.headers.values.flatMap Header.schemas ++ Content.schemas response.content

/-- The schemas in the body of a request. -/
def RequestBody.schemas (body : RequestBody) : List Schema := Content.schemas body.content

/-- The schemas in an operation. -/
def Operation.schemas (operation : Operation) : List Schema :=
  operation.parameters.flatMap Parameter.schemas ++
    operation.requestBody.toList.flatMap RequestBody.schemas ++
      operation.responses.values.flatMap Response.schemas

/-- The schemas in a path with its operations. -/
def PathItem.schemas (item : PathItem) : List Schema :=
  item.parameters.flatMap Parameter.schemas ++
    item.operations.flatMap fun operation => operation.2.schemas

/-- The schemas in what a document defines for use by name. -/
def Components.schemasInside (components : Components) : List Schema :=
  components.schemas.values ++ components.parameters.values.flatMap Parameter.schemas ++
    components.headers.values.flatMap Header.schemas

/-- Whether a schema stands anywhere in a document. -/
def Spec.Holds (spec : Spec) (schema : Schema) : Prop :=
  ∃ top ∈ spec.paths.values.flatMap PathItem.schemas ++ spec.components.schemasInside,
    top.Holds schema

namespace Schema

theorem size_eq (schema : Schema) :
    schema.size = itemsSize schema.items + propertiesSize schema.properties +
      additionalSize schema.additional + branchesSize schema.oneOf + branchesSize schema.anyOf +
        branchesSize schema.allOf + 1 := by
  cases schema
  rfl

theorem size_pos (schema : Schema) : 0 < schema.size := by
  rw [size_eq]
  exact Nat.succ_pos _

/-! ### Parts -/

theorem propertiesSize_eq (properties : List (String × Schema)) :
    propertiesSize properties = branchesSize (properties.map Prod.snd) := by
  induction properties with
  | nil => rfl
  | cons property rest inductionHypothesis =>
    obtain ⟨name, schema⟩ := property
    rw [propertiesSize, propertySize, inductionHypothesis, List.map_cons, branchesSize]

theorem size_le_branchesSize {branches : List Schema} {branch : Schema}
    (member : branch ∈ branches) : branch.size ≤ branchesSize branches := by
  induction branches with
  | nil => cases member
  | cons first rest inductionHypothesis =>
    rw [branchesSize]
    rcases List.mem_cons.mp member with rfl | later
    · exact Nat.le_add_right _ _
    · exact Nat.le_trans (inductionHypothesis later) (Nat.le_add_left _ _)

theorem size_le_propertiesSize {properties : List (String × Schema)} {property : String × Schema}
    (member : property ∈ properties) : property.2.size ≤ propertiesSize properties := by
  rw [propertiesSize_eq]
  exact size_le_branchesSize (List.mem_map_of_mem member)

theorem length_le_branchesSize (branches : List Schema) :
    branches.length ≤ branchesSize branches := by
  induction branches with
  | nil => exact Nat.le_refl 0
  | cons first rest inductionHypothesis =>
    have positive := first.size_pos
    rw [branchesSize, List.length_cons]
    omega

theorem size_lt_of_mem_parts {schema part : Schema} (isPart : part ∈ schema.parts) :
    part.size < schema.size := by
  rw [size_eq schema]
  rcases mem_parts.mp isPart with
    isItems | ⟨property, isProperty, rfl⟩ | isEach | isOne | isAny | isAll
  · rw [isItems, itemsSize]
    omega
  · have bound := size_le_propertiesSize isProperty
    omega
  · rw [isEach, additionalSize, extraSize]
    omega
  · have bound := size_le_branchesSize isOne
    omega
  · have bound := size_le_branchesSize isAny
    omega
  · have bound := size_le_branchesSize isAll
    omega

/-- What holds of a schema if it holds of its parts holds of every schema. -/
theorem parts_induction {P : Schema → Prop}
    (step : ∀ schema, (∀ part ∈ schema.parts, P part) → P schema) (schema : Schema) : P schema := by
  induction bound : schema.size using Nat.strongRecOn generalizing schema with
  | ind size inductionHypothesis =>
    refine step schema fun part isPart => inductionHypothesis part.size ?_ part rfl
    rw [← bound]
    exact size_lt_of_mem_parts isPart

end Schema

theorem Spec.size_le_schemasSize {spec : Spec} {name : String} {schema : Schema}
    (found : spec.schema? name = some schema) : schema.size ≤ spec.schemasSize :=
  Schema.size_le_propertiesSize (OrderedMap.mem_of_get? found)

end ServiceForge.OpenApi
