/-
This file proves that what is written of an OpenAPI document has distinct keys and no local
reference if the same holds of what is written of its schemas and of the members that its parts
do not declare. No record but a schema declares a reference, and no entry of a map is one. A
document without local references and components has nothing to resolve where it is loaded.
-/

import ServiceForge.Proofs.Reference.Parts
import ServiceForge.Proofs.Spec.Restoring

namespace ServiceForge.OpenApi

open ServiceForge.Document
open ServiceForge.OpenApi.Reference

/-- Whether the keys of each object in a document are distinct and no reference in it is local. -/
structure Settled (document : Json) : Prop where
  keyed : document.isKeyed = true
  foreign : Foreign document

/-- An object is settled if its keys are distinct, it is no local reference and all in it is
settled. -/
theorem settled_object {members : List (String × Json)} :
    Settled (.object members) ↔ (OrderedMap.keys members).Nodup ∧
      (∀ reference, ofMembers? members = some reference → isLocal reference = false) ∧
        ∀ member ∈ members, Settled member.2 := by
  constructor
  · rintro ⟨keyed, foreign⟩
    obtain ⟨distinct, inKeyed⟩ := Json.isKeyed_object.mp keyed
    obtain ⟨noLocal, inForeign⟩ := foreign_object.mp foreign
    exact ⟨distinct, noLocal, fun member held => ⟨inKeyed member held, inForeign member held⟩⟩
  · rintro ⟨distinct, noLocal, inside⟩
    exact ⟨Json.isKeyed_object.mpr ⟨distinct, fun member held => (inside member held).keyed⟩,
      foreign_object.mpr ⟨noLocal, fun member held => (inside member held).foreign⟩⟩

/-! ### Slots -/

/-- Whether a property holds of the documents without parts and of arrays of documents that have
it. -/
structure Spreads (P : Json → Prop) : Prop where
  flag : ∀ value, P (.bool value)
  number : ∀ value, P (.number value)
  text : ∀ value, P (.string value)
  items : ∀ {items}, (∀ item ∈ items, P item) → P (.array items)

/-- A value without references is foreign. -/
theorem foreign_of_all_nil {document : Json} (none : Reference.all document = []) :
    Foreign document := fun reference member => by
  rw [none] at member
  cases member

theorem foreign_nil : Foreign (.object []) := foreign_of_all_nil rfl

/-- That keys are distinct spreads to arrays. -/
theorem spreads_isKeyed : Spreads fun document => document.isKeyed = true :=
  ⟨fun _ => rfl, fun _ => rfl, fun _ => rfl, fun each => Json.everywhere_array.mpr ⟨rfl, each⟩⟩

/-- That no reference is local spreads to arrays. -/
theorem spreads_foreign : Spreads Foreign :=
  ⟨fun _ => foreign_of_all_nil rfl, fun _ => foreign_of_all_nil rfl,
    fun _ => foreign_of_all_nil rfl, foreign_array.mpr⟩

/-- Being settled spreads to arrays. -/
theorem spreads_settled : Spreads Settled where
  flag value := ⟨spreads_isKeyed.flag value, spreads_foreign.flag value⟩
  number value := ⟨spreads_isKeyed.number value, spreads_foreign.number value⟩
  text value := ⟨spreads_isKeyed.text value, spreads_foreign.text value⟩
  items each := ⟨spreads_isKeyed.items fun item member => (each item member).keyed,
    spreads_foreign.items fun item member => (each item member).foreign⟩

/-- Whether a slot is empty or holds a document with the given property. -/
def Admits (P : Json → Prop) (slot : Option Json) : Prop := ∀ json, slot = some json → P json

section Slots

variable {P : Json → Prop}

theorem admits_none : Admits P none := by
  intro json held
  cases held

theorem admits_some {json : Json} (holds : P json) : Admits P (some json) := by
  intro other held
  cases held
  exact holds

/-- A member that may be absent admits what holds of each value that it is written for. -/
theorem admits_map {α : Type} {write : α → Json} {value : Option α}
    (each : ∀ present, value = some present → P (write present)) :
    Admits P (value.map write) := by
  intro json held
  obtain ⟨present, given, rfl⟩ := Option.map_eq_some_iff.mp held
  exact each present given

theorem admits_filledMap {members : Writer.Members} (holds : P (.object members)) :
    Admits P (Slots.filledMap members) := by
  intro json held
  unfold Slots.filledMap at held
  split at held
  · cases held
  · cases held
    exact holds

variable (spreads : Spreads P)

include spreads

theorem admits_text (value : Option String) : Admits P (value.map .string) :=
  admits_map fun text _ => spreads.text text

theorem admits_flag (value : Option Bool) : Admits P (value.map .bool) :=
  admits_map fun flag _ => spreads.flag flag

theorem admits_natural (value : Option Nat) : Admits P (value.map Writer.natural) :=
  admits_map fun _ _ => spreads.number _

theorem admits_whenSet (flag : Bool) : Admits P (Slots.whenSet flag) := by
  cases flag with
  | false => exact admits_none
  | true => exact admits_some (spreads.flag true)

/-- A list that is left out when empty admits what holds of its items. -/
theorem admits_filled {α : Type} {write : α → Json} {values : List α}
    (each : ∀ value ∈ values, P (write value)) : Admits P (Slots.filled (values.map write)) := by
  intro json held
  unfold Slots.filled at held
  split at held
  · cases held
  · cases held
    exact spreads.items (List.forall_mem_map.mpr each)

theorem admits_texts (values : List String) : Admits P (Slots.filled (values.map .string)) :=
  admits_filled spreads fun text _ => spreads.text text

/-- The slots of a schema hold documents with a property if those of its parts, its properties and
its free values have it. -/
theorem Schema.admits_of_mem_slots {schema : Schema}
    (parts : ∀ part ∈ schema.parts, P part.toJson)
    (properties : P (.object (Writer.map toJson schema.properties)))
    (default : ∀ document, schema.default = some document → P document)
    (choices : ∀ document ∈ schema.choices, P document) :
    ∀ slot ∈ schema.slots, Admits P slot.2 := by
  have parts := partsHave_of_forall parts
  have type : Admits P (schema.type.map TypeNames.toJson) := by
    refine admits_map fun type _ => ?_
    cases type with
    | single name => exact spreads.text name
    | multiple names =>
      exact spreads.items (List.forall_mem_map.mpr fun name _ => spreads.text name)
  have additional : Admits P (schema.additional.map extraToJson) := by
    refine admits_map fun additional given => ?_
    cases additional with
    | allowed flag => exact spreads.flag flag
    | each values => exact parts.additional values given
  simp only [slots, List.forall_mem_cons]
  exact ⟨admits_text spreads _, type, admits_text spreads _, admits_text spreads _,
    admits_text spreads _, admits_map default, admits_map parts.items, admits_filledMap properties,
    admits_texts spreads _, admits_flag spreads _, additional, admits_filled spreads parts.oneOf,
    admits_filled spreads parts.anyOf, admits_filled spreads parts.allOf,
    admits_filled spreads choices, admits_text spreads _, admits_natural spreads _,
    admits_natural spreads _, admits_flag spreads _, List.forall_mem_nil _⟩

end Slots

/-! ### Records and maps -/

section Records

variable {slots : Slots} {names : List String} {rest : OrderedMap Json}

/-- What holds of the fields and of the other members holds of all members of a record. -/
theorem forall_mem_record {P : Json → Prop} (each : ∀ slot ∈ slots, Admits P slot.2)
    (inRest : ∀ member ∈ rest, P member.2) : ∀ member ∈ slots.members ++ rest, P member.2 := by
  intro member held
  rcases List.mem_append.mp held with declared | other
  · obtain ⟨slot, isSlot, filled⟩ := List.mem_filterMap.mp declared
    obtain ⟨json, isFilled, rfl⟩ := Option.map_eq_some_iff.mp filled
    exact each slot isSlot json isFilled
  · exact inRest member other

/-- A record without a slot for a reference has one only among its other members. -/
theorem settled_record (distinct : names.Nodup) (named : slots.map Prod.fst = names)
    (undeclared : "$ref" ∉ names) (each : ∀ slot ∈ slots, Admits Settled slot.2)
    (isRest : IsRest names rest) (foreign : Foreign (.object rest)) :
    Settled (.object (slots.members ++ rest)) := by
  obtain ⟨-, noLocal, inRest⟩ := settled_object.mp ⟨isRest.keyed, foreign⟩
  have absent : OrderedMap.get? slots.members "$ref" = none := OrderedMap.get?_eq_none.mpr
    fun held => undeclared (name_of_mem_slots named held)
  refine settled_object.mpr ⟨nodup_keys_record distinct named isRest, fun reference held => ?_,
    forall_mem_record each inRest⟩
  rw [ofMembers?, OrderedMap.get?_append, absent, Option.none_or] at held
  exact noLocal reference held

end Records

section Maps

variable {α : Type} {write : α → Json} {values : OrderedMap α}
  (noText : ∀ value, (write value).string? = none)

include noText

/-- The entries of a map are not references. -/
theorem ofMembers?_map : ofMembers? (Writer.map write values) = none := by
  rw [ofMembers?, Writer.map, OrderedMap.get?_mapValues, Option.bind_map]
  exact Option.bind_eq_none_iff.mpr fun value _ => noText value

/-- A map is foreign if each of its values is. -/
theorem foreign_map (each : ∀ entry ∈ values, Foreign (write entry.2)) :
    Foreign (.object (Writer.map write values)) := by
  refine foreign_object.mpr ⟨fun reference held => ?_, List.forall_mem_map.mpr each⟩
  cases (ofMembers?_map noText).symm.trans held

/-- A map with distinct keys is settled if each of its values is. -/
theorem settled_map (distinct : (OrderedMap.keys values).Nodup)
    (each : ∀ entry ∈ values, Settled (write entry.2)) :
    Settled (.object (Writer.map write values)) := by
  refine ⟨Json.isKeyed_object.mpr ⟨?_, ?_⟩,
    foreign_map noText fun entry held => (each entry held).foreign⟩
  · rwa [Writer.map, OrderedMap.keys_mapValues]
  · exact List.forall_mem_map.mpr fun entry held => (each entry held).keyed

end Maps

/-! ### Schemas -/

namespace Schema

theorem string?_toJson (schema : Schema) : schema.toJson.string? = none := by
  rw [toJson_eq]
  rfl

theorem isKeyed_toJson {schema : Schema} (tidy : schema.Tidy) : schema.toJson.isKeyed = true := by
  induction schema using parts_induction with
  | step schema inductionHypothesis =>
    have here := tidy schema .refl
    have parts : ∀ part ∈ schema.parts, part.toJson.isKeyed = true := fun part isPart =>
      inductionHypothesis part isPart fun inner holds => tidy inner (.head isPart holds)
    have isRest : IsRest keywords schema.rest := ⟨here.keyed.rest, here.apart⟩
    have properties : Json.isKeyed (.object (Writer.map toJson schema.properties)) = true := by
      refine Json.isKeyed_object.mpr ⟨?_, List.forall_mem_map.mpr fun property held => ?_⟩
      · rw [Writer.map, OrderedMap.keys_mapValues]
        exact here.keyed.properties
      · exact (partsHave_of_forall parts).properties property held
    rw [toJson_eq]
    exact Json.isKeyed_object.mpr ⟨nodup_keys_record nodup_keywords rfl isRest,
      forall_mem_record (admits_of_mem_slots spreads_isKeyed parts properties here.keyed.default
        here.keyed.choices) (Json.isKeyed_object.mp here.keyed.rest).2⟩

/-- A schema without a reference, a default or choices has a reference only in its parts and among
its other keywords. -/
theorem foreign_of_parts {schema : Schema} (reference : schema.reference = none)
    (default : schema.default = none) (choices : schema.choices = [])
    (parts : ∀ part ∈ schema.parts, Foreign part.toJson) (rest : Foreign (.object schema.rest)) :
    Foreign schema.toJson := by
  obtain ⟨noLocal, inRest⟩ := foreign_object.mp rest
  have distinct : (schema.slots.map Prod.fst).Nodup := nodup_keywords
  have absent : OrderedMap.get? schema.slots.members "$ref" = none :=
    Slots.get?_members distinct (by rw [slots, reference]; rfl)
  have properties := foreign_map string?_toJson (partsHave_of_forall parts).properties
  rw [toJson_eq]
  refine foreign_object.mpr ⟨fun reference held => ?_, forall_mem_record
    (admits_of_mem_slots spreads_foreign parts properties ?_ ?_) inRest⟩
  · rw [ofMembers?, OrderedMap.get?_append, absent, Option.none_or] at held
    exact noLocal reference held
  · simp [default]
  · simp [choices]

end Schema

/-! ### Parts of a document -/

theorem Media.settled {media : Media} (tidy : media.Tidy)
    (schema : ∀ schema ∈ media.schemas, Settled schema.toJson)
    (foreign : Foreign (.object media.rest)) : Settled media.toJson := by
  rw [toJson_eq]
  refine settled_record Model.media.nodup_names rfl (by decide) ?_ tidy foreign
  simp only [slots, List.forall_mem_singleton]
  exact admits_map fun present given => schema present (Option.mem_toList.mpr given)

theorem Parameter.settled {parameter : Parameter} (tidy : parameter.Tidy)
    (schema : ∀ schema ∈ parameter.schemas, Settled schema.toJson)
    (foreign : Foreign (.object parameter.rest)) : Settled parameter.toJson := by
  rw [toJson_eq]
  refine settled_record Model.parameter.nodup_names rfl (by decide) ?_ tidy foreign
  simp only [slots, List.forall_mem_cons]
  exact ⟨admits_some (spreads_settled.text _), admits_some (spreads_settled.text _),
    admits_text spreads_settled _, admits_whenSet spreads_settled _,
    admits_text spreads_settled _, admits_flag spreads_settled _,
    admits_map fun present given => schema present (Option.mem_toList.mpr given),
    List.forall_mem_nil _⟩

theorem Response.settled {response : Response} (tidy : response.Tidy)
    (headers : ∀ entry ∈ response.headers, Settled entry.2.toJson)
    (content : ∀ entry ∈ response.content, Settled entry.2.toJson)
    (foreign : Foreign (.object response.rest)) : Settled response.toJson := by
  rw [toJson_eq]
  refine settled_record Model.response.nodup_names rfl (by decide) ?_ tidy.rest foreign
  simp only [slots, List.forall_mem_cons]
  exact ⟨admits_text spreads_settled _,
    admits_filledMap (settled_map (fun _ => rfl) tidy.headers.distinct headers),
    admits_filledMap (settled_map (fun _ => rfl) tidy.content.distinct content),
    List.forall_mem_nil _⟩

theorem RequestBody.settled {body : RequestBody} (tidy : body.Tidy)
    (content : ∀ entry ∈ body.content, Settled entry.2.toJson)
    (foreign : Foreign (.object body.rest)) : Settled body.toJson := by
  rw [toJson_eq]
  refine settled_record Model.requestBody.nodup_names rfl (by decide) ?_ tidy.rest foreign
  simp only [slots, List.forall_mem_cons]
  exact ⟨admits_text spreads_settled _,
    admits_some (settled_map (fun _ => rfl) tidy.content.distinct content),
    admits_whenSet spreads_settled _, List.forall_mem_nil _⟩

/-- An operation is settled if all its parts are. -/
theorem Operation.settled {operation : Operation} (tidy : operation.Tidy)
    (parameters : ∀ parameter ∈ operation.parameters, Settled parameter.toJson)
    (body : ∀ body, operation.requestBody = some body → Settled body.toJson)
    (responses : ∀ entry ∈ operation.responses, Settled entry.2.toJson)
    (foreign : Foreign (.object operation.rest)) : Settled operation.toJson := by
  rw [toJson_eq]
  refine settled_record Model.operation.nodup_names rfl (by decide) ?_ tidy.rest foreign
  simp only [slots, List.forall_mem_cons]
  exact ⟨admits_text spreads_settled _, admits_text spreads_settled _,
    admits_text spreads_settled _, admits_texts spreads_settled _,
    admits_filled spreads_settled parameters, admits_map body,
    admits_some (settled_map (fun _ => rfl) tidy.responses.distinct responses),
    List.forall_mem_nil _⟩

theorem PathItem.settled {item : PathItem} (tidy : item.Tidy)
    (parameters : ∀ parameter ∈ item.parameters, Settled parameter.toJson)
    (operations : ∀ method operation, item.operation method = some operation →
      Settled operation.toJson)
    (foreign : Foreign (.object item.rest)) : Settled item.toJson := by
  rw [toJson_eq]
  refine settled_record Model.pathItem.nodup_names rfl (by decide) ?_ tidy.rest foreign
  simp only [slots, List.forall_mem_cons, List.forall_mem_map]
  exact ⟨admits_filled spreads_settled parameters, fun method _ => admits_map (operations method)⟩

/-- A document without components is settled if its paths are. -/
theorem Spec.settled {spec : Spec} (tidy : spec.Tidy) (info : Foreign spec.info)
    (paths : ∀ entry ∈ spec.paths, Settled entry.2.toJson)
    (noComponents : spec.components.isEmpty = true) (foreign : Foreign (.object spec.rest)) :
    Settled spec.toJson := by
  rw [toJson_eq]
  refine settled_record Model.spec.nodup_names rfl (by decide) ?_ tidy.rest foreign
  simp only [slots, noComponents, List.forall_mem_cons]
  refine ⟨admits_some (spreads_settled.text _), ?_,
    admits_some (settled_map (fun _ => rfl) tidy.paths.distinct paths), admits_none,
    List.forall_mem_nil _⟩
  split
  · exact admits_none
  · exact admits_some ⟨tidy.info, info⟩

/-! ### Loading -/

theorem Spec.get?_slots {spec : Spec} {name : String} {slot : Option Json}
    (found : spec.slots.lookup name = some slot) :
    OrderedMap.get? spec.slots.members name = slot := by
  have distinct : (spec.slots.map Prod.fst).Nodup := Model.spec.nodup_names
  exact Slots.get?_members distinct found

/-- A document without components and local references is read as it is. -/
theorem Spec.ofJson_of_foreign {spec : Spec} (tidy : spec.Tidy) (foreign : Foreign spec.toJson)
    (noComponents : spec.components.isEmpty = true) :
    ofJson spec.toJson = (Document.ofJson read spec.toJson).mapError .malformed := by
  have version : OrderedMap.get? spec.slots.members "openapi" = _ := get?_slots rfl
  have paths : OrderedMap.get? spec.slots.members "paths" = _ := get?_slots rfl
  have components : OrderedMap.get? spec.slots.members "components" = none :=
    (get?_slots rfl).trans (if_pos noComponents)
  have absent : "components" ∉ OrderedMap.keys (spec.slots.members ++ spec.rest) := by
    rw [OrderedMap.keys, List.map_append, List.mem_append, not_or]
    exact ⟨OrderedMap.get?_eq_none.mp components,
      fun listed => tidy.rest.apart _ listed (by decide)⟩
  have complete : (["openapi", "paths"].find? fun name =>
      !OrderedMap.contains (spec.slots.members ++ spec.rest) name) = none := by
    simp [OrderedMap.contains, OrderedMap.get?_append, version, paths]
  rw [toJson_eq] at foreign ⊢
  unfold ofJson
  simp only [complete, Reference.resolve_of_foreign foreign absent]

end ServiceForge.OpenApi
