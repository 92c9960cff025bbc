/-
This file proves that the attributes of a resource and their schemas stand for each other. The
descriptor of a resource is found again in its schema if what counts something is an integer,
since the schema says so of it in any case, and what is found in any schema is found again in
its own schema.
-/

import ServiceForge.Descriptor.JsonSchema
import ServiceForge.Proofs.Except
import ServiceForge.Proofs.Schema.Size

namespace ServiceForge.Descriptor

open ServiceForge.OpenApi (Schema)

/-! ### Attributes -/

/-- A schema without parts is merged as it is. -/
theorem mergeAllOf_of_nil {schema : Schema} (noParts : schema.allOf = []) :
    mergeAllOf schema = schema := by
  cases schema
  cases noParts
  rfl

/-- The attribute of a schema with neither parts nor branches says what the schema says. -/
theorem attributeOfSchema_of_plain {schema : Schema} (noParts : schema.allOf = [])
    (noBranches : schema.branches = []) (location : String) :
    attributeOfSchema schema location = do
      return {
        type := ← attributeType schema location
        format := schema.format
        doc := schema.description } := by
  obtain ⟨limit, isSucc⟩ := Nat.exists_eq_add_one.mpr schema.size_pos
  rw [attributeOfSchema, isSucc]
  simp only [attributeWithin, mergeAllOf_of_nil noParts, noBranches]
  rfl

/-- The name of a type stands for it. -/
theorem attributeOfSchema_of_typed {schema : Schema} {type : AttributeType}
    (typed : schema.type = (schemaType? type).map .single) (noProperties : schema.properties = [])
    (noItems : schema.items = none) (noParts : schema.allOf = [])
    (noBranches : schema.branches = []) (location : String) :
    attributeOfSchema schema location =
      .ok { type, format := schema.format, doc := schema.description } := by
  have isType : attributeType schema location = .ok type := by
    unfold attributeType Schema.nonNullTypes Schema.types
    rw [typed, noProperties, noItems]
    cases type <;> rfl
  rw [attributeOfSchema_of_plain noParts noBranches, isType]
  rfl

theorem attributeOfSchema_schema (described : Attribute) (location : String) :
    attributeOfSchema described.schema location = .ok { described with required := false } :=
  attributeOfSchema_of_typed rfl rfl rfl rfl rfl location

/-- A schema alone does not say that it must be given. -/
theorem required_of_attributeWithin {limit : Nat} {schema : Schema} {location : String}
    {described : Attribute} (ok : attributeWithin limit schema location = .ok described) :
    described.required = false := by
  induction limit generalizing schema described with
  | zero => cases ok
  | succ limit inductionHypothesis =>
    simp only [attributeWithin] at ok
    split at ok
    · obtain ⟨type, -, returned⟩ := bind_eq_ok.mp ok
      cases returned
      rfl
    · split at ok
      · obtain ⟨single, isSingle, returned⟩ := bind_eq_ok.mp ok
        cases returned
        have required := inductionHypothesis isSingle
        exact required
      · cases ok
        rfl

/-! ### Resources -/

/-- The type of an attribute as its schema tells it: what counts something is an integer. -/
def countedType (name : String) (type : AttributeType) : AttributeType :=
  if isCounter name then .integer else type

/-- An attribute as the schema of its resource tells it. -/
def counted (entry : String × Attribute) : String × Attribute :=
  (entry.1, { entry.2 with type := countedType entry.1 entry.2.type })

theorem counted_eq_iff {entry : String × Attribute} :
    counted entry = entry ↔ isCounter entry.1 = true → entry.2.type = .integer := by
  obtain ⟨name, type, format, doc, required⟩ := entry
  simp only [counted, countedType, Prod.mk.injEq, Attribute.mk.injEq, true_and, and_true]
  split
  · next counts => exact ⟨fun same _ => same.symm, fun integer => (integer counts).symm⟩
  · next apart => exact iff_of_true rfl fun counts => absurd counts apart

theorem attributeOfSchema_propertySchema (name : String) (described : Attribute)
    (location : String) :
    attributeOfSchema (propertySchema name described) location =
      .ok { described with type := countedType name described.type, required := false } := by
  refine attributeOfSchema_of_typed ?_ rfl rfl rfl rfl location
  simp only [propertySchema, countedType]
  split <;> rfl

/-- The required names are those of the required attributes. -/
theorem isRequired_bodySchema {descriptor : Descriptor}
    (distinct : (OrderedMap.keys descriptor.attributes).Nodup) {name : String}
    {described : Attribute} (member : (name, described) ∈ descriptor.attributes) :
    (bodySchema descriptor).isRequired name = described.required := by
  rw [Bool.eq_iff_iff, Schema.isRequired, List.contains_iff_mem]
  constructor
  · intro listed
    obtain ⟨⟨_, other⟩, kept, rfl⟩ := List.mem_map.mp listed
    obtain ⟨isOther, required⟩ := List.mem_filter.mp kept
    have found := OrderedMap.get?_of_mem distinct member
    rw [OrderedMap.get?_of_mem distinct isOther] at found
    cases found
    exact required
  · intro required
    exact List.mem_map.mpr ⟨_, List.mem_filter.mpr ⟨member, required⟩, rfl⟩

/-- What the schema of a resource without a key says of it. -/
theorem ofSchema_resourceSchema {descriptor : Descriptor} (noKey : descriptor.resourceKey = none)
    (distinct : (OrderedMap.keys descriptor.attributes).Nodup) :
    ofSchema descriptor.name (resourceSchema descriptor) = .ok {
      name := descriptor.name
      doc := descriptor.doc
      attributes := descriptor.attributes.map counted } := by
  rw [resourceSchema, noKey]
  refine bind_eq_ok.mpr ⟨_, ?_, rfl⟩
  have properties : (bodySchema descriptor).properties =
      descriptor.attributes.map fun entry => (entry.1, propertySchema entry.1 entry.2) := rfl
  rw [properties, List.mapM_map]
  refine mapM_eq_ok_map fun entry member => ?_
  obtain ⟨name, described⟩ := entry
  show (do
      let described ← attributeOfSchema (propertySchema name described) name
      return (name, { described with required := (bodySchema descriptor).isRequired name })) = _
  rw [attributeOfSchema_propertySchema, isRequired_bodySchema distinct member]
  rfl

/-- The descriptor of a resource without a key is the one that its schema leads to, apart from what
a schema does not say, exactly if all attributes that count something are integers; and the
attribute of a schema is the one of its own schema. -/
theorem descriptor_of_schema :
    (∀ descriptor : Descriptor, descriptor.resourceKey = none →
      (OrderedMap.keys descriptor.attributes).Nodup →
        (ofSchema descriptor.name (resourceSchema descriptor) =
            .ok { descriptor with resourcesKey := none, capabilities := {} } ↔
          ∀ entry ∈ descriptor.attributes, isCounter entry.1 = true →
            entry.2.type = .integer)) ∧
      ∀ schema location described, attributeOfSchema schema location = .ok described →
        ∀ other, attributeOfSchema described.schema other = .ok described := by
  refine ⟨fun descriptor noKey distinct => ?_, fun schema location described ok other => ?_⟩
  · obtain ⟨name, doc, resourceKey, resourcesKey, attributes, capabilities⟩ := descriptor
    obtain rfl : resourceKey = none := noKey
    have unchanged : attributes.map counted = attributes ↔
        ∀ entry ∈ attributes, counted entry = entry := by
      have same := List.map_inj_left (l := attributes) (f := counted) (g := id)
      rwa [List.map_id] at same
    rw [ofSchema_resourceSchema rfl distinct]
    simp only [Except.ok.injEq, mk.injEq, true_and, and_true, unchanged, counted_eq_iff]
  · rw [attributeOfSchema_schema]
    have required : described.required = false := required_of_attributeWithin ok
    rw [← required]

/-- The descriptor of the volumes of a service. -/
def volume : Descriptor where
  name := "Volume"
  doc := some "A volume."
  resourcesKey := some "volumes"
  attributes := [
    ("id", { type := .text, doc := some "The identifier." }),
    ("created_at", { type := .text, format := some "date-time" }),
    ("min_disk", { type := .integer, required := true }),
    ("metadata", { type := .dictionary })]
  capabilities := { list := true, fetch := true }

/-- The schema of a size that is given in one of two ways. -/
def volumeSize : Schema where
  allOf := [
    { description := some "The size." },
    { oneOf := [{ type := some (.single "null") }, { type := some (.single "integer") }] }]

theorem descriptor_of_schema_volume :
    ofSchema "Volume" (resourceSchema volume) =
        .ok { volume with resourcesKey := none, capabilities := {} } ∧
      attributeOfSchema volumeSize "size" = .ok { type := .integer, doc := some "The size." } ∧
      attributeOfSchema (Attribute.schema { type := .integer, doc := some "The size." }) "" =
        .ok { type := .integer, doc := some "The size." } := by
  have size : attributeOfSchema volumeSize "size" =
      .ok { type := .integer, doc := some "The size." } := rfl
  have ofVolume := descriptor_of_schema.1 volume rfl (by decide)
  exact ⟨ofVolume.mpr (by decide), size, descriptor_of_schema.2 _ _ _ size ""⟩

end ServiceForge.Descriptor
