/-
This file says which fields an object is lowered to. There is one for each property of
the merged schema, in order, except for those that requests leave out; it is required if
some layer of the schema requires its property, and its type is that of the property.
An option never stands directly inside another one. The names of the fields are distinct
identifiers.
-/

import ServiceForge.Proofs.Lowering.FieldNames
import ServiceForge.Proofs.Lowering.MergeOrder

namespace ServiceForge.Lowering

open ServiceForge.OpenApi (Schema)
open ServiceForge.Text (IsAscii)

/-! ### Options -/

namespace ValueType

/-- Whether no option in a type stands directly inside an option. -/
def isFlat : ValueType → Bool
  | list item => item.isFlat
  | commaSeparated item => item.isFlat
  | map value => value.isFlat
  | boxed inner => inner.isFlat
  | optional inner => !inner.isOptional && inner.isFlat
  | _ => true

theorem isFlat_toOptional {type : ValueType} (flat : type.isFlat = true) :
    type.toOptional.isFlat = true := by
  cases type <;> exact flat

end ValueType

theorem isFlat_optionalIf {type : ValueType} (condition : Bool) (flat : type.isFlat = true) :
    (optionalIf condition type).isFlat = true := by
  unfold optionalIf
  split
  · exact ValueType.isFlat_toOptional flat
  · exact flat

theorem Leaf.isFlat {context : Context} {schema : Schema} {type : ValueType} {paths : List String}
    (leaf : Leaf context schema type paths) : type.isFlat = true := by
  rcases leaf.shape with scalar | rfl | rfl
  · revert scalar
    cases type <;> first | exact fun _ => rfl | exact nofun
  · rfl
  · rfl

/-- What is asked of a way to lower the schemas inside a schema. -/
def GivesFlat (recur : Recur) : Prop :=
  ∀ {schema : Schema} {hint : String} {state after : State} {type : ValueType},
    recur schema hint state = (.ok type, after) → type.isFlat = true

section GivesFlat

variable {context : Context} {recur : Recur} {schema : Schema} {hint : String}
  {state after : State} {type : ValueType}

theorem GivesFlat.plain (flat : GivesFlat recur)
    (ran : Plain context recur schema hint state (.ok type) after) : type.isFlat = true := by
  cases ran with
  | leaf leaf => exact leaf.isFlat
  | inner inner inside =>
    have within := flat inside
    cases inner with
    | branch => exact isFlat_optionalIf _ within
    | items => exact within
    | values => exact within
  | union => exact isFlat_optionalIf _ rfl
  | _ => rfl

theorem GivesFlat.step (flat : GivesFlat recur)
    (ran : Step context recur schema hint state (.ok type) after) : type.isFlat = true := by
  cases ran with
  | forward => rfl
  | component _ _ _ _ inside => exact flat inside
  | foreign => rfl
  | merged _ _ _ inside => exact flat inside
  | plain _ _ inside => exact isFlat_optionalIf _ (flat.plain inside)

theorem lowerWithin_givesFlat (context : Context) (limit : Nat) :
    GivesFlat (lowerWithin context limit) := by
  refine lowerWithin_induction (P := fun recur => GivesFlat recur) ?_ ?_ limit
  · intro schema hint state after type ran
    cases ran
  · intro limit flat schema hint state after type ran
    exact flat.step (lowerStep_step ran)

end GivesFlat

theorem Calls.isFlat {context : Context} {calls : List (Schema × String)} {state after : State}
    {types : List ValueType} (ran : Calls (lower context) calls state (.ok types) after) :
    ∀ type ∈ types, type.isFlat = true := by
  induction calls generalizing state types with
  | nil =>
    cases ran
    exact nofun
  | cons call rest inductionHypothesis =>
    cases ran with
    | cons first others =>
      exact List.forall_mem_cons.mpr
        ⟨lowerWithin_givesFlat context _ first, inductionHypothesis others⟩

/-! ### Fields -/

/-- The field that a property with a type becomes, where a schema has the given layers. -/
structure Represents (layers : List Schema) (property : String × Schema) (type : ValueType)
    (field : Field) : Prop where
  wireName : field.wireName = property.1
  required : field.required = true ↔ ∃ layer ∈ layers, property.1 ∈ layer.required
  type : field.type = if field.required then type else type.toOptional
  description : field.description = property.2.description.or property.2.title

section Fields

variable {context : Context} {schema whole : Schema} {owner : String} {state after : State}
  {fields : List Field} {layers : List Schema} {properties : List (String × Schema)}

theorem represents_fieldOf (combines : Combines lastDefinition? layers whole)
    (property : String × Schema) (type : ValueType) :
    Represents layers property type (fieldOf whole fields property type) where
  wireName := rfl
  required := by
    show whole.required.contains property.1 = true ↔ _
    rw [List.contains_iff_mem, combines.required, mem_requiredNames]
  type := by
    show optionalIf (!whole.isRequired property.1) type = if whole.isRequired property.1 then _ else _
    unfold optionalIf
    cases whole.isRequired property.1 <;> rfl
  description := rfl

/-- Each property becomes one field, after those that are there. -/
theorem exists_fieldsOf (fields : List Field) (combines : Combines lastDefinition? layers whole)
    (properties : List (String × Schema)) (types : List ValueType) :
    ∃ more, fieldsOf whole fields properties types = fields ++ more ∧
      List.Forall₂ (fun lowered => Represents layers lowered.1 lowered.2) (properties.zip types)
        more := by
  induction properties generalizing fields types with
  | nil => exact ⟨[], (List.append_nil fields).symm, .nil⟩
  | cons property rest inductionHypothesis =>
    cases types with
    | nil => exact ⟨[], (List.append_nil fields).symm, .nil⟩
    | cons type types =>
      obtain ⟨more, returned, represented⟩ :=
        inductionHypothesis (fields ++ [fieldOf whole fields property type]) types
      rw [List.append_assoc] at returned
      exact ⟨fieldOf whole fields property type :: more, returned,
        .cons (represents_fieldOf combines property type) represented⟩

/-- The properties of the merged schema that are not left out are lowered one after another. -/
theorem exists_layers_of_lowerFields
    (components : ∀ name target, context.spec.schema? name = some target → target.Keyed)
    (keyed : schema.Keyed)
    (ran : lowerFields context schema owner state = (.ok fields, after)) :
    ∃ layers whole types, MergeOrder context.spec schema layers ∧
      Combines lastDefinition? layers whole ∧
      Calls (lower context) (propertyCalls owner (settable context whole.properties)) state
        (.ok types) after ∧
      fields.map Field.wireName = OrderedMap.keys (settable context whole.properties) ∧
      fields = fieldsOf whole [] (settable context whole.properties) types := by
  have names := congrArg (List.map Prod.snd) (lowerFields_names ran)
  rw [List.map_map, fieldNames_wireNames] at names
  rcases lowerFields_calls ran with ⟨_, _, failed, _⟩ | ⟨whole, types, merged, called, returned⟩
  · cases failed
  cases types with
  | error failure => cases returned
  | ok types =>
    obtain ⟨layers, isLayers, combines⟩ :=
      (partClosed_keyed components).exists_layers_of_wholeOf keyed merged
    rw [propertyNames, merged] at names
    exact ⟨layers, whole, types, isLayers, combines, called, names, Except.ok.inj returned⟩

/-- The fields of an object that is lowered from any state. The names of its properties are those
that its layers define, in the order of their first definitions, and each property has its last
one. The properties that are not left out are lowered one after another and become one field each,
with a name of its own. -/
theorem lowerFields_represents
    (components : ∀ name target, context.spec.schema? name = some target → target.Keyed)
    (keyed : schema.Keyed)
    (ran : lowerFields context schema owner state = (.ok fields, after)) :
    ∃ layers properties types, MergeOrder context.spec schema layers ∧
      OrderedMap.keys properties = definedNames layers ∧
      (∀ property ∈ properties, lastDefinition? layers property.1 = some property.2) ∧
      Calls (lower context) (propertyCalls owner (settable context properties)) state
        (.ok types) after ∧
      fields.map Field.wireName = OrderedMap.keys (settable context properties) ∧
      List.Forall₂ (fun lowered => Represents layers lowered.1 lowered.2)
        ((settable context properties).zip types) fields ∧
      (∀ field ∈ fields, field.type.isFlat = true) ∧
      (fields.map Field.name).Nodup ∧
      ∀ field ∈ fields, IsAscii field.wireName → Naming.IsIdentifier field.name := by
  have names := lowerFields_names ran
  obtain ⟨layers, whole, types, isLayers, combines, called, wireNames, returned⟩ :=
    exists_layers_of_lowerFields components keyed ran
  obtain ⟨more, same, represented⟩ :=
    exists_fieldsOf [] combines (settable context whole.properties) types
  refine ⟨layers, whole.properties, types, isLayers, combines.names,
    fun property => combines.pick_of_mem, called, wireNames, ?_, fun field member => ?_, ?_,
    fun field member ascii => ?_⟩
  · rwa [returned, same]
  · rw [returned] at member
    obtain ⟨value, isValue, condition, same⟩ :=
      exists_of_mem_fieldsOf (List.mem_map_of_mem member)
    rw [same]
    exact isFlat_optionalIf condition (called.isFlat value isValue)
  · have distinct := nodup_fieldNames [] (propertyNames context schema)
    rw [← names, List.map_map] at distinct
    exact distinct
  · have named : (field.name, field.wireName) ∈ fieldNames [] (propertyNames context schema) := by
      rw [← names]
      exact List.mem_map_of_mem member
    obtain ⟨count, same⟩ := exists_marks_of_mem_fieldNames named
    rw [same]
    exact (Naming.isIdentifier_fieldName ascii).marked count

end Fields

/-- What the parts of a port refer to. -/
def limitSchema : Schema where
  properties := [("limit", { type := some (.multiple ["integer", "null"]) })]
  required := ["2fa"]

/-- A port whose properties are told in a part, in a part of that and in a component, some of them
with names that are alike, and one of them twice. -/
def portSchema : Schema where
  properties := [("type", .ofType "string"), ("2fa", .ofType "boolean"), ("Name", .ofType "string")]
  required := ["type"]
  allOf := [
    { properties := [("name", .ofType "string"), ("id", { readOnly := some true })]
      allOf := [
        { properties := [("type", .ofType "integer"), ("NAME", .ofType "string")]
          required := ["name"] }] },
    refersTo "Limit"]

/-- A document with a component that ports refer to. -/
def portContext : Context where
  dialect := .sdk
  spec := { version := "3.1.0", components := { schemas := [("Limit", limitSchema)] } }

theorem limitSchema_keyed : limitSchema.Keyed :=
  .of_parts ⟨by decide, nofun, nofun, rfl⟩ (List.forall_mem_singleton.mpr
    (.of_parts ⟨by decide, nofun, nofun, rfl⟩ nofun))

theorem portSchema_keyed : portSchema.Keyed := by
  have scalar := Schema.keyed_ofType
  refine .of_parts ⟨by decide, nofun, nofun, rfl⟩ (List.forall_mem_cons.mpr ⟨scalar _,
    List.forall_mem_cons.mpr ⟨scalar _, List.forall_mem_cons.mpr ⟨scalar _,
      List.forall_mem_cons.mpr ⟨?_, List.forall_mem_singleton.mpr ?_⟩⟩⟩⟩)
  · refine .of_parts ⟨by decide, nofun, nofun, rfl⟩ (List.forall_mem_cons.mpr ⟨scalar _,
      List.forall_mem_cons.mpr ⟨?_, List.forall_mem_singleton.mpr ?_⟩⟩)
    · exact .of_parts ⟨by decide, nofun, nofun, rfl⟩ nofun
    · exact .of_parts ⟨by decide, nofun, nofun, rfl⟩ (List.forall_mem_cons.mpr
        ⟨scalar _, List.forall_mem_singleton.mpr (scalar _)⟩)
  · exact .of_parts ⟨by decide, nofun, nofun, rfl⟩ nofun

/-- The names, wire names and types of the fields of the port. -/
def portFields : List (String × String × ValueType) := [
  ("_type", "type", .int32),
  ("_2fa", "2fa", .boolean),
  ("name", "Name", .optional .text),
  ("name_", "name", .text),
  ("name__", "NAME", .optional .text),
  ("limit", "limit", .optional .int32)]

theorem lowerFields_represents_port :
    ∃ fields after layers, lowerFields portContext portSchema "port" {} = (.ok fields, after) ∧
      fields.map (fun field => (field.name, field.wireName, field.type)) = portFields ∧
      MergeOrder portContext.spec portSchema layers ∧
      definedNames layers = ["type", "2fa", "Name", "name", "id", "NAME", "limit"] ∧
      (∀ field ∈ fields, field.type.isFlat = true) ∧ (fields.map Field.name).Nodup ∧
      ∀ field ∈ fields, Naming.IsIdentifier field.name := by
  have components (name : String) (target : Schema)
      (found : portContext.spec.schema? name = some target) : target.Keyed := by
    cases List.mem_singleton.mp (OrderedMap.mem_of_get? found)
    exact limitSchema_keyed
  have given : (lowerFields portContext portSchema "port" {}).1.toOption.map
      (List.map fun field => (field.name, field.wireName, field.type)) = some portFields := by
    decide +kernel
  rcases ran : lowerFields portContext portSchema "port" {} with ⟨failure | fields, after⟩
  · rw [ran] at given
    cases given
  rw [ran] at given
  replace given := Option.some.inj given
  obtain ⟨layers, properties, types, isLayers, -, -, -, -, -, flat, distinct, identifiers⟩ :=
    lowerFields_represents components portSchema_keyed ran
  have ascii : ∀ name ∈ fields.map Field.wireName, IsAscii name := by
    have wireNames : fields.map Field.wireName = portFields.map fun entry => entry.2.1 := by
      rw [← given, List.map_map]
      rfl
    rw [wireNames]
    decide
  refine ⟨fields, after, layers, rfl, given, isLayers, ?_, flat, distinct, fun field member =>
    identifiers field member (ascii _ (List.mem_map_of_mem member))⟩
  cases isLayers.unique (.mk (.cons rfl (.mk (.cons rfl (.mk .nil) .nil))
    (.cons rfl (.mk .nil) .nil)))
  decide

end ServiceForge.Lowering
