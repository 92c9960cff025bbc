/-
This file lowers schemas to the types of the generated sources. An object with
properties, a choice of texts and a union become declared types of the client
library; a schema met while its own type is not complete becomes a boxed
reference to it, which keeps cycles of types finite.
-/

import ServiceForge.Lowering.Merge
import ServiceForge.Lowering.State

namespace ServiceForge.Lowering

open ServiceForge.OpenApi (Additional Parameter Schema)

/-- The lowering of the schemas inside a schema, each with a hint for its name. -/
abbrev Recur := Schema → String → Lower ValueType

/-! ### Shapes of schemas -/

/-- Whether a schema is a choice of texts, null perhaps among them. -/
def isTextChoice (schema : Schema) : Bool :=
  (schema.nonNullTypes == [] || schema.nonNullTypes == ["string"]) &&
    schema.choices.any Json.isString &&
    schema.choices.all fun choice => choice.isString || choice.isNull

/-- Lets values of a type be absent if a condition holds. -/
def optionalIf (condition : Bool) (type : ValueType) : ValueType :=
  if condition then type.toOptional else type

/-! ### Scalars and lists -/

/-- Lowers a schema of texts, which may be dates with times. -/
def lowerText (context : Context) (schema : Schema) : Lower ValueType := do
  if schema.format = some "date-time" then
    addImportIn context [.sdk, .cliRequest] Import.dateTime
    addImportIn context [.sdk, .cliRequest] Import.timeZone
    return .dateTime
  else
    addImportIn context [.sdk] Import.borrowedText
    return .text

/-- Lowers a schema of arrays. Lists that are only shown are not taken apart. -/
def lowerArray (context : Context) (recur : Recur) (schema : Schema) (hint : String) :
    Lower ValueType := do
  if context.dialect = .cli then freeJson
  else
    match schema.items with
    | some items => return .list (← recur items (Naming.singularize hint))
    | none => return .list (← freeJson)

/-! ### Objects -/

/-- The hint for the type of a property. -/
def propertyHint (owner name : String) : String :=
  if owner.isEmpty then name else owner ++ "_" ++ name

/-- Lowers properties to fields; `fields` holds those already lowered. -/
def lowerProperties (context : Context) (recur : Recur) (schema : Schema) (owner : String)
    (fields : List Field) : List (String × Schema) → Lower (List Field)
  | [] => return fields
  | (wireName, property) :: rest => do
    if context.dialect = .sdk ∧ property.readOnly = some true then
      lowerProperties context recur schema owner fields rest
    else
      let required := schema.isRequired wireName
      let type ← recur property (propertyHint owner wireName)
      let field : Field := {
        name := fresh (fields.map Field.name) "_" (Naming.fieldName wireName)
        wireName
        type := optionalIf (!required) type
        required
        description := property.description.or property.title }
      lowerProperties context recur schema owner (fields ++ [field]) rest

/-- Lowers the properties of an object to fields. -/
def lowerFieldsWith (context : Context) (recur : Recur) (schema : Schema) (owner : String) :
    Lower (List Field) := do
  let schema ← if schema.allOf.isEmpty then pure schema else settle (mergeAllOf context.spec schema)
  lowerProperties context recur schema owner [] schema.properties

/-- Lowers the schema of further properties. -/
def lowerAdditional (recur : Recur) (schema : Schema) (name : String) :
    Lower (Option ValueType) := do
  match schema.additional with
  | some (.each values) => return some (← recur values name)
  | some (.allowed true) => return some (← freeJson)
  | _ => return none

/-- Lowers a schema of objects without known properties to a map or to free JSON. -/
def lowerMap (context : Context) (recur : Recur) (schema : Schema) (hint : String) :
    Lower ValueType := do
  match schema.additional with
  | some (.each values) =>
    if context.dialect = .cli then freeJson
    else
      let value ← recur values hint
      addImportIn context [.sdk] Import.map
      return .map value
  | _ => freeJson

/-- Lowers an object to a new structure with the given name. -/
def lowerStructure (context : Context) (recur : Recur) (schema : Schema) (name : String) :
    Lower ValueType := do
  let (fields, additional) ← within (beginType name schema) endType do
    return (← attempt (lowerFieldsWith context recur schema ""),
      ← attempt (lowerAdditional recur schema name))
  let fields ← settle fields
  let additional ← settle additional
  if additional.isSome then addImport Import.map
  declare schema {
    name
    description := schema.description
    shape := .structure fields (additional.map .map) }
  return .named name

/-- Lowers a schema of objects to a structure, which is declared once. -/
def lowerObject (context : Context) (recur : Recur) (schema : Schema) (hint : String) :
    Lower ValueType := do
  if schema.properties.isEmpty then lowerMap context recur schema hint
  else if context.dialect ≠ .sdk then freeJson
  else
    match claim (← get) hint schema with
    | .existing name => return .named name
    | .forward name => return .boxed (.named name)
    | .new name => lowerStructure context recur schema name

/-! ### Choices of texts -/

/-- The name of the variant for a text, which may be empty. -/
def textVariantName (wire : String) : String :=
  if wire.isEmpty then "Empty" else Naming.typeName wire

/-- The variants for texts, with names that are distinct. -/
def textVariants (variants : List (String × String)) : List String → List (String × String)
  | [] => variants
  | wire :: rest =>
    let name := fresh (variants.map Prod.fst) "_" (textVariantName wire)
    textVariants (variants ++ [(name, wire)]) rest

/-- Lowers a schema of given texts to an enumeration, or to texts where none is declared. -/
def lowerTextChoice (context : Context) (schema : Schema) (hint : String) : Lower ValueType := do
  if context.dialect ≠ .sdk then return .text
  else
    match claim (← get) hint schema with
    | .existing name => return .named name
    | .forward name => return .named name
    | .new name =>
      declare schema {
        name
        description := schema.description
        shape := .enumeration (.texts (textVariants [] (schema.choices.filterMap Json.string?))) }
      return .named name

/-! ### Unions -/

/-- Lowers the branches of a union of versions; `index` counts the branches before. -/
def lowerVersioned (recur : Recur) (name : String) (index : Nat) :
    List Schema → Lower (List (String × String × ValueType))
  | [] => return []
  | branch :: rest => do
    let version := (branch.annotation? "min-ver").getD (toString index)
    let suffix := Naming.versionSuffix version
    let type ← recur branch (name ++ "_" ++ suffix)
    return ("V" ++ suffix, version, type) :: (← lowerVersioned recur name (index + 1) rest)

/-- The name of a variant with a payload of the given type. -/
def payloadName (index : Nat) : ValueType → String
  | .text => "String"
  | .dateTime => "DateTime"
  | .int32 | .int64 => "Integer"
  | .float32 | .float64 => "Number"
  | .boolean => "Bool"
  | .list _ | .commaSeparated _ => "Array"
  | .map _ | .json => "Object"
  | .named name => name
  | .boxed (.optional inner) => payloadName index inner
  | .boxed inner => payloadName index inner
  | .optional _ => "F" ++ toString index

/-- Lowers the branches of a union that nothing tells apart. -/
def lowerUntagged (recur : Recur) (name : String) (variants : List (String × ValueType)) :
    List Schema → Lower (List (String × ValueType))
  | [] => return variants
  | branch :: rest => do
    let index := variants.length
    let type ← recur branch (branch.title.getD (name ++ "_" ++ toString index))
    let variant :=
      fresh (variants.map Prod.fst) (toString index) (payloadName index type.withoutOption)
    lowerUntagged recur name (variants ++ [(variant, type)]) rest

/-- Lowers the branches of a union, which its discriminator may tell apart by version. -/
def lowerVariants (recur : Recur) (schema : Schema) (name : String) : Lower Variants := do
  if schema.annotation? "discriminator" = some "microversion" then
    return .versioned (← lowerVersioned recur name 0 schema.nonNullBranches)
  else return .untagged (← lowerUntagged recur name [] schema.nonNullBranches)

/-- Lowers a union. A single branch stands for the whole union. -/
def lowerUnion (context : Context) (recur : Recur) (schema : Schema) (hint : String) :
    Lower ValueType := do
  match schema.nonNullBranches with
  | [single] => return optionalIf schema.hasNullBranch (← recur single hint)
  | [] => freeJson
  | _ =>
    if context.dialect ≠ .sdk then freeJson
    else
      match claim (← get) hint schema with
      | .existing name => return .named name
      | .forward name => return .boxed (.named name)
      | .new name =>
        let variants ← within (beginType name schema) endType (lowerVariants recur schema name)
        declare schema { name, description := schema.description, shape := .enumeration variants }
        return optionalIf schema.hasNullBranch (.named name)

/-! ### Schemas -/

/-- Lowers a reference to a component. -/
def lowerComponent (context : Context) (recur : Recur) (component : String) :
    Lower ValueType := do
  let name := Naming.typeName component
  let state ← get
  if state.visiting.contains component || state.isInProgress name then
    return .boxed (.named name)
  else
    match context.spec.schema? component with
    | none => throw (.componentNotFound component)
    | some schema =>
      within (beginComponent component) (endComponent component) (recur schema component)

/-- Lowers a schema by the name of its type. -/
def lowerType (context : Context) (recur : Recur) (type : String) (schema : Schema)
    (hint : String) : Lower ValueType :=
  match type with
  | "string" => lowerText context schema
  | "integer" => return if schema.format = some "int64" then .int64 else .int32
  | "number" => return if schema.format = some "double" then .float64 else .float32
  | "boolean" => return .boolean
  | "array" => lowerArray context recur schema hint
  | "object" => lowerObject context recur schema hint
  | other => throw (.unsupportedType other hint)

/-- Lowers a schema that is neither a reference nor merged from parts, null aside. -/
def lowerPlain (context : Context) (recur : Recur) (schema : Schema) (hint : String) :
    Lower ValueType :=
  if !schema.oneOf.isEmpty || !schema.anyOf.isEmpty then lowerUnion context recur schema hint
  else if isTextChoice schema then lowerTextChoice context schema hint
  else
    match schema.nonNullTypes with
    | [] =>
      if !schema.properties.isEmpty || schema.additional.isSome then
        lowerObject context recur schema hint
      else if schema.items.isSome then lowerArray context recur schema hint
      else freeJson
    | [type] => lowerType context recur type schema hint
    | _ => freeJson

/-- Lowers a schema, where what is inside it is lowered by a given function. -/
def lowerStep (context : Context) (recur : Recur) (schema : Schema) (hint : String) :
    Lower ValueType := do
  match schema.referenceName? with
  | some component => lowerComponent context recur component
  | none =>
    if schema.reference.isSome then freeJson
    else if !schema.allOf.isEmpty then recur (← settle (mergeAllOf context.spec schema)) hint
    else return optionalIf schema.isNullable (← lowerPlain context recur schema hint)

/-- Lowers a schema to at most the given depth. -/
def lowerWithin (context : Context) (limit : Nat) (schema : Schema) (hint : String) :
    Lower ValueType :=
  match limit with
  | 0 => throw (.endlessSchema hint)
  | limit + 1 => lowerStep context (lowerWithin context limit) schema hint

/-- A depth that no lowering exceeds. Each component is visited once at a time, and a merged
schema is met again only under another name. -/
def depthLimit (context : Context) (schema : Schema) : Nat :=
  let schemas := context.spec.schemasSize + schema.size + 4
  schemas * schemas

/-- Lowers a schema; the hint names the type that may be declared for it. -/
def lower (context : Context) (schema : Schema) (hint : String) : Lower ValueType :=
  lowerWithin context (depthLimit context schema) schema hint

/-- Lowers the properties of an object. -/
def lowerFields (context : Context) (schema : Schema) (owner : String) : Lower (List Field) :=
  lowerFieldsWith context (lower context) schema owner

/-! ### Parameters -/

/-- Whether a parameter of the path identifies the resource itself. -/
def isResourceId (parameter : Parameter) (scope : Scope) : Bool :=
  parameter.location = .path && scope.terminal == some parameter.name &&
    parameter.name == scope.singular ++ "_id"

/-- Lowers a parameter and gives it a binding. The parameter that ends the path and is named after
the resource is bound as `id`. -/
def lowerParameter (context : Context) (parameter : Parameter) (scope : Scope) :
    Lower Binding := do
  let type ← lower context (parameter.schema.getD (.ofType "string")) parameter.name
  let type ←
    match parameter.isCommaSeparated, type with
    | true, .list item => do
      addImportIn context [.sdk] Import.commaSeparatedList
      pure (ValueType.commaSeparated item)
    | _, type => pure type
  let required := parameter.required || parameter.location = .path
  return {
    name := if isResourceId parameter scope then "id" else Naming.fieldName parameter.name
    wireName := parameter.name
    location := parameter.location
    type := optionalIf (!required) type
    required
    description := parameter.description }

end ServiceForge.Lowering
