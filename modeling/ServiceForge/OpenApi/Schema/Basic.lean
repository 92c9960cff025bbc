/-
This file holds the JSON Schemas of an OpenAPI document. Keywords that no
generator looks at are kept with the vendor extensions of a schema.
-/

import ServiceForge.Json.Basic
import ServiceForge.Text.Basic

namespace ServiceForge.OpenApi

open ServiceForge.Text

/-- The key of the annotations of this kind of services. -/
def annotationKey : String := "x-openstack"

/-- The annotations among the keys that a model does not declare. -/
def annotations? (rest : OrderedMap Json) : Option (OrderedMap Json) :=
  (rest.get? annotationKey).bind Json.members?

/-- The keyword `type`: the name of one type or a list of names. -/
inductive TypeNames where
  | single (name : String)
  | multiple (names : List String)
deriving DecidableEq, Repr

namespace TypeNames

/-- The names that are given, whether one or several. -/
def toList : TypeNames → List String
  | single name => [name]
  | multiple names => names

end TypeNames

/-- The keyword `additionalProperties`: whether there may be any, or the schema of each. -/
inductive Additional (α : Type) where
  | allowed (flag : Bool)
  | each (schema : α)
deriving Repr

/-- A schema of JSON values. -/
structure Schema where
  reference : Option String := none
  type : Option TypeNames := none
  format : Option String := none
  title : Option String := none
  description : Option String := none
  default : Option Json := none
  items : Option Schema := none
  properties : List (String × Schema) := []
  required : List String := []
  nullable : Option Bool := none
  additional : Option (Additional Schema) := none
  oneOf : List Schema := []
  anyOf : List Schema := []
  allOf : List Schema := []
  choices : List Json := []
  pattern : Option String := none
  maxLength : Option Nat := none
  minLength : Option Nat := none
  readOnly : Option Bool := none
  rest : OrderedMap Json := []
deriving Repr

namespace Schema

instance : Inhabited Schema := ⟨{}⟩

/-- The schema of one type. -/
def ofType (name : String) : Schema := { type := some (.single name) }

/-! ### Types -/

/-- The types that a schema names. -/
def types (schema : Schema) : List String := (schema.type.map TypeNames.toList).getD []

/-- The types that a schema names, without null. -/
def nonNullTypes (schema : Schema) : List String := schema.types.filter (· ≠ "null")

/-- Whether a schema says that values may be null. -/
def isNullable (schema : Schema) : Bool :=
  schema.nullable == some true || schema.types.contains "null"

/-- Whether a schema is of objects, by its type or by its properties. -/
def isObject (schema : Schema) : Bool :=
  schema.nonNullTypes == ["object"] || (schema.type.isNone && !schema.properties.isEmpty)

/-- Whether a schema is of arrays, by its type or by its items. -/
def isArray (schema : Schema) : Bool :=
  schema.nonNullTypes == ["array"] || (schema.type.isNone && schema.items.isSome)

/-- Whether objects of a schema need a property. -/
def isRequired (schema : Schema) (name : String) : Bool := schema.required.contains name

/-! ### Unions -/

/-- The branches of a union; `oneOf` goes before `anyOf`. -/
def branches (schema : Schema) : List Schema :=
  if schema.oneOf.isEmpty then schema.anyOf else schema.oneOf

/-- Whether a schema stands for null alone. -/
def isNull (schema : Schema) : Bool := schema.types == ["null"]

/-- The branches of a union that are of more than null. -/
def nonNullBranches (schema : Schema) : List Schema :=
  schema.branches.filter fun branch => !branch.isNull

/-- Whether a union has a branch of null alone. -/
def hasNullBranch (schema : Schema) : Bool := schema.branches.any isNull

/-! ### Annotations and references -/

/-- The OpenStack annotations of a schema. -/
def annotations (schema : Schema) : Option (OrderedMap Json) := annotations? schema.rest

/-- The annotation with the given key, if it is text. -/
def annotation? (schema : Schema) (key : String) : Option String := do
  (← (← schema.annotations).get? key).string?

/-- How a reference to a component schema begins. -/
def componentStart : String := "#/components/schemas/"

/-- The component that a reference names. -/
def referenceName? (schema : Schema) : Option String :=
  schema.reference.bind (afterStart? componentStart)

end Schema

end ServiceForge.OpenApi
