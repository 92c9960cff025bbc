/-
This file counts the schemas inside a schema. The number bounds how deep anything
that follows a schema can go.
-/

import ServiceForge.OpenApi.Spec.Basic

namespace ServiceForge.OpenApi

namespace Schema

mutual

/-- The number of schemas inside a schema, itself included. -/
def size (schema : Schema) : Nat :=
  match schema with
  | { items, properties, additional, oneOf, anyOf, allOf, .. } =>
    itemsSize items + propertiesSize properties + additionalSize additional + branchesSize oneOf +
      branchesSize anyOf + branchesSize allOf + 1
termination_by structural schema

/-- The size of the schema of items. -/
def itemsSize (items : Option Schema) : Nat :=
  match items with
  | none => 0
  | some schema => size schema
termination_by structural items

/-- The size of the schemas of properties. -/
def propertiesSize (properties : List (String × Schema)) : Nat :=
  match properties with
  | [] => 0
  | property :: rest => propertySize property + propertiesSize rest
termination_by structural properties

/-- The size of the schema of a property. -/
def propertySize (property : String × Schema) : Nat :=
  match property with
  | (_, schema) => size schema
termination_by structural property

/-- The size of what is allowed beside the properties, if it is said. -/
def additionalSize (additional : Option (Additional Schema)) : Nat :=
  match additional with
  | none => 0
  | some extra => extraSize extra
termination_by structural additional

/-- The size of what is allowed beside the properties. -/
def extraSize (extra : Additional Schema) : Nat :=
  match extra with
  | .allowed _ => 0
  | .each schema => size schema
termination_by structural extra

/-- The size of the branches of a union. -/
def branchesSize (branches : List Schema) : Nat :=
  match branches with
  | [] => 0
  | branch :: rest => size branch + branchesSize rest
termination_by structural branches

end

end Schema

/-- The number of schemas inside the component schemas of a document. -/
def Spec.schemasSize (spec : Spec) : Nat := Schema.propertiesSize spec.components.schemas

end ServiceForge.OpenApi
