/-
This file finds the schema of a resource inside the schema of a request or a
response, where the resource or a list of it is the value of a property.
-/

import ServiceForge.Naming
import ServiceForge.OpenApi.Schema.Basic
import ServiceForge.Text.LetterCase

namespace ServiceForge.Resource

open ServiceForge.Text
open ServiceForge.OpenApi (Schema)

/-- Where a resource stands in a payload. -/
structure Found where
  schema : Schema
  key : Option String := none
  itemKey : Option String := none
  isList : Bool := false

/-- A name in the form in which names are compared. -/
def comparable (name : String) : String := replaceCharacter '-' "_" (lower name)

/-- Whether an annotation marks a property as the resource. -/
def isMarked (property : Schema) : Bool :=
  ((property.annotations.bind (OrderedMap.get? · "resource")).bind Json.bool?) == some true

/-- The property that holds the resource: one that is marked or the only one with its name. -/
def wrapper? (schema : Schema) (leaf : String) : Option (String × Schema) :=
  match schema.properties.find? fun property => isMarked property.2 with
  | some property => some property
  | none =>
    let name := comparable leaf
    let singular := Naming.singularize name
    let names := [name, singular, Naming.pluralize singular]
    match schema.properties.filter fun property => names.contains (comparable property.1) with
    | [property] => some property
    | _ => none

/-- Finds the resource with the given name, which is the payload itself if no property holds
it. -/
def locate (payload : Schema) (leaf : String) : Found :=
  let (schema, key) :=
    match wrapper? payload leaf with
    | some (name, inner) => (inner, some name)
    | none => (payload, none)
  if !schema.isArray then { schema, key }
  else
    match schema.items with
    | none => { schema, key, isList := true }
    | some items =>
      match wrapper? items leaf with
      | some (name, inner) =>
        if items.properties.length = 1 then
          { schema := inner, key, itemKey := some name, isList := true }
        else { schema := items, key, isList := true }
      | none => { schema := items, key, isList := true }

end ServiceForge.Resource
