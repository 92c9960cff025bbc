/-
This file writes the members of a record. An absent value, an empty collection
and a flag that is not set leave no member.
-/

import ServiceForge.Json.Basic

namespace ServiceForge.Document.Writer

variable {α : Type}

/-- The members of a JSON object, in the order that they are written in. -/
abbrev Members := List (String × Json)

/-- Texts as a JSON array. -/
def texts (values : List String) : Json := .array (values.map Json.string)

/-- A natural number as a JSON number. -/
def natural (value : Nat) : Json := .number (.integer value)

/-- The member for a value, if there is one. -/
def present (key : String) (write : α → Json) (value : Option α) : Members :=
  (value.map fun value => (key, write value)).toList

/-- The member for a text, if there is one. -/
def text (key : String) (value : Option String) : Members := present key .string value

/-- Writes a list unless it is empty. -/
def filled (key : String) (items : List Json) : Members :=
  if items.isEmpty then [] else [(key, .array items)]

/-- Writes a map unless it is empty. -/
def filledMap (key : String) (members : Members) : Members :=
  if members.isEmpty then [] else [(key, .object members)]

/-- The member for a flag, if it is on. -/
def whenSet (key : String) (flag : Bool) : Members := if flag then [(key, .bool true)] else []

/-- The members for the entries of a map, whose values are all written alike. -/
def map (write : α → Json) (entries : OrderedMap α) : Members := entries.mapValues write

end ServiceForge.Document.Writer
