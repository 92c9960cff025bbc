/-
This file holds the types of the generated sources: the types of values, the
structures and enumerations that the sources declare, and the bindings of
parameters.
-/

import ServiceForge.OpenApi.Spec.Basic

namespace ServiceForge.Lowering

/-- What the types are for: the requests of the client library, the rows that commands show, or
the arguments that commands take. -/
inductive Dialect where
  | sdk
  | cli
  | cliRequest
deriving DecidableEq, Repr

/-- The type of a value. A boxed type closes a cycle of types. -/
inductive ValueType where
  | text
  | dateTime
  | int32
  | int64
  | float32
  | float64
  | boolean
  | json
  | list (item : ValueType)
  | commaSeparated (item : ValueType)
  | map (value : ValueType)
  | optional (inner : ValueType)
  | named (name : String)
  | boxed (inner : ValueType)
deriving DecidableEq, Repr

namespace ValueType

/-- The optional form of a type, which is never optional twice. -/
def toOptional : ValueType → ValueType
  | optional inner => optional inner
  | type => optional type

/-- Whether values of a type may be absent. -/
def isOptional : ValueType → Bool
  | optional _ => true
  | _ => false

/-- The type without its outer option. -/
def withoutOption : ValueType → ValueType
  | optional inner => inner
  | type => type

/-- Whether values of the type are single scalars. -/
def isScalar : ValueType → Bool
  | text | dateTime | int32 | int64 | float32 | float64 | boolean => true
  | _ => false

theorem isOptional_toOptional (type : ValueType) : type.toOptional.isOptional = true := by
  cases type <;> rfl

end ValueType

/-! ### Declared types -/

/-- A field of a structure or request. -/
structure Field where
  name : String
  wireName : String
  type : ValueType
  required : Bool
  description : Option String
deriving DecidableEq, Repr

/-- The variants of an enumeration: texts with their wire form, payloads of one version each, or
payloads of any form. -/
inductive Variants where
  | texts (variants : List (String × String))
  | versioned (variants : List (String × String × ValueType))
  | untagged (variants : List (String × ValueType))
deriving DecidableEq, Repr

/-- The content of a declared type. -/
inductive Shape where
  | structure (fields : List Field) (additional : Option ValueType)
  | enumeration (variants : Variants)
deriving DecidableEq, Repr

/-- A type that is declared next to a request. -/
structure Subtype where
  name : String
  description : Option String
  shape : Shape
deriving DecidableEq, Repr

namespace Variants

/-- The types of the payloads. -/
def types : Variants → List ValueType
  | texts _ => []
  | versioned variants => variants.map fun variant => variant.2.2
  | untagged variants => variants.map Prod.snd

/-- The names of the variants. -/
def names : Variants → List String
  | texts variants => variants.map Prod.fst
  | versioned variants => variants.map Prod.fst
  | untagged variants => variants.map Prod.fst

end Variants

namespace Subtype

/-- The types that occur in a declaration. -/
def memberTypes (subtype : Subtype) : List ValueType :=
  match subtype.shape with
  | .structure fields additional => fields.map Field.type ++ additional.toList
  | .enumeration variants => variants.types

end Subtype

/-! ### Parameters -/

/-- A parameter and its binding. -/
structure Binding where
  name : String
  wireName : String
  location : OpenApi.Location
  type : ValueType
  required : Bool
  description : Option String
deriving DecidableEq, Repr

/-- What is known about the resource when its parameters are bound: its name as one word in the
singular, and the parameter that ends the path. -/
structure Scope where
  singular : String := ""
  terminal : Option String := none

/-! ### Imports -/

namespace Import

/-- The path of texts that may be borrowed. -/
def borrowedText : String := "std::borrow::Cow"

/-- The path of maps. -/
def map : String := "std::collections::BTreeMap"

/-- The path of JSON values. -/
def json : String := "serde_json::Value"

/-- The path of dates with times. -/
def dateTime : String := "chrono::DateTime"

/-- The path of the time zone of dates with times. -/
def timeZone : String := "chrono::Utc"

/-- The path of lists in one text. -/
def commaSeparatedList : String := "crate::api::common::CommaSeparatedList"

end Import

end ServiceForge.Lowering
