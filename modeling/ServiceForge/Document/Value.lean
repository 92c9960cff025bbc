/-
This file holds the values of a document before they are read as a model. A
scalar of a YAML text is kept as it is written, since its meaning may depend on
the type that the model asks for; the values of a JSON document have their types
already.
-/

import ServiceForge.Json.Basic
import ServiceForge.Yaml.Node
import ServiceForge.Yaml.Scalar

namespace ServiceForge.Document

/-- Why a document does not have the form of a model. -/
inductive Error where
  | syntaxError (error : Yaml.Error)
  | mismatch (problem : String)
deriving Repr

/-- The text that explains why a document cannot be read. -/
def Error.message : Error → String
  | syntaxError error => error.message
  | mismatch problem => problem

/-- Fails since a value is not what is expected. -/
def mismatch {α : Type} (problem : String) : Except Error α := throw (.mismatch problem)

/-! ### Values -/

/-- A scalar: one that has its type, or one as it is written. -/
inductive Atom where
  | null
  | boolean (value : Bool)
  | number (value : Number)
  | nonFinite (value : Yaml.NonFinite)
  | string (value : String)
  | written (tag : Yaml.Tag) (style : Yaml.Style) (text : String)
deriving Repr

/-- A key of a mapping. No model has collections as keys, so they are not kept. -/
inductive Key where
  | scalar (atom : Atom)
  | collection
deriving Repr

/-- A value of a document, with the tags of its collections. -/
inductive Value where
  | atom (value : Atom)
  | array (tag : Yaml.Tag) (items : List Value)
  | object (tag : Yaml.Tag) (members : List (Key × Value))
deriving Repr

namespace Value

mutual

/-- The value that a JSON value stands for. -/
def ofJson : Json → Value
  | .null => .atom .null
  | .bool value => .atom (.boolean value)
  | .number value => .atom (.number value)
  | .string value => .atom (.string value)
  | .array items => .array .absent (ofJsonItems items)
  | .object members => .object .absent (ofJsonMembers members)

/-- The values that the items of a JSON array stand for. -/
def ofJsonItems : List Json → List Value
  | [] => []
  | item :: rest => ofJson item :: ofJsonItems rest

/-- The members that those of a JSON object stand for. -/
def ofJsonMembers : List (String × Json) → List (Key × Value)
  | [] => []
  | (key, value) :: rest => (.scalar (.string key), ofJson value) :: ofJsonMembers rest

end

/-- The key that a node stands for. A collection is no usable key. -/
def keyOfNode : Yaml.Node → Key
  | .scalar tag style text => .scalar (.written tag style text)
  | _ => .collection

mutual

/-- The value of a node, whose scalars stay as they are written. -/
def ofNode : Yaml.Node → Value
  | .scalar tag style text => .atom (.written tag style text)
  | .sequence tag items => .array tag (ofNodes items)
  | .mapping tag entries => .object tag (ofEntries entries)

/-- The values of the nodes of a sequence. -/
def ofNodes : List Yaml.Node → List Value
  | [] => []
  | item :: rest => ofNode item :: ofNodes rest

/-- The members that the nodes of a mapping stand for. -/
def ofEntries : List (Yaml.Node × Yaml.Node) → List (Key × Value)
  | [] => []
  | (key, value) :: rest => (keyOfNode key, ofNode value) :: ofEntries rest

end

mutual

/-- How deep the collections of a value are nested. -/
def depth : Value → Nat
  | .atom _ => 0
  | .array _ items => itemsDepth items + 1
  | .object _ members => membersDepth members + 1

/-- How deep the deepest of some items is. -/
def itemsDepth : List Value → Nat
  | [] => 0
  | item :: rest => max (depth item) (itemsDepth rest)

/-- How deep the deepest of some members is. -/
def membersDepth : List (Key × Value) → Nat
  | [] => 0
  | (_, value) :: rest => max (depth value) (membersDepth rest)

end

end Value

/-! ### The types of scalars -/

namespace Atom

/-- A scalar with its type. An integer may be too large to have one. -/
def ofScalar : Yaml.Scalar → Except Error Atom
  | .null => return .null
  | .boolean value => return .boolean value
  | .integer value => return .number (.integer value)
  | .oversize => mismatch "integer out of range"
  | .float value => return .number (.float value)
  | .nonFinite value => return .nonFinite value
  | .text value => return .string value

/-- The meaning of a scalar with a tag of its own type. -/
def ofTagged (expected : String) (scalar : Option Yaml.Scalar) : Except Error Atom :=
  match scalar with
  | some scalar => ofScalar scalar
  | none => mismatch ("expected " ++ expected)

/-- Settles the type of a scalar by its tag or, without one, by how it is written. -/
def typed (atom : Atom) : Except Error Atom :=
  match atom with
  | .written .absent .plain text => ofScalar (.ofPlain text)
  | .written .absent _ text => return .string text
  | .written .boolean _ text =>
    ofTagged "a boolean" ((Yaml.Scalar.boolean? text).map .boolean)
  | .written .integer _ text => ofTagged "an integer" (Yaml.Scalar.ofInteger? text)
  | .written .float _ text => ofTagged "a float" (Yaml.Scalar.ofFloat? text)
  | .written .null _ text =>
    ofTagged "null" (if Yaml.Scalar.isNull text then some .null else none)
  | .written (.application name) _ _ => mismatch ("unexpected tag !" ++ name)
  | .written .other _ text => return .string text
  | atom => return atom

end Atom

end ServiceForge.Document
