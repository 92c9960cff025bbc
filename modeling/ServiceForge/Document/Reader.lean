/-
This file holds the readers from which the models are read. In a written
document a text field takes any scalar as it stands; in a typed one each scalar
has its type first, and a number is not a text.
-/

import ServiceForge.Document.Value
import ServiceForge.Number.Binary64

namespace ServiceForge.Document

/-- Whether the type of a scalar follows from the field that it is read for, or is settled
before. -/
inductive Mode where
  | written
  | typed
deriving DecidableEq, Repr

/-- A way to read a part of a model from a value. -/
abbrev Reader (α : Type) := Mode → Value → Except Error α

namespace Reader

variable {α β : Type}

/-- Gives a written scalar its type, where scalars are typed before they are read. -/
def settle (mode : Mode) (atom : Atom) : Except Error Atom :=
  match mode with
  | .written => return atom
  | .typed => atom.typed

/-- Nothing is written, which stands for an empty collection. -/
def isMissing : Value → Bool
  | .atom (.written _ .plain text) => text.isEmpty
  | _ => false

/-- In a typed document a tag that YAML does not define has no meaning. -/
def checkTag (mode : Mode) (tag : Yaml.Tag) : Except Error Unit :=
  match mode, tag with
  | .typed, .application name => mismatch ("unexpected tag !" ++ name)
  | _, _ => return

/-! ### Scalars -/

/-- The text of a scalar, which is a string or is taken as it is written. -/
def textOfAtom (mode : Mode) (atom : Atom) : Except Error String := do
  match ← settle mode atom with
  | .string value => return value
  | .written _ _ text => return text
  | _ => mismatch "expected a string"

/-- Reads a text. -/
def text : Reader String := fun mode value =>
  match value with
  | .atom atom => textOfAtom mode atom
  | _ => mismatch "expected a string"

/-- The text of the key of a mapping. -/
def keyText (mode : Mode) : Key → Except Error String
  | .scalar atom => textOfAtom mode atom
  | .collection => mismatch "expected a string key"

/-- Whether a scalar may be read as the type that its tag names. -/
def isBare (expected tag : Yaml.Tag) (style : Yaml.Style) : Bool :=
  style = .plain || (style = .literal && tag = expected)

/-- Reads a flag. -/
def flag : Reader Bool := fun mode value => do
  match value with
  | .atom atom =>
    match ← settle mode atom with
    | .boolean value => return value
    | .written tag style text =>
      match if isBare .boolean tag style then Yaml.Scalar.boolean? text else none with
      | some value => return value
      | none => mismatch "expected a boolean"
    | _ => mismatch "expected a boolean"
  | _ => mismatch "expected a boolean"

/-- Reads a natural number below `2^64`. -/
def natural : Reader Nat := fun mode value => do
  match value with
  | .atom atom =>
    match ← settle mode atom with
    | .number (.integer value) =>
      if 0 ≤ value then return value.toNat else mismatch "expected a natural number"
    | .written tag style text =>
      match if isBare .integer tag style then Yaml.Scalar.natural? text else none with
      | some value =>
        if value < powerOfTwo 64 then return value else mismatch "expected a natural number"
      | none => mismatch "expected a natural number"
    | _ => mismatch "expected a natural number"
  | _ => mismatch "expected a natural number"

/-! ### Collections -/

/-- The items of a sequence. Where values are read as written, a missing one has no items. -/
def items (mode : Mode) (value : Value) : Except Error (List Value) := do
  match value with
  | .array tag items =>
    checkTag mode tag
    return items
  | value =>
    if mode = .written && isMissing value then return [] else mismatch "expected a sequence"

/-- The members of an object with the text of their keys. -/
def members (mode : Mode) (value : Value) : Except Error (List (String × Value)) := do
  match value with
  | .object tag members =>
    checkTag mode tag
    members.mapM fun member => return (← keyText mode member.1, member.2)
  | value =>
    if mode = .written && isMissing value then return [] else mismatch "expected a mapping"

/-- Reads a list, item by item. -/
def list (read : Reader α) : Reader (List α) := fun mode value => do
  (← items mode value).mapM (read mode)

/-- Reads a map whose values are all read alike. -/
def map (read : Reader α) : Reader (OrderedMap α) := fun mode value => do
  let entries ← (← members mode value).mapM fun member => do
    return (member.1, ← read mode member.2)
  return OrderedMap.ofEntries entries

/-- Whether a value stands for the absence of an optional one. -/
def isAbsent (value : Value) : Except Error Bool :=
  match value with
  | .atom .null => return true
  | .atom (.written .absent .plain text) => return text.isEmpty || Yaml.Scalar.isNull text
  | .atom (.written .null .plain text) =>
    if Yaml.Scalar.isNull text then return true else mismatch "expected null"
  | _ => return false

/-- Reads a value that may be absent. -/
def optional (read : Reader α) : Reader (Option α) := fun mode value => do
  if ← isAbsent value then return none else return some (← read mode value)

/-! ### Choices -/

/-- The choice with the given name. -/
def named (choices : List (String × α)) (name : String) : Except Error α :=
  match choices.lookup name with
  | some choice => return choice
  | none => mismatch ("unknown variant " ++ name)

/-- Reads one of several choices by its name, which may also be the tag of an empty scalar or the
only key of an object with nothing in it. -/
def choice (choices : List (String × α)) : Reader α := fun mode value => do
  match mode, value with
  | .written, .atom (.written (.application name) .plain text) =>
    if text.isEmpty || Yaml.Scalar.isNull text then named choices name
    else mismatch "expected null"
  | .typed, .object _ [(key, content)] =>
    let name ← keyText mode key
    if ← isAbsent content then named choices name else mismatch "expected null"
  | mode, value => named choices (← text mode value)

/-! ### Free values -/

/-- A scalar as a JSON value. -/
def jsonOfAtom (atom : Atom) : Except Error Json := do
  match ← atom.typed with
  | .null => return .null
  | .boolean value => return .bool value
  | .number value => return .number value
  | .nonFinite _ => return .null
  | .string value => return .string value
  | .written _ _ text => return .string text

mutual

/-- Reads any value. Scalars are typed in either mode, keys only in a typed document. -/
def json (mode : Mode) : Value → Except Error Json
  | .atom atom => jsonOfAtom atom
  | .array tag items => do
    checkTag .typed tag
    return .array (← jsonItems mode items)
  | .object tag members => do
    checkTag .typed tag
    return .object (OrderedMap.ofEntries (← jsonMembers mode members))

/-- The items of a sequence as JSON values. -/
def jsonItems (mode : Mode) : List Value → Except Error (List Json)
  | [] => return []
  | item :: rest => do return (← json mode item) :: (← jsonItems mode rest)

/-- The members of a mapping as those of a JSON object. -/
def jsonMembers (mode : Mode) : List (Key × Value) → Except Error (List (String × Json))
  | [] => return []
  | (key, value) :: rest => do
    return (← keyText mode key, ← json mode value) :: (← jsonMembers mode rest)

end

end Reader

/-! ### Records -/

/-- The members of an object that a model declares, and the rest if the model keeps it. -/
structure Fields where
  mode : Mode
  declared : List (String × Value)
  rest : OrderedMap Json := []

namespace Fields

variable {α : Type}

/-- A declared field stands at most once. -/
def checkDistinct (declared : List (String × Value)) : Except Error Unit :=
  if (declared.map Prod.fst).Nodup then return else mismatch "duplicate field"

/-- Splits the members of an object into the declared ones and the rest, which is kept. -/
def ofOpen (names : List String) (mode : Mode) (value : Value) : Except Error Fields := do
  let members ← Reader.members mode value
  let declared := members.filter fun member => names.contains member.1
  checkDistinct declared
  let rest ← (members.filter fun member => !names.contains member.1).mapM fun member => do
    return (member.1, ← Reader.json .typed member.2)
  return ⟨mode, declared, OrderedMap.ofEntries rest⟩

/-- Takes the declared members of an object. A typed document may also list them by position. -/
def ofClosed (names : List String) (mode : Mode) (value : Value) : Except Error Fields := do
  match mode, value with
  | .typed, .array _ items =>
    if names.length < items.length then mismatch "too many fields"
    return ⟨mode, names.zip items, []⟩
  | mode, value =>
    let declared := (← Reader.members mode value).filter fun member => names.contains member.1
    checkDistinct declared
    return ⟨mode, declared, []⟩

/-- Reads a declared field that has to be there. -/
def required (fields : Fields) (name : String) (read : Reader α) : Except Error α :=
  match fields.declared.lookup name with
  | some value => read fields.mode value
  | none => mismatch ("missing field " ++ name)

/-- Reads a declared field, or takes another value if the field is not there. -/
def withDefault (fields : Fields) (name : String) (fallback : α) (read : Reader α) :
    Except Error α :=
  match fields.declared.lookup name with
  | some value => read fields.mode value
  | none => return fallback

/-- Reads a declared field that may be absent. -/
def optional (fields : Fields) (name : String) (read : Reader α) : Except Error (Option α) :=
  fields.withDefault name none (Reader.optional read)

/-- Reads a declared field that is a list, which is empty if the field is not there. -/
def list (fields : Fields) (name : String) (read : Reader α) : Except Error (List α) :=
  fields.withDefault name [] (Reader.list read)

/-- Reads a declared field that is a map, which is empty if the field is not there. -/
def map (fields : Fields) (name : String) (read : Reader α) : Except Error (OrderedMap α) :=
  fields.withDefault name [] (Reader.map read)

/-- Reads a declared field that is a flag, which is off if the field is not there. -/
def flag (fields : Fields) (name : String) : Except Error Bool :=
  fields.withDefault name false Reader.flag

end Fields

/-! ### Whole documents -/

/-- Reads a model from a YAML text. -/
def ofYaml {α : Type} (read : Reader α) (text : String) : Except Error α :=
  match Yaml.Node.ofText text with
  | .ok node => read .written (Value.ofNode node)
  | .error error => throw (.syntaxError error)

/-- Reads a model from a JSON document. -/
def ofJson {α : Type} (read : Reader α) (document : Json) : Except Error α :=
  read .typed (Value.ofJson document)

end ServiceForge.Document
