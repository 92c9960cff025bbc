/-
This file holds JSON documents. Objects keep the order of their members, and the
equality of documents ignores it.
-/

import ServiceForge.Number.Basic
import ServiceForge.OrderedMap

namespace ServiceForge

/-- A JSON document. -/
inductive Json where
  | null
  | bool (value : Bool)
  | number (value : Number)
  | string (value : String)
  | array (items : List Json)
  | object (members : List (String × Json))
deriving Inhabited, Repr

namespace Json

/-! ### Views -/

/-- Whether a value is null. -/
def isNull : Json → Bool
  | null => true
  | _ => false

/-- Whether a value is a string. -/
def isString : Json → Bool
  | string _ => true
  | _ => false

/-- The text of a string. -/
def string? : Json → Option String
  | string value => some value
  | _ => none

/-- The value of a flag. -/
def bool? : Json → Option Bool
  | bool value => some value
  | _ => none

/-- The members of an object. -/
def members? : Json → Option (OrderedMap Json)
  | object members => some members
  | _ => none

/-- The member of an object with the given key. -/
def get? (document : Json) (key : String) : Option Json :=
  document.members?.bind (OrderedMap.get? · key)

/-! ### Equality -/

mutual

/-- Equality up to the order of members. -/
def equal : Json → Json → Bool
  | null, null => true
  | bool left, bool right => left == right
  | number left, number right => left.equal right
  | string left, string right => left == right
  | array left, array right => equalItems left right
  | object left, object right => left.length == right.length && equalMembers left right
  | _, _ => false

/-- Whether two arrays have equal items. -/
def equalItems : List Json → List Json → Bool
  | [], [] => true
  | left :: lefts, right :: rights => equal left right && equalItems lefts rights
  | _, _ => false

/-- Whether each of the members has an equal one in `right`. -/
def equalMembers : List (String × Json) → List (String × Json) → Bool
  | [], _ => true
  | (key, left) :: lefts, right =>
    (match List.lookup key right with
      | some value => equal left value
      | none => false) && equalMembers lefts right

end

end Json

end ServiceForge
